import JobShell.Proofs.Syntax.Expanding
import JobShell.Proofs.Syntax.Reading
import JobShell.Proofs.Syntax.Spans
import JobShell.Syntax.Pipeline
import Mathlib.Tactic.ByContra

/-!
# How far a command substitution goes

The parenthesis that closes a substitution is looked for by a reader of its own,
which passes over single-quoted text and counts every other parenthesis. So the
whole of a command is its substitution exactly when its parentheses are balanced
in this sense (`Enclosed`); a quote within double quotes or after a backslash
counts as one that opens single-quoted text.
-/
namespace JobShell
namespace Substitution

/-- Texts without a loose parenthesis, where all that stands between two single
    quotes is passed over. -/
inductive Enclosed : Text → Prop where
  | nil : Enclosed []
  | char {c : Char} {t : Text} (other : c ≠ singleQuote ∧ c ≠ '(' ∧ c ≠ ')') (rest : Enclosed t) : Enclosed (c :: t)
  | quoted {q t : Text} (free : singleQuote ∉ q) (rest : Enclosed t) :
    Enclosed (singleQuote :: (q ++ singleQuote :: t))
  | group {a t : Text} (inner : Enclosed a) (rest : Enclosed t) : Enclosed ('(' :: (a ++ ')' :: t))

/-! ### One character at a time -/

theorem closing?_inside (d : Nat) (c : Char) (r : Text) :
    closing? d true (c :: r) = (closing? d (c != singleQuote) r).map (· + 1) := by
  cases d <;> simp [closing?]

theorem closing?_single (d : Nat) (r : Text) :
    closing? d false (singleQuote :: r) = (closing? d true r).map (· + 1) := by
  cases d <;> simp [closing?]

theorem closing?_open (d : Nat) (r : Text) : closing? d false ('(' :: r) = (closing? (d+1) false r).map (· + 1) := by
  have differs : '(' ≠ singleQuote := by decide
  cases d <;> simp [closing?,differs]

theorem closing?_end (r : Text) : closing? 0 false (')' :: r) = some 1 := by
  have differs : ')' ≠ singleQuote := by decide
  simp [closing?,differs]

theorem closing?_close (d : Nat) (r : Text) : closing? (d+1) false (')' :: r) = (closing? d false r).map (· + 1) := by
  have differs : ')' ≠ singleQuote := by decide
  simp [closing?,differs]

theorem closing?_char (d : Nat) {c : Char} (other : c ≠ singleQuote ∧ c ≠ '(' ∧ c ≠ ')') (r : Text) :
    closing? d false (c :: r) = (closing? d false r).map (· + 1) := by
  obtain ⟨noQuote,noOpen,noClose⟩ := other
  cases d <;> simp [closing?,noQuote,noOpen,noClose]

/-! ### The closing parenthesis -/

theorem closing?_quoted (d : Nat) {q : Text} (free : singleQuote ∉ q) (t : Text) :
    closing? d true (q ++ singleQuote :: t) = (closing? d false t).map (· + (q.length + 1)) := by
  induction q with
  | nil => rw [List.nil_append,closing?_inside,bne_self_eq_false]; rfl
  | cons c r ih =>
    have other : c ≠ singleQuote := fun e => free (by simp [e])
    have tail := ih (fun h => free (List.mem_cons_of_mem _ h))
    rw [List.cons_append,closing?_inside,bne_iff_ne.mpr other,tail,Option.map_map]
    rfl

/-- Single-quoted text has an end when something is closed after it. -/
theorem exists_quoted {d : Nat} {t : Text} (closes : (closing? d true t).isSome) :
    ∃ q r, t = q ++ singleQuote :: r ∧ singleQuote ∉ q ∧ (closing? d false r).isSome := by
  induction t with
  | nil => simp [closing?] at closes
  | cons c r ih =>
    rw [closing?_inside,Option.isSome_map] at closes
    by_cases quote : c = singleQuote
    · rw [quote,bne_self_eq_false] at closes
      exact ⟨[],r,by rw [quote]; rfl,List.not_mem_nil,closes⟩
    · rw [bne_iff_ne.mpr quote] at closes
      obtain ⟨q,r',rfl,free,later⟩ := ih closes
      refine ⟨c :: q,r',rfl,fun h => ?_,later⟩
      rcases List.mem_cons.mp h with first | inside
      · exact quote first.symm
      · exact free inside

/-- Enclosed text neither closes nor opens anything. -/
theorem Enclosed.closing?_append {a : Text} (enclosed : Enclosed a) (d : Nat) (t : Text) :
    closing? d false (a ++ t) = (closing? d false t).map (· + a.length) := by
  induction enclosed generalizing d t with
  | nil => simp
  | @char c a other _ ih =>
    rw [List.cons_append,closing?_char d other,ih,Option.map_map]
    rfl
  | @quoted q a free _ ih =>
    have whole : singleQuote :: (q ++ singleQuote :: a) ++ t = singleQuote :: (q ++ singleQuote :: (a ++ t)) := by simp
    rw [whole,closing?_single,closing?_quoted d free,ih,Option.map_map,Option.map_map]
    congr 1
    funext n
    simp only [Function.comp_apply,List.length_cons,List.length_append]
    omega
  | @group a b _ _ iha ihb =>
    have whole : '(' :: (a ++ ')' :: b) ++ t = '(' :: (a ++ ')' :: (b ++ t)) := by simp
    rw [whole,closing?_open,iha,closing?_close,ihb,Option.map_map,Option.map_map,Option.map_map]
    congr 1
    funext n
    simp only [Function.comp_apply,List.length_cons,List.length_append]
    omega

/-- Before what closes a parenthesis stands enclosed text. -/
theorem exists_enclosed {d : Nat} {t : Text} (closes : (closing? d false t).isSome) :
    ∃ a r, t = a ++ ')' :: r ∧ Enclosed a := by
  -- A group and what follows it are both parts of the text, so the induction is on the length.
  induction len : t.length using Nat.strongRecOn generalizing d t with
  | _ n ih =>
    subst len
    cases t with
    | nil => simp [closing?] at closes
    | cons c r =>
      by_cases quote : c = singleQuote
      · rw [quote,closing?_single,Option.isSome_map] at closes
        obtain ⟨q,u,rfl,free,later⟩ := exists_quoted closes
        obtain ⟨a,r',rfl,enclosed⟩ := ih u.length (by simp; omega) later rfl
        exact ⟨singleQuote :: (q ++ singleQuote :: a),r',by rw [quote]; simp,.quoted free enclosed⟩
      by_cases opens : c = '('
      · rw [opens,closing?_open,Option.isSome_map] at closes
        obtain ⟨a,u,rfl,inner⟩ := ih r.length (by simp) closes rfl
        rw [inner.closing?_append,closing?_close,Option.isSome_map,Option.isSome_map] at closes
        obtain ⟨b,r',rfl,rest⟩ := ih u.length (by simp; omega) closes rfl
        exact ⟨'(' :: (a ++ ')' :: b),r',by rw [opens]; simp,.group inner rest⟩
      by_cases ends : c = ')'
      · exact ⟨[],r,by rw [ends]; rfl,.nil⟩
      have other : c ≠ singleQuote ∧ c ≠ '(' ∧ c ≠ ')' := ⟨quote,opens,ends⟩
      rw [closing?_char d other,Option.isSome_map] at closes
      obtain ⟨a,r',rfl,enclosed⟩ := ih r.length (by simp) closes rfl
      exact ⟨c :: a,r',rfl,.char other enclosed⟩

/-- The closing parenthesis comes after enclosed text. -/
theorem closing?_eq_some_iff {t : Text} {n : Nat} :
    closing? 0 false t = some n ↔ ∃ a r, t = a ++ ')' :: r ∧ Enclosed a ∧ n = a.length + 1 := by
  have closes : ∀ {a : Text} (r : Text), Enclosed a → closing? 0 false (a ++ ')' :: r) = some (a.length + 1) := by
    intro a r enclosed
    rw [enclosed.closing?_append,closing?_end,Nat.add_comm]
    rfl
  constructor
  · intro found
    obtain ⟨a,r,rfl,enclosed⟩ := exists_enclosed (by rw [found]; rfl)
    rw [closes r enclosed,Option.some.injEq] at found
    exact ⟨a,r,rfl,enclosed,found.symm⟩
  · rintro ⟨a,r,rfl,enclosed,rfl⟩
    exact closes r enclosed

/-- Whether a text is enclosed is found out by looking for a parenthesis after it. -/
theorem closing?_append_iff (c r : Text) : closing? 0 false (c ++ ')' :: r) = some (c.length + 1) ↔ Enclosed c := by
  refine ⟨fun found => ?_,fun enclosed => closing?_eq_some_iff.mpr ⟨c,r,rfl,enclosed,rfl⟩⟩
  obtain ⟨a,r',split,enclosed,length⟩ := closing?_eq_some_iff.mp found
  rw [(List.append_inj split (by omega)).1]
  exact enclosed

instance : DecidablePred Enclosed := fun c => decidable_of_iff _ (closing?_append_iff c [])

/-! ### The substitution at the beginning of a text -/

/-- The substitution whose opening parenthesis stands before the text. -/
def opened (u : Text) : Text := '$' :: '(' :: u.take (parenLength u)

theorem Enclosed.parenLength {c : Text} (enclosed : Enclosed c) (r : Text) :
    parenLength (c ++ ')' :: r) = c.length + 1 := by
  rw [Substitution.parenLength,(closing?_append_iff c r).mpr enclosed]
  rfl

/-- The substitution of enclosed text ends with its parenthesis. -/
theorem Enclosed.opened {c : Text} (enclosed : Enclosed c) (r : Text) :
    opened (c ++ ')' :: r) = '$' :: '(' :: (c ++ [')']) := by
  rw [Substitution.opened,enclosed.parenLength,List.take_length_add_append,List.take_succ_cons,List.take_zero]

theorem parenLength_le (u : Text) : parenLength u ≤ u.length := by
  rw [parenLength]
  cases found : closing? 0 false u with
  | none => simp
  | some n =>
    obtain ⟨a,r,rfl,_,rfl⟩ := closing?_eq_some_iff.mp found
    simp

/-- A substitution keeps its extent when what follows it is shortened. -/
theorem parenLength_take (u : Text) (k : Nat) : parenLength (u.take (parenLength u + k)) = parenLength u := by
  cases found : closing? 0 false u with
  | none =>
    have all : parenLength u = u.length := by rw [parenLength,found]; rfl
    rw [all,List.take_of_length_le (by omega),all]
  | some n =>
    obtain ⟨a,r,rfl,enclosed,rfl⟩ := closing?_eq_some_iff.mp found
    have shortened : (a ++ ')' :: r).take (a.length + 1 + k) = a ++ ')' :: r.take k := by
      rw [Nat.add_assoc,List.take_length_add_append,Nat.add_comm 1 k,List.take_succ_cons]
    rw [enclosed.parenLength,shortened,enclosed.parenLength]

theorem Enclosed.command_opened {c : Text} (enclosed : Enclosed c) (r : Text) :
    command (Substitution.opened (c ++ ')' :: r)) = c := by
  rw [enclosed.opened,command,(closing?_append_iff c []).mpr enclosed]
  simp

/-- The command up to a parenthesis is that of the substitution exactly when it is enclosed. -/
theorem command_opened_iff (c r : Text) : command (opened (c ++ ')' :: r)) = c ↔ Enclosed c := by
  refine ⟨fun mine => ?_,fun enclosed => enclosed.command_opened r⟩
  cases found : closing? 0 false (c ++ ')' :: r) with
  | none =>
    -- What is not closed has the whole text as its command, so more than the text before the parenthesis.
    have all : parenLength (c ++ ')' :: r) = (c ++ ')' :: r).length := by rw [parenLength,found]; rfl
    rw [opened,all,List.take_length,command,found] at mine
    simpa using congrArg List.length mine
  | some n =>
    obtain ⟨a,r',split,enclosed,_⟩ := closing?_eq_some_iff.mp found
    rw [split,enclosed.command_opened] at mine
    exact mine ▸ enclosed

end Substitution

namespace Lexeme

/-- A substitution is a part of its segment as a whole. -/
theorem bareLength_opened (u : Text) :
    bareLength 0 ('$' :: '(' :: u) =
      (Substitution.opened u).length + bareLength 0 (u.drop (Substitution.parenLength u)) := by
  have fits := Substitution.parenLength_le u
  have skipped : Substitution.parenLength u + 1 ≤ ('(' :: u).length := by simpa using fits
  have dollar : bareLength 0 ('$' :: '(' :: u) = bareLength (Substitution.parenLength u + 1) ('(' :: u) + 1 := by
    have other : '$' ≠ singleQuote ∧ '$' ≠ doubleQuote ∧ '$' ≠ backslash := by decide
    simp [bareLength,isWordBreak,other]
  rw [dollar,bareLength_eq_drop skipped,List.drop_succ_cons,Substitution.opened,List.length_cons,List.length_cons,
    List.length_take,Nat.min_eq_left fits]
  omega

/-- The segment that a substitution begins. -/
theorem segments_opened (u : Text) :
    ∃ k, segments 0 ('$' :: '(' :: u) = (segments 0 (u.drop (Substitution.parenLength u + k))).map
      (.bare ('$' :: '(' :: u.take (Substitution.parenLength u + k)) :: ·) := by
  refine ⟨bareLength 0 (u.drop (Substitution.parenLength u)),?_⟩
  have length : bareLength 0 ('$' :: '(' :: u) =
      Substitution.parenLength u + bareLength 0 (u.drop (Substitution.parenLength u)) + 2 := by
    rw [bareLength_opened,Substitution.opened,List.length_cons,List.length_cons,List.length_take,
      Nat.min_eq_left (Substitution.parenLength_le u)]
    omega
  rw [segments_bare (by decide),length]
  rfl

/-- The substitution of enclosed text is a word. -/
theorem reads_enclosed {c : Text} (enclosed : Substitution.Enclosed c) :
    Reads ('$' :: '(' :: (c ++ [')'])) [.word [.bare ('$' :: '(' :: (c ++ [')']))]] := by
  refine Reads.word (fun rest _ => by simp [beginsWord,isAsciiBlank,isWordBreak]) (by simp) (fun rest apart => ?_)
    (by simp [wordSource,Segment.source])
  have line : '$' :: '(' :: (c ++ [')']) ++ rest = '$' :: '(' :: (c ++ ')' :: rest) := by simp
  have extent : Substitution.parenLength (c ++ ')' :: rest) = (c ++ [')']).length := by
    rw [enclosed.parenLength,List.length_append]; rfl
  have split : c ++ ')' :: rest = (c ++ [')']) ++ rest := by simp
  have ends := bareLength_plain (w := []) (by simp) apart
  have length : bareLength 0 ('$' :: '(' :: (c ++ ')' :: rest)) = ('$' :: '(' :: (c ++ [')'])).length := by
    rw [bareLength_opened,Substitution.opened,extent,split,List.take_left,List.drop_left]
    exact congrArg (_ + ·) ends
  rw [line,segments_bare (by decide),length,← line,List.take_left,List.drop_left,segments_of_apart apart]
  rfl

end Lexeme

namespace Expansion

theorem body_eq_drop (s : Surroundings) (inDouble : Bool) (n : Nat) (t : Text) :
    body s inDouble n t = body s inDouble 0 (t.drop n) := by
  induction t generalizing n with
  | nil => simp [body]
  | cons c r ih =>
    cases n with
    | zero => rfl
    | succ k => rw [body,List.drop_succ_cons]; exact ih k

/-- A substitution stays as it is written. -/
theorem body_opened (s : Surroundings) (inDouble : Bool) (u : Text) :
    body s inDouble 0 ('$' :: '(' :: u) =
      .command (Substitution.opened u) :: body s inDouble 0 (u.drop (Substitution.parenLength u)) := by
  have noBackslash : '$' ≠ backslash := by decide
  have next := body_eq_drop s inDouble (Substitution.parenLength u + 1) ('(' :: u)
  rw [List.drop_succ_cons] at next
  rw [body,if_neg noBackslash]
  simp only [if_true,List.head?_cons,List.tail_cons,next]
  rfl

/-- The first piece of a word that a substitution begins. -/
theorem word_opened (s : Surroundings) {u : Text} {segs : List Segment}
    (word : Lexeme.segments 0 ('$' :: '(' :: u) = .ok segs) :
    ∃ rest quoted, Expansion.word s segs = .ofAtoms (.command (Substitution.opened u) :: rest) quoted := by
  obtain ⟨k,first⟩ := Lexeme.segments_opened u
  rw [first] at word
  cases later : Lexeme.segments 0 (u.drop (Substitution.parenLength u + k)) with
  | error e => rw [later] at word; cases word
  | ok more =>
    rw [later] at word
    cases word
    have kept : Substitution.opened (u.take (Substitution.parenLength u + k)) = Substitution.opened u := by
      rw [Substitution.opened,Substitution.parenLength_take,List.take_take,Nat.min_eq_left (Nat.le_add_right _ k)]
      rfl
    rw [Expansion.word,segments,if_pos rfl,tilde?_special s more.isEmpty (by decide),body_opened,kept]
    exact ⟨_,_,rfl⟩

/-- The substitution of enclosed text is a word of one piece. -/
theorem word_enclosed (s : Surroundings) {c : Text} (enclosed : Substitution.Enclosed c) :
    ∃ quoted, Expansion.word s [.bare ('$' :: '(' :: (c ++ [')']))] =
      .ofAtoms [.command ('$' :: '(' :: (c ++ [')']))] quoted := by
  have used : (c ++ [')']).drop (Substitution.parenLength (c ++ [')'])) = [] := by
    rw [enclosed.parenLength []]
    exact List.drop_of_length_le (by simp)
  rw [Expansion.word,segments,if_pos rfl,tilde?_special s _ (by decide),body_opened,enclosed.opened [],used]
  exact ⟨_,rfl⟩

end Expansion

/-- Nothing of a word follows a substitution that covers it. -/
theorem Word.text_eq_command {w : Word} {t : Text} {rest : List Atom} {quoted : Bool}
    (written : w = ofAtoms (.command t :: rest) quoted) (covers : w.spans = [(0,Text.width w.text)]) : w.text = t := by
  rw [ofAtoms_eq,List.flatMap_cons,Atom.text,Atom.spansFrom] at written
  rw [written,List.cons.injEq,Prod.mk.injEq,Text.width_append] at covers
  have nothing : Text.width (rest.flatMap Atom.text) = 0 := by omega
  have empty : rest.flatMap Atom.text = [] := by
    by_contra filled
    exact Nat.ne_of_gt (Text.width_pos filled) nothing
  rw [written,empty,List.append_nil]

namespace Token

/-- The first word of the lines below. -/
def echo : Word := ⟨txt "echo",[],false⟩

theorem ofText_echo (s : Surroundings) (u : Text) :
    ofText s (txt "echo $(" ++ u) =
      (Lexeme.read 0 ('$' :: '(' :: u)).map (fun l => .word echo :: l.map (ofLexeme s)) := by
  have plain : ∀ c ∈ txt "echo", Lexeme.isPlain c = true := List.all_eq_true.mp (by decide)
  have filled : txt "echo" ≠ [] := by decide
  have first := Lexeme.reads_plain filled plain _ (Lexeme.apart_space ('$' :: '(' :: u))
  have line : txt "echo $(" ++ u = txt "echo" ++ ' ' :: '$' :: '(' :: u := rfl
  rw [ofText,Lexeme.ofLine,line,first,Lexeme.read_space]
  cases Lexeme.read 0 ('$' :: '(' :: u) <;> rfl

/-- The word that a substitution begins is the substitution, when its only span covers it. -/
theorem text_of_ofText_echo {s : Surroundings} {u : Text} {w : Word} {l : List Token}
    (tokens : ofText s (txt "echo $(" ++ u) = .ok (.word echo :: .word w :: l))
    (covers : w.spans = [(0,Text.width w.text)]) : w.text = Substitution.opened u := by
  have begins : Lexeme.beginsWord ('$' :: '(' :: u) = true := by
    simp [Lexeme.beginsWord,isAsciiBlank,isWordBreak]
  rw [ofText_echo] at tokens
  cases lexemes : Lexeme.read 0 ('$' :: '(' :: u) with
  | error e =>
    rw [lexemes] at tokens
    cases tokens
  | ok m =>
    obtain ⟨segs,more,word,rfl⟩ := Lexeme.exists_segments begins lexemes
    obtain ⟨rest,quoted,written⟩ := Expansion.word_opened s word
    rw [lexemes] at tokens
    have same := Except.ok.inj tokens
    simp only [List.map_cons,ofLexeme,List.cons.injEq,Token.word.injEq] at same
    rw [same.2.1] at written
    exact Word.text_eq_command written covers

/-- The substitution of enclosed text ends where its word ends, and the line goes on as if nothing stood before it. -/
theorem ofText_enclosed {s : Surroundings} {c r : Text} {l : List Token} (enclosed : Substitution.Enclosed c)
    (line : ofText s r = .ok l) :
    ofText s (txt "echo $(" ++ (c ++ ')' :: ' ' :: r)) =
      .ok (.word echo :: .word (Expansion.word s [.bare ('$' :: '(' :: (c ++ [')']))]) :: l) := by
  have lexemes := Lexeme.reads_enclosed enclosed (' ' :: r) (Lexeme.apart_space r)
  have split : '$' :: '(' :: (c ++ [')']) ++ ' ' :: r = '$' :: '(' :: (c ++ ')' :: ' ' :: r) := by simp
  rw [split,Lexeme.read_space] at lexemes
  rw [ofText_echo,lexemes]
  rw [ofText,Lexeme.ofLine] at line
  cases rest : Lexeme.read 0 r with
  | error e =>
    rw [rest] at line
    cases line
  | ok m =>
    rw [rest] at line
    cases line
    rfl

/-- **The extent of a substitution.** `echo $(c)` and a line after it are the word `echo`, a word that is the
    substitution of `c` and nothing else, and the tokens of the line, exactly when `c` is enclosed. -/
theorem ofText_substitution_iff (s : Surroundings) (c r : Text) {l : List Token} (line : ofText s r = .ok l) :
    (∃ w, ofText s (txt "echo $(" ++ c ++ txt ") " ++ r) = .ok (.word echo :: .word w :: l) ∧
      w.spans = [(0,Text.width w.text)] ∧ Substitution.command w.text = c) ↔ Substitution.Enclosed c := by
  have whole : txt "echo $(" ++ c ++ txt ") " ++ r = txt "echo $(" ++ (c ++ ')' :: ' ' :: r) := by
    simp [txt]
  rw [whole]
  constructor
  · rintro ⟨w,tokens,covers,command⟩
    rw [text_of_ofText_echo tokens covers] at command
    exact (Substitution.command_opened_iff c (' ' :: r)).mp command
  · intro enclosed
    obtain ⟨quoted,written⟩ := Expansion.word_enclosed s enclosed
    rw [Word.ofAtoms_eq,List.flatMap_singleton,Atom.text,Atom.spansFrom,Atom.spansFrom,Nat.zero_add] at written
    refine ⟨_,ofText_enclosed enclosed line,?_,?_⟩
    · rw [written]
    · rw [written,← enclosed.opened [],enclosed.command_opened]

/-- Surroundings without any value. -/
def nowhere : Surroundings := ⟨0,fun _ => none,fun _ => none⟩

/-- A parenthesis in single quotes is passed over. -/
theorem ofText_substitution_quoted :
    let c := txt "echo \x27a)\x27 $HOME"
    let r := txt "| wc"
    (∃ w, ofText nowhere (txt "echo $(" ++ c ++ txt ") " ++ r) =
        .ok (.word echo :: .word w :: [.pipe,.word ⟨txt "wc",[],false⟩]) ∧
      w.spans = [(0,Text.width w.text)] ∧ Substitution.command w.text = c) ∧ Substitution.Enclosed c := by
  intro c r
  have enclosed : Substitution.Enclosed c := by decide
  exact ⟨(ofText_substitution_iff nowhere c r (by rfl)).mpr enclosed,enclosed⟩

/-- An apostrophe in double quotes opens single-quoted text for the substitution, which then takes the rest of the
    line, although the command and the rest are read without an error and there is no parenthesis in them. -/
theorem ofText_substitution_apostrophe :
    let c := txt "echo \x22it\x27s\x22"
    let r := txt "b"
    let rest := [Token.word ⟨r,[],false⟩]
    ofText nowhere c = .ok [.word echo,.word ⟨txt "it\x27s",[],true⟩] ∧ '(' ∉ c ∧ ')' ∉ c ∧
      ofText nowhere r = .ok rest ∧
      ¬ ∃ w, ofText nowhere (txt "echo $(" ++ c ++ txt ") " ++ r) = .ok (.word echo :: .word w :: rest) ∧
        w.spans = [(0,Text.width w.text)] ∧ Substitution.command w.text = c := by
  intro c r rest
  have swallowed : ofText nowhere (txt "echo $(" ++ c ++ txt ") " ++ r) =
      .ok [.word echo,.word (.ofAtoms [.command (txt "$(" ++ c ++ txt ") " ++ r)] false)] := by rfl
  refine ⟨by rfl,by decide,by decide,by rfl,?_⟩
  rintro ⟨w,tokens,_⟩
  rw [swallowed] at tokens
  have short := congrArg List.length (Except.ok.inj tokens)
  simp [rest] at short

end Token
end JobShell

import JobShell.Proofs.Syntax.Joining
import Mathlib.Data.List.Induction

/-!
# Quotes that are open

A line is refused for a quote that is never closed when its reader comes to that
quote. What stands before the quote is read in the same way whatever stands after
it (`Lexeme.exists_awaits`). So the quote stays open when text without it is
added, and the next one closes it, unless a backslash takes that one along.
-/
namespace JobShell
namespace Lexeme

/-! ### Text after an opening quote -/

/-- Text after an opening quote that does not close it. -/
def Endless (q : Char) (body : Text) : Prop :=
  q = singleQuote ∧ singleQuote ∉ body ∨ q = doubleQuote ∧ doubleLength? false body = none

/-- The text ends in a backslash that takes the next character along: in an odd number of backslashes. -/
def EndsEscaping (t : Text) : Prop := (t.reverse.takeWhile (· = backslash)).length % 2 = 1

theorem singleLength?_eq_none_iff {t : Text} : singleLength? t = none ↔ singleQuote ∉ t := by
  induction t with
  | nil => simp [singleLength?]
  | cons c r ih =>
    rw [singleLength?]
    split_ifs with quote
    · simp [quote]
    · simp [ih,Ne.symm quote]

/-- Whether the character after a text is escaped, when the first one is or is not. -/
def escapes (escaped : Bool) : Text → Bool
  | [] => escaped
  | c :: r => escapes (!escaped && c = backslash) r

theorem escapes_concat (escaped : Bool) (t : Text) (c : Char) :
    escapes escaped (t ++ [c]) = (!escapes escaped t && c = backslash) := by
  induction t generalizing escaped with
  | nil => rfl
  | cons d r ih => exact ih _

theorem escapes_iff (t : Text) : escapes false t = true ↔ EndsEscaping t := by
  rw [EndsEscaping]
  induction t using List.reverseRecOn with
  | nil => simp [escapes]
  | append_singleton t c ih =>
    rw [escapes_concat,List.reverse_append,List.reverse_singleton,List.singleton_append,List.takeWhile_cons]
    by_cases slash : c = backslash
    · rw [decide_eq_true slash,if_pos rfl,List.length_cons,Bool.and_true,Bool.not_eq_true',← Bool.not_eq_true,ih]
      omega
    · simp [slash]

/-- Double quotes that a text does not close are closed by what comes after it. -/
theorem doubleLength?_append {escaped : Bool} {t : Text} (endless : doubleLength? escaped t = none) (x : Text) :
    doubleLength? escaped (t ++ x) = (doubleLength? (escapes escaped t) x).map (· + t.length) := by
  induction t generalizing escaped with
  | nil => simp [escapes]
  | cons c r ih =>
    rw [doubleLength?] at endless
    rw [List.cons_append,doubleLength?,escapes]
    split_ifs at endless with taken quote
    · rw [if_pos taken,ih (Option.map_eq_none_iff.mp endless),taken]
      simp [Function.comp_def,Nat.add_assoc]
    · have plain : escaped = false := Bool.eq_false_iff.mpr taken
      subst plain
      rw [if_neg taken,if_neg quote,ih (Option.map_eq_none_iff.mp endless)]
      simp [Function.comp_def,Nat.add_assoc]

theorem doubleLength?_of_notMem {t : Text} (free : doubleQuote ∉ t) (escaped : Bool) : doubleLength? escaped t = none := by
  induction t generalizing escaped with
  | nil => rfl
  | cons c r ih =>
    have other : c ≠ doubleQuote := fun same => free (by simp [same])
    have rest := fun escaped => ih (fun mem => free (List.mem_cons_of_mem _ mem)) escaped
    rw [doubleLength?,rest,rest,if_neg other]
    split_ifs <;> rfl

/-- Text without the quote closes nothing. -/
theorem Endless.append {q : Char} {body s : Text} (endless : Endless q body) (free : q ∉ s) : Endless q (body ++ s) := by
  rcases endless with ⟨rfl,none⟩ | ⟨rfl,none⟩
  · exact .inl ⟨rfl,fun mem => (List.mem_append.mp mem).elim none free⟩
  · exact .inr ⟨rfl,by rw [doubleLength?_append none,doubleLength?_of_notMem free]; rfl⟩

/-- A beginning of text that does not close a quote does not close it either. -/
theorem Endless.of_prefix {q : Char} {body t : Text} (endless : Endless q body) (begins : t <+: body) : Endless q t := by
  obtain ⟨x,rfl⟩ := begins
  rcases endless with ⟨rfl,none⟩ | ⟨rfl,none⟩
  · exact .inl ⟨rfl,fun mem => none (List.mem_append_left x mem)⟩
  · refine .inr ⟨rfl,?_⟩
    cases found : doubleLength? false t with
    | none => rfl
    | some n =>
      obtain ⟨a,b,rfl,ends⟩ := exists_double found
      rw [List.append_assoc,List.cons_append,ends] at none
      cases none

/-! ### Words -/

/-- A quote that is never closed is the reason why a word is refused. -/
theorem segments_endless {q : Char} {body : Text} (endless : Endless q body) :
    segments 0 (q :: body) = .error (.unclosedQuote q) := by
  have differs : doubleQuote ≠ singleQuote := by decide
  rcases endless with ⟨rfl,none⟩ | ⟨rfl,none⟩
  · rw [segments]
    simp only [if_true,singleLength?_eq_none_iff.mpr none]
  · rw [segments]
    simp only [differs,if_false,if_true,none]

/-- A quote is closed by the next one at the end of the text, unless a backslash takes that one along. -/
theorem segments_closed {q : Char} {body : Text} (endless : Endless q body)
    (closes : ¬(q = doubleQuote ∧ EndsEscaping body)) :
    ∃ g, Segment.source g = q :: (body ++ [q]) ∧ segments 0 (q :: (body ++ [q])) = .ok [g] := by
  rcases endless with ⟨rfl,none⟩ | ⟨rfl,none⟩
  · have alone := segments_single none []
    rw [List.append_nil] at alone
    exact ⟨.single body,rfl,alone⟩
  · have plain : escapes false body = false := by
      rw [← Bool.not_eq_true,escapes_iff]
      exact fun escaping => closes ⟨rfl,escaping⟩
    have ends : doubleLength? false (body ++ doubleQuote :: []) = some body.length := by
      rw [doubleLength?_append none,plain]
      simp [doubleLength?]
    have alone := segments_double ends
    rw [List.append_nil] at alone
    exact ⟨.double body,rfl,alone⟩

/-- An escaped quote closes nothing. -/
theorem Endless.escaped {body : Text} (endless : Endless doubleQuote body) (escaping : EndsEscaping body) :
    Endless doubleQuote (body ++ [doubleQuote]) := by
  have differs : doubleQuote ≠ singleQuote := by decide
  obtain ⟨-,none⟩ := endless.resolve_left fun single => differs single.1
  refine .inr ⟨rfl,?_⟩
  rw [doubleLength?_append none,(escapes_iff body).mpr escaping]
  rfl

theorem Endless.isQuote {q : Char} {body : Text} (endless : Endless q body) : q = singleQuote ∨ q = doubleQuote :=
  endless.imp And.left And.left

/-- No segment without quotes goes on at a quote. -/
theorem Endless.stops {q : Char} {body : Text} (endless : Endless q body) (x : Text) : Stops (q :: x) := by
  rintro c ⟨⟩
  rcases endless.isQuote with rfl | rfl <;> decide

/-- The segments at the beginning of a text. They are read in front of whatever no segment goes on with, if none goes
    on with what follows them here. -/
structure Leading (u : Text) (segs : List Segment) (rest : Text) : Prop where
  whole : u = wordSource segs ++ rest
  before : ∀ y, (Stops rest → Stops y) → segments 0 (wordSource segs ++ y) = (segments 0 y).map (segs ++ ·)

theorem leading_nil (u : Text) : Leading u [] u where
  whole := rfl
  before y _ := by
    rw [wordSource,List.flatMap_nil,List.nil_append]
    cases segments 0 y <;> rfl

/-- A segment in front, when it is one as well where something else follows that it does not go on with. -/
theorem Leading.cons {u rest : Text} {segs : List Segment} (leading : Leading u segs rest) {g : Segment}
    (first : ∀ y, (Stops u → Stops y) → segments 0 (g.source ++ y) = (segments 0 y).map (g :: ·)) :
    Leading (g.source ++ u) (g :: segs) rest where
  whole := by rw [leading.whole,wordSource_cons,List.append_assoc]
  before y same := by
    have same' : Stops u → Stops (wordSource segs ++ y) := by
      rw [leading.whole]
      cases wordSource segs with
      | nil => exact same
      | cons c r => exact id
    rw [wordSource_cons,List.append_assoc,first _ same',leading.before y same]
    cases segments 0 y <;> rfl

/-- Why segments end: a character that ends every word, an open quote, or something else that is left open. -/
inductive Ending : Text → Prop where
  | breaks {rest : Text} (ends : ∀ c ∈ rest.head?, isWordBreak c = true) : Ending rest
  | quote {q : Char} {body : Text} (endless : Endless q body) : Ending (q :: body)
  | leftOpen {rest : Text} (leftOpen : LeftOpen rest) : Ending rest

theorem Leading.alone {u rest : Text} {segs : List Segment} (leading : Leading u segs rest) :
    segments 0 u = (segments 0 rest).map (segs ++ ·) := by
  rw [leading.whole,leading.before rest id]

/-- Where every word ends, the segments are the word. -/
theorem Leading.ends {u rest y : Text} {segs : List Segment} (leading : Leading u segs rest)
    (breaks : ∀ c ∈ y.head?, isWordBreak c = true) : segments 0 (wordSource segs ++ y) = .ok segs := by
  have stops : Stops y := fun c mem => by simp [Lexeme.isBareStart,breaks c mem]
  rw [leading.before y fun _ => stops,segments_of_break breaks]
  simp [Except.map]

theorem exists_leading (u : Text) : ∃ segs rest, Leading u segs rest ∧ Ending rest := by
  -- A segment takes several characters, so the induction is on the length.
  induction size : u.length using Nat.strongRecOn generalizing u with
  | _ n ih =>
    subst size
    have goOn : ∀ {g : Segment} {rest : Text}, u = g.source ++ rest → g.source ≠ [] →
        (∀ y, (Stops rest → Stops y) → segments 0 (g.source ++ y) = (segments 0 y).map (g :: ·)) →
        ∃ segs rest, Leading u segs rest ∧ Ending rest := by
      intro g rest whole nonempty first
      subst whole
      obtain ⟨segs,rest',leading,ending⟩ := ih _ (Text.length_lt_of_append rfl nonempty) rest rfl
      exact ⟨g :: segs,rest',leading.cons first,ending⟩
    cases u with
    | nil => exact ⟨[],[],leading_nil [],.breaks (by simp)⟩
    | cons c r =>
      by_cases single : c = singleQuote
      · subst single
        cases found : singleLength? r with
        | none => exact ⟨[],_,leading_nil _,.quote (.inl ⟨rfl,singleLength?_eq_none_iff.mp found⟩)⟩
        | some n =>
          obtain ⟨q,rest,rfl,free⟩ := exists_single found
          have whole : singleQuote :: (q ++ singleQuote :: rest) = (Segment.single q).source ++ rest := by
            simp [Segment.source]
          exact goOn whole (by simp [Segment.source]) fun y _ => segments_single free y
      by_cases double : c = doubleQuote
      · subst double
        cases found : doubleLength? false r with
        | none => exact ⟨[],_,leading_nil _,.quote (.inr ⟨rfl,found⟩)⟩
        | some n =>
          obtain ⟨q,rest,rfl,ends⟩ := exists_double found
          have whole : doubleQuote :: (q ++ doubleQuote :: rest) = (Segment.double q).source ++ rest := by
            simp [Segment.source]
          exact goOn whole (by simp [Segment.source]) fun y _ => segments_double (ends y)
      by_cases breaks : isWordBreak c = true
      · exact ⟨[],_,leading_nil _,.breaks (by simpa using breaks)⟩
      have starts : isBareStart c = true := by simp [isBareStart,single,double,breaks]
      obtain ⟨t,rest,whole,complete,ends⟩ := exists_complete (c :: r)
      rcases ends with stops | unclosed
      · have nonempty : t ≠ [] := by
          rintro rfl
          rw [List.nil_append] at whole
          subst whole
          exact absurd (stops c rfl) (by simp [starts])
        exact goOn (g := .bare t) whole nonempty fun y same => segments_complete complete nonempty (same stops)
      · exact ⟨[],_,leading_nil _,.leftOpen ⟨t,rest,whole,complete,unclosed⟩⟩

/-! ### Lines -/

/-- A text that begins as another one does, or is empty. -/
def Follows (y rest : Text) : Prop := ∀ c ∈ y.head?, rest.head? = some c

theorem follows_cons (c : Char) (x y : Text) : Follows (c :: x) (c :: y) := fun _ mem => mem

theorem Follows.append {y rest : Text} (follows : Follows y rest) (a : Text) : Follows (a ++ y) (a ++ rest) := by
  cases a with
  | nil => exact follows
  | cons c r => exact fun d mem => mem

theorem Follows.beginsWord {y rest a : Text} (follows : Follows y rest) (nonempty : a ≠ [])
    (begins : beginsWord (a ++ rest) = true) : Lexeme.beginsWord (a ++ y) = true := by
  obtain ⟨c,r,rfl⟩ := List.exists_cons_of_ne_nil nonempty
  simp only [List.cons_append,Lexeme.beginsWord,Bool.not_eq_true',Bool.or_eq_false_iff,Bool.and_eq_false_iff,
    decide_eq_false_iff_not] at begins ⊢
  exact ⟨begins.1,begins.2.imp_right fun noArrow arrow => noArrow (follows.append r _ arrow)⟩

theorem read_of_refused {u : Text} {e : SyntaxError} (begins : beginsWord u = true) (word : segments 0 u = .error e) :
    read 0 u = .error e := by
  cases u with
  | nil => cases begins
  | cons c r => rw [read_of_beginsWord begins,word]

/-- A line that is one word. -/
theorem read_of_whole {u : Text} {segs : List Segment} (begins : beginsWord u = true) (word : segments 0 u = .ok segs)
    (whole : wordSource segs = u) : read 0 u = .ok [.word segs] := by
  have nonempty : u ≠ [] := by
    rintro rfl
    cases begins
  rw [← List.append_nil u] at begins word ⊢
  exact read_word begins nonempty word whole

/-- A line in which a quote is open: lexemes, the segments of the last word before the quote, and the text after the
    quote. The lexemes are read in front of whatever begins as the rest does. -/
structure Awaits (u lead : Text) (segs : List Segment) (q : Char) (body : Text) : Prop where
  begins : beginsWord (wordSource segs ++ q :: body) = true
  word : Leading (wordSource segs ++ q :: body) segs (q :: body)
  endless : Endless q body
  before : ∃ l, ∀ y, Follows y (wordSource segs ++ q :: body) → read 0 (lead ++ y) = (read 0 y).map (l ++ ·)
  whole : u = lead ++ (wordSource segs ++ q :: body)

theorem Awaits.append {u lead body : Text} {segs : List Segment} {q : Char} (awaits : Awaits u lead segs q body)
    {a : Text} {l : List Lexeme} (first : ∀ y, Follows y u → read 0 (a ++ y) = (read 0 y).map (l ++ ·)) :
    Awaits (a ++ u) (a ++ lead) segs q body where
  begins := awaits.begins
  word := awaits.word
  endless := awaits.endless
  before := by
    obtain ⟨m,before⟩ := awaits.before
    refine ⟨l ++ m,fun y follows => ?_⟩
    have same : Follows (lead ++ y) u := awaits.whole ▸ follows.append lead
    rw [List.append_assoc,first _ same,before y follows]
    cases read 0 y <;> simp [Except.map]
  whole := by rw [awaits.whole,List.append_assoc]

/-- A line that is refused for a quote has that quote open. -/
theorem exists_awaits {u : Text} {q : Char} (refused : read 0 u = .error (.unclosedQuote q)) :
    ∃ lead segs body, Awaits u lead segs q body := by
  -- A lexeme takes several characters, so the induction is on the length.
  induction size : u.length using Nat.strongRecOn generalizing u with
  | _ n ih =>
    subst size
    have goOn : ∀ {a rest : Text} {l : List Lexeme}, u = a ++ rest → a ≠ [] →
        (∀ y, Follows y rest → read 0 (a ++ y) = (read 0 y).map (l ++ ·)) →
        ∃ lead segs body, Awaits u lead segs q body := by
      intro a rest l whole nonempty first
      subst whole
      rw [first rest fun c mem => mem] at refused
      have later : read 0 rest = .error (.unclosedQuote q) := by
        cases more : read 0 rest with
        | ok l => rw [more] at refused; cases refused
        | error e => rw [more] at refused; cases refused; rfl
      obtain ⟨lead,segs,body,awaits⟩ := ih _ (Text.length_lt_of_append rfl nonempty) later rfl
      exact ⟨a ++ lead,segs,body,awaits.append first⟩
    cases u with
    | nil => cases refused
    | cons c r =>
      cases begins : beginsWord (c :: r) with
      | false =>
        obtain ⟨op,rest,l,whole,nonempty,before⟩ := exists_operator begins (by simp [refused])
        exact goOn whole nonempty fun y follows => before y fun d _ => follows d
      | true =>
        obtain ⟨segs,rest,leading,ending⟩ := exists_leading (c :: r)
        have whole := leading.whole
        cases ending with
        | breaks ends =>
          have nonempty := wordSource_ne_nil begins (whole ▸ leading.ends ends)
          rw [whole] at begins
          refine goOn (l := [.word segs]) whole nonempty fun y follows => ?_
          have word := leading.ends fun d mem => ends d (follows d mem)
          exact read_word (follows.beginsWord nonempty begins) nonempty word rfl
        | @quote q' body endless =>
          have same : q' = q := by
            rw [read_of_beginsWord begins,leading.alone,segments_endless endless] at refused
            cases refused
            rfl
          subst same
          refine ⟨[],segs,body,whole ▸ begins,whole ▸ leading,endless,⟨[],fun y _ => ?_⟩,whole⟩
          rw [List.nil_append]
          cases read 0 y <;> rfl
        | leftOpen opened =>
          -- Such a word goes on to the end of the line, which is then read as a whole.
          have word : segments 0 (c :: r) = .ok (segs ++ [.bare rest]) := by
            rw [leading.alone,segments_leftOpen opened]
            rfl
          have source : wordSource (segs ++ [.bare rest]) = c :: r := by
            rw [whole,wordSource,wordSource,List.flatMap_append,List.flatMap_singleton,Segment.source]
          rw [read_of_whole begins word source] at refused
          cases refused

namespace Awaits
variable {u lead body : Text} {segs : List Segment} {q : Char} (awaits : Awaits u lead segs q body)
include awaits

theorem beginsWord (x : Text) : Lexeme.beginsWord (wordSource segs ++ q :: x) = true := by
  by_cases first : wordSource segs = []
  · rw [first,List.nil_append]
    rcases awaits.endless.isQuote with rfl | rfl <;> rfl
  · exact (follows_cons q x body).beginsWord first awaits.begins

theorem segments_eq (x : Text) : segments 0 (wordSource segs ++ q :: x) = (segments 0 (q :: x)).map (segs ++ ·) :=
  awaits.word.before (q :: x) fun _ => awaits.endless.stops x

/-- The quote stays open in front of what does not close it. -/
theorem opened {x : Text} (endless : Endless q x) :
    read 0 (lead ++ (wordSource segs ++ q :: x)) = .error (.unclosedQuote q) := by
  obtain ⟨l,before⟩ := awaits.before
  have word : segments 0 (wordSource segs ++ q :: x) = .error (.unclosedQuote q) := by
    rw [awaits.segments_eq,segments_endless endless]
    rfl
  rw [before _ ((follows_cons q x body).append _),read_of_refused (awaits.beginsWord x) word]
  rfl

/-- The quote is closed by the next one, unless a backslash takes that one along. -/
theorem closed {x : Text} (endless : Endless q x) (closes : ¬(q = doubleQuote ∧ EndsEscaping x)) :
    ∃ l, read 0 (lead ++ (wordSource segs ++ q :: (x ++ [q]))) = .ok l := by
  obtain ⟨l,before⟩ := awaits.before
  obtain ⟨g,source,last⟩ := segments_closed endless closes
  have word : segments 0 (wordSource segs ++ q :: (x ++ [q])) = .ok (segs ++ [g]) := by
    rw [awaits.segments_eq,last]
    rfl
  have whole : wordSource (segs ++ [g]) = wordSource segs ++ q :: (x ++ [q]) := by
    rw [wordSource,wordSource,List.flatMap_append,List.flatMap_singleton,source]
  exact ⟨_,by rw [before _ ((follows_cons q _ body).append _),read_of_whole (awaits.beginsWord _) word whole]; rfl⟩

/-- The line can be read up to the quote. -/
theorem front : ∃ l, read 0 (lead ++ wordSource segs) = .ok l := by
  obtain ⟨l,before⟩ := awaits.before
  have follows : Follows [] (q :: body) := fun _ mem => by cases mem
  have follows' := follows.append (wordSource segs)
  rw [List.append_nil] at follows'
  by_cases first : wordSource segs = []
  · rw [first] at follows' before ⊢
    exact ⟨_,by rw [before [] follows']; rfl⟩
  · have begins := follows.beginsWord first awaits.begins
    have word := awaits.word.ends (y := []) (by simp)
    rw [List.append_nil] at begins word
    exact ⟨_,by rw [before _ follows',read_of_whole begins word rfl]; rfl⟩

end Awaits

/-- A quote that is open in a line: what stands before it can be read, and no text that ends after it can. -/
structure OpensAt (line front : Text) (q : Char) (body : Text) : Prop where
  whole : line = front ++ q :: body
  reads : ∃ l, ofLine front = .ok l
  opened : ∀ t, t <+: body → ofLine (front ++ q :: t) = .error (.unclosedQuote q)

/-- What a quote that is open in a line goes on with: it stays open in front of what does not close it, and the next one
    closes it, unless a backslash takes that one along. -/
structure GoesOn (front : Text) (q : Char) : Prop where
  opened : ∀ x, Endless q x → ofLine (front ++ q :: x) = .error (.unclosedQuote q)
  closed : ∀ x, Endless q x → ¬(q = doubleQuote ∧ EndsEscaping x) → ∃ l, ofLine (front ++ q :: (x ++ [q])) = .ok l

theorem exists_opensAt {line : Text} {q : Char} (refused : ofLine line = .error (.unclosedQuote q)) :
    ∃ front body, OpensAt line front q body ∧ Endless q body ∧ GoesOn front q := by
  obtain ⟨lead,segs,body,awaits⟩ := exists_awaits refused
  have goesOn : GoesOn (lead ++ wordSource segs) q :=
    ⟨fun x endless => by rw [ofLine,List.append_assoc,awaits.opened endless],
      fun x endless closes => by rw [ofLine,List.append_assoc]; exact awaits.closed endless closes⟩
  refine ⟨lead ++ wordSource segs,body,⟨?_,awaits.front,fun t begins => ?_⟩,awaits.endless,goesOn⟩
  · rw [awaits.whole,List.append_assoc]
  · exact goesOn.opened t (awaits.endless.of_prefix begins)

theorem isQuote_of_open {line : Text} {q : Char} (refused : ofLine line = .error (.unclosedQuote q)) :
    q = singleQuote ∨ q = doubleQuote := by
  obtain ⟨_,_,_,endless,_⟩ := exists_opensAt refused
  exact endless.isQuote

/-- An open quote stays open when text without it is added. -/
theorem open_append {line t : Text} {q : Char} (refused : ofLine line = .error (.unclosedQuote q)) (free : q ∉ t) :
    ofLine (line ++ t) = .error (.unclosedQuote q) := by
  obtain ⟨front,body,opens,endless,goesOn⟩ := exists_opensAt refused
  rw [opens.whole,List.append_assoc,List.cons_append,goesOn.opened _ (endless.append free)]

/-- What becomes of an open quote at the next one. -/
theorem exists_closing {line : Text} {q : Char} (refused : ofLine line = .error (.unclosedQuote q)) :
    ∃ front body, OpensAt line front q body ∧
      (q = doubleQuote ∧ EndsEscaping body → ofLine (line ++ [q]) = .error (.unclosedQuote q)) ∧
      (¬(q = doubleQuote ∧ EndsEscaping body) → ∃ l, ofLine (line ++ [q]) = .ok l) := by
  obtain ⟨front,body,opens,endless,goesOn⟩ := exists_opensAt refused
  refine ⟨front,body,opens,?_,fun closes => ?_⟩
  · rintro ⟨rfl,escaping⟩
    rw [opens.whole,List.append_assoc,List.cons_append,goesOn.opened _ (endless.escaped escaping)]
  · rw [opens.whole,List.append_assoc,List.cons_append]
    exact goesOn.closed body endless closes

end Lexeme
end JobShell

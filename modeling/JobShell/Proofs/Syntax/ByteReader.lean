import JobShell.Proofs.Syntax.Aliases
import JobShell.Proofs.Syntax.ByteSegments

/-!
# Reading by byte positions

A command line is read from byte position to byte position: the byte at a
position tells what begins there, and what is read tells the next position. No
byte is looked for where the line has none, no cut is inside a character, and
every loop ends, for every line whose opening parentheses can be counted. What is
read is what the characters tell (`Pipeline.parse?_eq`).
-/
namespace JobShell

/-! ### Words -/

namespace Lexeme

/-- A word goes on after a quote, or is refused with it. -/
def goOn : Except SyntaxError (Nat × Draft) → (Nat × Draft) ⊕ Except SyntaxError (Nat × Draft)
  | .ok next => .inl next
  | .error e => .inr (.error e)

/-- The segment at a position is added to the word before it. -/
noncomputable def wordRound (s : Surroundings) (t : Text) :
    Nat × Draft → Option ((Nat × Draft) ⊕ Except SyntaxError (Nat × Draft))
  | (pos,d) =>
    match (Text.octets t)[pos]? with
    | none => some (.inr (.ok (pos,d)))
    | some b =>
      if b = singleQuote then (single? t pos d).map goOn
      else if b = doubleQuote then (double? s t pos d).map goOn
      else if isWordBreak b then some (.inr (.ok (pos,d)))
      else (bare? s t pos d).map .inl

/-- The word that goes on at `pos`, and the position behind it. -/
noncomputable def word? (s : Surroundings) (t : Text) (pos : Nat) (d : Draft) : Option (Except SyntaxError (Nat × Draft)) :=
  loop? (wordRound s t) (pos,d)

theorem wordRound_octet {s : Surroundings} {t : Text} {pos : Nat} {x : Char} (octet : (Text.octets t)[pos]? = some x)
    (d : Draft) :
    wordRound s t (pos,d) =
      if x = singleQuote then (single? t pos d).map goOn
      else if x = doubleQuote then (double? s t pos d).map goOn
      else if isWordBreak x then some (.inr (.ok (pos,d)))
      else (bare? s t pos d).map .inl := by
  rw [wordRound,octet]

/-- What is at the end of a segment tells whether the word ends there. -/
theorem ends_iff (r : Text) : (Text.octets r)[0]?.all isWordBreak = true ↔ ∀ c ∈ r.head?, isWordBreak c = true := by
  cases r with
  | nil => simp [Text.octets,Utf8.encode]
  | cons c r =>
    obtain ⟨x,octet,rfl | ⟨high,high'⟩⟩ := Text.exists_octet c r
    · rw [octet]
      simp
    · rw [octet]
      refine iff_of_false (fun breaks => high' (low_of_isWordBreak breaks)) fun breaks => ?_
      exact high (low_of_isWordBreak (breaks c rfl))

/-- A word ends with a segment exactly when no segment goes on after it. -/
theorem ends_eq {r : Text} {l : List Segment} (word : segments 0 r = .ok l) :
    (Text.octets r)[0]?.all isWordBreak = l.isEmpty := by
  rw [Bool.eq_iff_iff,ends_iff,List.isEmpty_iff]
  constructor
  · intro breaks
    rw [segments_of_break breaks] at word
    cases word
    rfl
  · rintro rfl
    obtain ⟨-,breaks⟩ | ⟨g,rest,more,-,none,-⟩ := exists_leads word
    · exact breaks
    · cases none

theorem exists_bareLength (u : Text) : ∃ t rest, u = t ++ rest ∧ bareLength 0 u = t.length ∧ Stops rest := by
  obtain ⟨t,rest,rfl,complete,stops | unclosed⟩ := exists_complete u
  · refine ⟨t,rest,rfl,?_,stops⟩
    rw [complete.bareLength_append stops.head?_ne,bareLength_of_stops stops,Nat.add_zero]
  · refine ⟨t ++ rest,[],by simp,?_,by simp [Stops]⟩
    rw [complete.bareLength_append unclosed.head?_ne,unclosed.bareLength_eq,List.length_append]

/-- The word with what segments stand for, and the position behind them. -/
def added (s : Surroundings) (a : Text) (d : Draft) (first : Bool) (l : List Segment) : Nat × Draft :=
  (Text.width (a ++ wordSource l),d.extend (Expansion.segments s first l) (l.any Expansion.isQuoting))

/-- A round takes the segment `g`, which stands for `x`, and leaves the text `u`. -/
structure Takes (s : Surroundings) (a b : Text) (d : Draft) (first : Bool) (g : Segment) (u : Text) (x : List Atom) :
    Prop where
  whole : b = g.source ++ u
  nonempty : g.source ≠ []
  later : segments 0 b = (segments 0 u).map (g :: ·)
  stands : ∀ l, segments 0 u = .ok l → Expansion.segments s first (g :: l) = x ++ Expansion.segments s false l
  ends : Stops u ∨ Expansion.isQuoting g = true
  round : wordRound s (a ++ b) (Text.width a,d) =
    some (.inl (Text.width (a ++ g.source),d.extend x (Expansion.isQuoting g)))

/-- A round ends the word, refuses it or takes its next segment. -/
def Turns (s : Surroundings) (a b : Text) (d : Draft) (first : Bool) : Prop :=
  (segments 0 b = .ok [] ∧ wordRound s (a ++ b) (Text.width a,d) = some (.inr (.ok (Text.width a,d)))) ∨
  (∃ e, segments 0 b = .error e ∧ wordRound s (a ++ b) (Text.width a,d) = some (.inr (.error e))) ∨
  ∃ g u x, Takes s a b d first g u x

section Rounds

variable (s : Surroundings) (a r : Text) (d : Draft) (first : Bool)

theorem turns_single (sized : d.Sized) : Turns s a (singleQuote :: r) d first := by
  have round := wordRound_octet (s := s) (Text.octet_low (show Text.Low singleQuote by decide) a r) d
  rw [if_pos rfl] at round
  cases found : singleLength? r with
  | none =>
    have free := singleLength?_eq_none_iff.mp found
    refine .inr (.inl ⟨_,segments_endless (.inl ⟨rfl,free⟩),?_⟩)
    rw [round,single?_open a free d]
    rfl
  | some n =>
    obtain ⟨q,u,rfl,free⟩ := exists_single found
    have whole : singleQuote :: (q ++ singleQuote :: u) = Segment.source (.single q) ++ u := by simp [Segment.source]
    refine .inr (.inr ⟨.single q,u,q.map .char,whole,by simp [Segment.source],whole ▸ segments_single free u,
      fun _ _ => rfl,.inr rfl,?_⟩)
    rw [round,single?_closed a free u sized]
    rfl

theorem turns_double (sized : d.Sized) (fits : Substitution.Fits r) : Turns s a (doubleQuote :: r) d first := by
  have round := wordRound_octet (s := s) (Text.octet_low (show Text.Low doubleQuote by decide) a r) d
  rw [if_neg (by decide),if_pos rfl] at round
  cases found : doubleLength? false r with
  | none =>
    refine .inr (.inl ⟨_,segments_endless (.inr ⟨rfl,found⟩),?_⟩)
    rw [round,double?_open s a found d]
    rfl
  | some n =>
    obtain ⟨q,u,rfl,ends⟩ := exists_double found
    have whole : doubleQuote :: (q ++ doubleQuote :: u) = Segment.source (.double q) ++ u := by simp [Segment.source]
    refine .inr (.inr ⟨.double q,u,Expansion.body s true 0 q,whole,by simp [Segment.source],
      whole ▸ segments_double (ends u),fun _ _ => rfl,.inr rfl,?_⟩)
    rw [round,double?_closed s a (fits.sublist (List.sublist_append_left q _)) (ends u) sized]
    rfl

theorem turns_break {c : Char} (breaks : isWordBreak c = true) : Turns s a (c :: r) d first := by
  have low := low_of_isWordBreak breaks
  have single : c ≠ singleQuote := fun e => absurd (e ▸ breaks) (by decide)
  have double : c ≠ doubleQuote := fun e => absurd (e ▸ breaks) (by decide)
  refine .inl ⟨segments_of_break (by simpa using breaks),?_⟩
  rw [wordRound_octet (Text.octet_low low a r),if_neg single,if_neg double,if_pos breaks]

theorem wordRound_bare {c : Char} (starts : isBareStart c = true) :
    wordRound s (a ++ c :: r) (Text.width a,d) = (bare? s (a ++ c :: r) (Text.width a) d).map .inl := by
  obtain ⟨x,octet,same⟩ := Text.exists_octet c r
  have here : (Text.octets (a ++ c :: r))[Text.width a]? = some x := (Text.getElem?_octets a _ 0).trans octet
  have startsHere : isBareStart x = true := by
    rcases same with rfl | ⟨-,high⟩
    · exact starts
    · exact (isBareStart_high high).1
  simp only [isBareStart,Bool.not_eq_true',Bool.or_eq_false_iff,decide_eq_false_iff_not] at startsHere
  obtain ⟨⟨single,double⟩,breaks⟩ := startsHere
  rw [wordRound_octet here,if_neg single,if_neg double,breaks,if_neg Bool.false_ne_true]

theorem turns_bare (sized : d.Sized) {c : Char} (fits : Substitution.Fits (c :: r)) (starts : isBareStart c = true) :
    Turns s a (c :: r) d (d.reversed.isEmpty && !d.quoted) := by
  obtain ⟨t,rest,whole,length,stops⟩ := exists_bareLength (c :: r)
  have nonempty : t ≠ [] := by
    rintro rfl
    exact absurd (stops c (by rw [← List.nil_append rest,← whole]; rfl)) (by simp [starts])
  have later : segments 0 (c :: r) = (segments 0 rest).map (.bare t :: ·) := by
    rw [segments_bare starts,length,whole,List.drop_left,List.take_left]
  have word := bare?_eq s a (whole ▸ fits) (whole ▸ length) rfl sized
  rw [← whole] at word
  let last := (Text.octets rest)[0]?.all isWordBreak
  refine .inr (.inr ⟨.bare t,rest,Expansion.bareAtoms s (d.reversed.isEmpty && !d.quoted) last t,whole,nonempty,later,
    fun l more => ?_,.inl stops,?_⟩)
  · rw [Expansion.segments_cons_bare,← ends_eq more]
  · rw [wordRound_bare s a r d starts,word]
    rfl

end Rounds

theorem turns (s : Surroundings) (a : Text) {b : Text} (fits : Substitution.Fits b) {d : Draft} (sized : d.Sized) {first : Bool}
    (begins : Stops b ∨ first = (d.reversed.isEmpty && !d.quoted)) : Turns s a b d first := by
  cases b with
  | nil =>
    refine .inl ⟨by rw [segments],?_⟩
    rw [List.append_nil,wordRound,Text.octet_end]
  | cons c r =>
    by_cases single : c = singleQuote
    · subst single
      exact turns_single s a r d first sized
    by_cases double : c = doubleQuote
    · subst double
      exact turns_double s a r d first sized (fits.rest [doubleQuote] rfl)
    by_cases breaks : isWordBreak c = true
    · exact turns_break s a r d first breaks
    have starts : isBareStart c = true := by simp [isBareStart,single,double,breaks]
    obtain rfl := begins.resolve_left fun stops => absurd (stops c rfl) (by simp [starts])
    exact turns_bare s a r d sized fits starts

end Lexeme

/-! ### Tokens -/

namespace Token

/-- The token at `pos`, where no blank is, and the position behind it; none at the end of the text. -/
noncomputable def at? (s : Surroundings) (t : Text) (pos : Nat) : Option (Option (Except SyntaxError (Token × Nat))) :=
  let next := (Text.octets t)[pos+1]?
  match (Text.octets t)[pos]? with
  | none => some none
  | some b =>
    if b = '|' then
      if next = some '|' then some (some (.error (.unsupportedOperator (txt "||")))) else some (some (.ok (.pipe,pos+1)))
    else if b = '&' then
      if next = some '&' then some (some (.error (.unsupportedOperator (txt "&&"))))
      else some (some (.ok (.ampersand,pos+1)))
    else if b = ';' then some (some (.error (.unsupportedOperator (txt ";"))))
    else if b = '>' then
      if next = some '>' then some (some (.ok (.redirect .append,pos+2)))
      else if next = some '&' then some (some (.ok (.duplicate 1,pos+2)))
      else some (some (.ok (.redirect .output,pos+1)))
    else if b = '<' then some (some (.ok (.redirect .input,pos+1)))
    else if b = '2' && next = some '>' then
      if (Text.octets t)[pos+2]? = some '&' then some (some (.ok (.duplicate 2,pos+3)))
      else some (some (.ok (.redirect .error,pos+2)))
    else do
      match ← Lexeme.word? s t pos (.empty false) with
      | .error e => return some (.error e)
      | .ok (pos,d) => return some (.ok (.word d.word,pos))

/-- A token is added to those before it, or they end, or are refused. -/
def added (l : List Token) : Option (Except SyntaxError (Token × Nat)) → (Nat × List Token) ⊕ Except SyntaxError (List Token)
  | none => .inr (.ok l)
  | some (.error e) => .inr (.error e)
  | some (.ok (token,pos)) => .inl (pos,l ++ [token])

/-- Blanks are skipped, and the token behind them is added. -/
noncomputable def fromRound (s : Surroundings) (t : Text) :
    Nat × List Token → Option ((Nat × List Token) ⊕ Except SyntaxError (List Token))
  | (pos,l) => do
    let pos ← Text.passOver? isAsciiBlank t pos
    (at? s t pos).map (added l)

/-- The tokens `l` and after them those of a text from `pos` on. -/
noncomputable def from? (s : Surroundings) (t : Text) (pos : Nat) (l : List Token) :
    Option (Except SyntaxError (List Token)) :=
  loop? (fromRound s t) (pos,l)

/-- The token at a place is the first lexeme of the text there, or is refused as it is. -/
def Finds (s : Surroundings) (a b : Text) : Prop :=
  (∃ e, Lexeme.read 0 b = .error e ∧ at? s (a ++ b) (Text.width a) = some (some (.error e))) ∨
  ∃ front rest l, b = front ++ rest ∧ front ≠ [] ∧ Lexeme.read 0 b = (Lexeme.read 0 rest).map (l :: ·) ∧
    at? s (a ++ b) (Text.width a) = some (some (.ok (ofLexeme s l,Text.width (a ++ front))))

section Operators

variable (s : Surroundings) (a r : Text)

end Operators

/-- Where a word begins, it is looked for. -/
theorem at?_word (s : Surroundings) (a : Text) {c : Char} {r : Text}
    (other : c ≠ '|' ∧ c ≠ '&' ∧ c ≠ ';' ∧ c ≠ '>' ∧ c ≠ '<') (errors : ¬(c = '2' ∧ r.head? = some '>')) :
    at? s (a ++ c :: r) (Text.width a) = (Lexeme.word? s (a ++ c :: r) (Text.width a) (.empty false)).map fun
      | .error e => some (.error e)
      | .ok (pos,d) => some (.ok (.word d.word,pos)) := by
  obtain ⟨x,octet,same⟩ := Text.exists_octet c r
  have here : (Text.octets (a ++ c :: r))[Text.width a]? = some x := (Text.getElem?_octets a _ 0).trans octet
  have noOperator : x ≠ '|' ∧ x ≠ '&' ∧ x ≠ ';' ∧ x ≠ '>' ∧ x ≠ '<' ∧
      (x = '2' && (Text.octets (a ++ c :: r))[Text.width a + 1]? = some '>') = false := by
    rcases same with rfl | ⟨-,high⟩
    · obtain ⟨pipe,ampersand,semicolon,output,input⟩ := other
      refine ⟨pipe,ampersand,semicolon,output,input,?_⟩
      rw [Bool.and_eq_false_iff,decide_eq_false_iff_not,decide_eq_false_iff_not,← Decidable.not_and_iff_not_or_not]
      rintro ⟨rfl,arrow⟩
      exact errors ⟨rfl,(Text.octet_second (by decide) (by decide) a r).mp arrow⟩
    · have differs : ∀ {d : Char}, Text.Low d → x ≠ d := fun low same => high (same ▸ low)
      have noTwo : (x = '2') = False := eq_false (differs (by decide))
      exact ⟨differs (by decide),differs (by decide),differs (by decide),differs (by decide),differs (by decide),
        by simp [noTwo]⟩
  rw [at?,here]
  simp only [noOperator,Bool.false_eq_true,if_false]
  cases Lexeme.word? s (a ++ c :: r) (Text.width a) (.empty false) with
  | none => rfl
  | some found => cases found <;> rfl

theorem uniform_blank : Text.Uniform isAsciiBlank := by
  have high : ∀ {x : Char}, ¬Text.Low x → isAsciiBlank x = false := by
    intro x high
    rw [Bool.eq_false_iff]
    intro blank
    simp only [isAsciiBlank,Bool.or_eq_true,decide_eq_true_eq] at blank
    rcases blank with (((rfl | rfl) | rfl) | rfl) | rfl <;> exact high (by decide)
  exact fun x y highX highY => (high highX).trans (high highY).symm

end Token

/-! ### Command lines -/

namespace Pipeline

/-- The pipeline of a command line, found by byte positions. -/
noncomputable def parse? (s : Surroundings) (aliases : Text → Option Text) (line : Text) :
    Option (Except SyntaxError (Option Pipeline)) := do
  match ← Token.from? s line 0 [] with
  | .error e => return .error e
  | .ok l =>
    match Token.alias? aliases l with
    | none => return assemble [] [] [] l
    | some value =>
      match ← Token.from? s value 0 [] with
      | .error e => return .error e
      | .ok new => return assemble [] [] [] (new ++ l.tail)

/-- A line that opens one parenthesis after another breaks down when there are too many to be counted. -/
theorem parse?_deep (s : Surroundings) (aliases : Text → Option Text) {n : Nat} (deep : Numeral.maxInt32 < n) :
    parse? s aliases ('$' :: List.replicate n '(') = none := by
  let line := '$' :: List.replicate n '('
  have dollar : (Text.octets line)[0]? = some '$' := Text.octet_low (show Text.Low '$' by decide) [] (List.replicate n '(')
  have parens : (Text.octets line)[1]? = some '(' := by
    have second := Text.octet_second (show Text.Low '$' by decide) (show Text.Low '(' by decide) [] (List.replicate n '(')
    exact second.mpr (by rw [List.head?_replicate,if_neg (by omega)])
  have extent : Lexeme.bareEnd? line 0 = none := by
    refine loop?_breaks ?_
    have skipped : Substitution.skip? line 1 = none := Substitution.skip?_deep ['$'] deep
    rw [Lexeme.bareEndRound_octet dollar,if_neg (by decide),if_neg (by decide),if_pos (by simpa using parens),skipped]
    rfl
  have word : Lexeme.word? s line 0 (.empty false) = none := by
    refine loop?_breaks ?_
    have round := Lexeme.wordRound_bare s [] (List.replicate n '(') (.empty false) (show Lexeme.isBareStart '$' = true by decide)
    have bare : Lexeme.bare? s line 0 (.empty false) = none := by
      rw [Lexeme.bare?,extent]
      rfl
    exact round.trans (congrArg (Option.map _) bare)
  have token : Token.at? s line 0 = none := by
    have here := Token.at?_word s [] (c := '$') (r := List.replicate n '(') (by decide) (by simp)
    exact here.trans (congrArg (Option.map _) word)
  have tokens : Token.from? s line 0 [] = none := by
    refine loop?_breaks ?_
    have visible : Text.passOver? isAsciiBlank line 0 = some 0 := Text.passOver?_eq Token.uniform_blank [] line
    rw [Token.fromRound,visible]
    exact congrArg (Option.map _) token
  rw [parse?,tokens]
  rfl

end Pipeline
end JobShell

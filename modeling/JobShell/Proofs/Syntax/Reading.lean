import JobShell.Syntax.Lexeme
import Mathlib.Tactic.SplitIfs

/-!
# Reading piece by piece

The readers of lexemes go through a whole line. Here they are taken apart at the
places where one word ends and a blank follows, so that the lexemes of a line
are put together from those of its pieces.
-/
namespace JobShell

/-- What comes after a part of a text is shorter than the text. -/
theorem Text.length_lt_of_append {t a b : Text} (whole : t = a ++ b) (nonempty : a ≠ []) : b.length < t.length := by
  rw [whole,List.length_append]
  exact Nat.lt_add_of_pos_left (List.length_pos_iff.mpr nonempty)

namespace Lexeme

/-! ### Characters that are already read -/

theorem segments_eq_drop (n : Nat) (t : Text) : segments n t = segments 0 (t.drop n) := by
  induction t generalizing n with
  | nil => simp [segments]
  | cons c r ih =>
    cases n with
    | zero => rfl
    | succ k => simp only [segments,List.drop_succ_cons]; exact ih k

theorem read_eq_drop (n : Nat) (t : Text) : read n t = read 0 (t.drop n) := by
  induction t generalizing n with
  | nil => simp [read]
  | cons c r ih =>
    cases n with
    | zero => rfl
    | succ k => simp only [read,List.drop_succ_cons]; exact ih k

theorem bareLength_eq_drop {n : Nat} {t : Text} (fits : n ≤ t.length) :
    bareLength n t = n + bareLength 0 (t.drop n) := by
  induction t generalizing n with
  | nil => simp only [List.length_nil,Nat.le_zero] at fits; simp [fits]
  | cons c r ih =>
    cases n with
    | zero => simp
    | succ k =>
      simp only [List.length_cons,Nat.add_le_add_iff_right] at fits
      simp only [bareLength,List.drop_succ_cons,ih fits]
      omega

/-! ### Segments -/

theorem singleLength?_append {t : Text} (free : singleQuote ∉ t) (rest : Text) :
    singleLength? (t ++ singleQuote :: rest) = some t.length := by
  induction t with
  | nil => simp [singleLength?]
  | cons c r ih =>
    have other : c ≠ singleQuote := fun e => free (by simp [e])
    have tail := ih (fun h => free (List.mem_cons_of_mem _ h))
    simp [singleLength?,other,tail]

/-- Text between single quotes is a segment. -/
theorem segments_single {t : Text} (free : singleQuote ∉ t) (rest : Text) :
    segments 0 (Segment.source (.single t) ++ rest) = (segments 0 rest).map (.single t :: ·) := by
  have whole : Segment.source (.single t) ++ rest = singleQuote :: (t ++ singleQuote :: rest) := by
    simp [Segment.source]
  rw [whole,segments]
  simp only [if_true,singleLength?_append free rest,segments_eq_drop (t.length+1)]
  simp

/-- Text between double quotes is a segment when the second quote is the first that ends it. -/
theorem segments_double {t rest : Text} (ends : doubleLength? false (t ++ doubleQuote :: rest) = some t.length) :
    segments 0 (Segment.source (.double t) ++ rest) = (segments 0 rest).map (.double t :: ·) := by
  have whole : Segment.source (.double t) ++ rest = doubleQuote :: (t ++ doubleQuote :: rest) := by
    simp [Segment.source]
  have differs : doubleQuote ≠ singleQuote := by decide
  rw [whole,segments]
  simp only [differs,if_false,if_true,ends,segments_eq_drop (t.length+1)]
  simp

/-- Characters that a segment without quotes begins with. -/
def isBareStart (c : Char) : Bool := !(c = singleQuote || c = doubleQuote || isWordBreak c)

/-- Text up to the end of a segment without quotes is a segment. -/
theorem segments_bare {c : Char} (begins : isBareStart c = true) (r : Text) :
    segments 0 (c :: r) =
      (segments 0 ((c :: r).drop (bareLength 0 (c :: r)))).map (.bare ((c :: r).take (bareLength 0 (c :: r))) :: ·) := by
  simp only [isBareStart,Bool.not_eq_true',Bool.or_eq_false_iff,decide_eq_false_iff_not] at begins
  obtain ⟨⟨notSingle,notDouble⟩,notBreak⟩ := begins
  have positive : 0 < bareLength 0 (c :: r) := by
    rw [bareLength]
    simp only [notSingle,notDouble,notBreak,decide_false,Bool.or_self,Bool.false_eq_true,if_false]
    split_ifs <;> omega
  rw [segments]
  simp only [notSingle,notDouble,notBreak,Bool.false_eq_true,if_false,segments_eq_drop (bareLength 0 (c :: r) - 1)]
  obtain ⟨k,length⟩ : ∃ k, bareLength 0 (c :: r) = k + 1 := ⟨_,(Nat.succ_pred_eq_of_pos positive).symm⟩
  simp [length]

/-- No segment without quotes begins where nothing of the text belongs to one. -/
theorem bareLength_eq_zero {c : Char} (begins : isBareStart c = false) (r : Text) : bareLength 0 (c :: r) = 0 := by
  have ends : (c = singleQuote || c = doubleQuote || isWordBreak c) = true := by
    rwa [isBareStart,Bool.not_eq_false'] at begins
  rw [bareLength]
  simp only [ends,if_true]

/-! ### Words -/

/-- A text that begins with a word, and neither with a blank nor with an operator. -/
def beginsWord : Text → Bool
  | [] => false
  | c :: r => !(isAsciiBlank c || isWordBreak c || (c = '2' && r.head? = some '>'))

/-- The reader takes a word where one begins. -/
theorem read_of_beginsWord {c : Char} {r : Text} (begins : beginsWord (c :: r) = true) :
    read 0 (c :: r) =
      match segments 0 (c :: r) with
      | .error e => .error e
      | .ok segs => (read ((wordSource segs).length - 1) r).map (.word segs :: ·) := by
  simp only [beginsWord,isWordBreak,Bool.not_eq_true',Bool.or_eq_false_iff,decide_eq_false_iff_not] at begins
  obtain ⟨⟨blank,⟨⟨⟨⟨⟨⟨⟨⟨_,_⟩,_⟩,_⟩,pipe⟩,ampersand⟩,out⟩,inward⟩,semicolon⟩⟩,two⟩ := begins
  rw [read]
  cases segments 0 (c :: r) with
  | error e => simp only [blank,pipe,ampersand,semicolon,out,inward,two,Bool.false_eq_true,if_false]
  | ok segs => simp only [blank,pipe,ampersand,semicolon,out,inward,two,Bool.false_eq_true,if_false]

/-- A word is read, and then what comes after it. -/
theorem read_word {w rest : Text} {segs : List Segment} (begins : beginsWord (w ++ rest) = true) (nonempty : w ≠ [])
    (word : segments 0 (w ++ rest) = .ok segs) (whole : wordSource segs = w) :
    read 0 (w ++ rest) = (read 0 rest).map (.word segs :: ·) := by
  obtain ⟨c,r,rfl⟩ := List.exists_cons_of_ne_nil nonempty
  rw [List.cons_append] at begins word ⊢
  rw [read_of_beginsWord begins,word]
  simp only [whole,read_eq_drop ((c :: r).length - 1)]
  simp

/-- What begins with a word is read as a word and something else. -/
theorem exists_segments {t : Text} {l : List Lexeme} (begins : beginsWord t = true) (lexemes : read 0 t = .ok l) :
    ∃ segs more, segments 0 t = .ok segs ∧ l = .word segs :: more := by
  cases t with
  | nil => cases begins
  | cons c r =>
    rw [read_of_beginsWord begins] at lexemes
    cases word : segments 0 (c :: r) with
    | error e => rw [word] at lexemes; cases lexemes
    | ok segs =>
      rw [word] at lexemes
      cases later : read ((wordSource segs).length - 1) r with
      | error e => simp only [later] at lexemes; cases lexemes
      | ok more =>
        simp only [later] at lexemes
        cases lexemes
        exact ⟨segs,more,rfl,rfl⟩

/-! ### Blanks and operators -/

theorem read_blank {c : Char} (blank : isAsciiBlank c = true) (r : Text) : read 0 (c :: r) = read 0 r := by
  rw [read]
  simp only [blank,if_true]

theorem read_pipe {r : Text} (single : r.head? ≠ some '|') : read 0 ('|' :: r) = (read 0 r).map (.pipe :: ·) := by
  rw [read]
  simp [isAsciiBlank,single]

theorem read_ampersand {r : Text} (single : r.head? ≠ some '&') :
    read 0 ('&' :: r) = (read 0 r).map (.ampersand :: ·) := by
  rw [read]
  simp [isAsciiBlank,single]

theorem read_input (r : Text) : read 0 ('<' :: r) = (read 0 r).map (.redirect .input :: ·) := by
  rw [read]
  simp [isAsciiBlank]

theorem read_append (r : Text) : read 0 ('>' :: '>' :: r) = (read 0 r).map (.redirect .append :: ·) := by
  rw [read,read]
  simp [isAsciiBlank]

theorem read_duplicateOutput (r : Text) : read 0 ('>' :: '&' :: r) = (read 0 r).map (.duplicate 1 :: ·) := by
  rw [read,read]
  simp [isAsciiBlank]

theorem read_output {r : Text} (single : r.head? ≠ some '>') (plain : r.head? ≠ some '&') :
    read 0 ('>' :: r) = (read 0 r).map (.redirect .output :: ·) := by
  rw [read]
  simp [isAsciiBlank,single,plain]

theorem read_duplicateErrors (r : Text) : read 0 ('2' :: '>' :: '&' :: r) = (read 0 r).map (.duplicate 2 :: ·) := by
  simp [read,isAsciiBlank]

theorem read_error {r : Text} (plain : r.head? ≠ some '&') :
    read 0 ('2' :: '>' :: r) = (read 0 r).map (.redirect .error :: ·) := by
  rw [read,read]
  simp [isAsciiBlank,plain]

/-! ### Pieces of a line -/

/-- What may follow a piece of a line: nothing, or a blank. -/
def Apart (rest : Text) : Prop := ∀ c ∈ rest.head?, c = ' '

theorem apart_nil : Apart [] := by simp [Apart]

theorem apart_space (r : Text) : Apart (' ' :: r) := by simp [Apart]

/-- No word goes on where a piece of a line ends. -/
theorem segments_of_apart {rest : Text} (apart : Apart rest) : segments 0 rest = .ok [] := by
  cases rest with
  | nil => rfl
  | cons c r =>
    obtain rfl : c = ' ' := apart c (by simp)
    have noSingle : ' ' ≠ singleQuote := by decide
    have noDouble : ' ' ≠ doubleQuote := by decide
    have breaks : isWordBreak ' ' = true := by decide
    rw [segments,if_neg noSingle,if_neg noDouble,if_pos breaks]

/-- The text is read as these lexemes, whatever else stands on the line after it. -/
def Reads (t : Text) (l : List Lexeme) : Prop :=
  ∀ rest, Apart rest → read 0 (t ++ rest) = (read 0 rest).map (l ++ ·)

theorem Reads.ofLine {t : Text} {l : List Lexeme} (h : Reads t l) : ofLine t = .ok l := by
  have whole := h [] apart_nil
  simpa [Lexeme.ofLine,read,Except.map] using whole

theorem read_space (t : Text) : read 0 (' ' :: t) = read 0 t := read_blank (by decide) t

/-- The lexemes of two pieces with a blank between them. -/
theorem Reads.space {a b : Text} {l m : List Lexeme} (ha : Reads a l) (hb : Reads b m) :
    Reads (a ++ ' ' :: b) (l ++ m) := by
  intro rest apart
  rw [List.append_assoc,List.cons_append,ha _ (apart_space _),read_space,hb rest apart]
  cases read 0 rest with
  | error e => rfl
  | ok k => simp [Except.map]

/-- A piece that is one word. -/
theorem Reads.word {w : Text} {segs : List Segment} (begins : ∀ rest, Apart rest → beginsWord (w ++ rest) = true)
    (nonempty : w ≠ []) (word : ∀ rest, Apart rest → segments 0 (w ++ rest) = .ok segs)
    (whole : wordSource segs = w) : Reads w [.word segs] := by
  intro rest apart
  rw [read_word (begins rest apart) nonempty (word rest apart) whole]
  rfl

/-- Pieces that follow another one, each after a blank. -/
theorem Reads.flatMap {α : Type} {a : Text} {l : List Lexeme} {f : α → Text} {g : α → List Lexeme} (ha : Reads a l)
    {xs : List α} (each : ∀ x ∈ xs, Reads (f x) (g x)) :
    Reads (a ++ xs.flatMap (fun x => ' ' :: f x)) (l ++ xs.flatMap g) := by
  induction xs generalizing a l with
  | nil => simpa using ha
  | cons x r ih =>
    have next := ih (Reads.space ha (each x (by simp))) (fun y hy => each y (by simp [hy]))
    simpa using next

/-! ### Pieces that are operators -/

theorem Apart.head?_ne {rest : Text} (apart : Apart rest) {d : Char} (visible : d ≠ ' ') : rest.head? ≠ some d :=
  fun same => visible (apart d same)

/-- A piece of a line ends as it would at the end of the line. -/
theorem head?_append_ne {r : Text} {d : Char} (other : r.head? ≠ some d) (visible : d ≠ ' ') {x : Text}
    (apart : Apart x) : (r ++ x).head? ≠ some d := by
  cases r with
  | nil => exact apart.head?_ne visible
  | cons c r => exact other

theorem reads_pipe : Reads ['|'] [.pipe] :=
  fun _ apart => read_pipe (apart.head?_ne (by decide))

theorem reads_ampersand : Reads ['&'] [.ampersand] :=
  fun _ apart => read_ampersand (apart.head?_ne (by decide))

theorem reads_output : Reads ['>'] [.redirect .output] :=
  fun _ apart => read_output (apart.head?_ne (by decide)) (apart.head?_ne (by decide))

theorem reads_append : Reads ['>','>'] [.redirect .append] :=
  fun rest _ => read_append rest

theorem reads_input : Reads ['<'] [.redirect .input] :=
  fun rest _ => read_input rest

theorem reads_error : Reads ['2','>'] [.redirect .error] :=
  fun _ apart => read_error (apart.head?_ne (by decide))

/-- A duplication of the output, with the descriptor in the same piece. -/
theorem Reads.duplicateOutput {t : Text} {l : List Lexeme} (h : Reads t l) :
    Reads ('>' :: '&' :: t) (.duplicate 1 :: l) := by
  intro rest apart
  rw [List.cons_append,List.cons_append,read_duplicateOutput,h rest apart]
  cases Lexeme.read 0 rest <;> rfl

/-- A duplication of the errors, with the descriptor in the same piece. -/
theorem Reads.duplicateErrors {t : Text} {l : List Lexeme} (h : Reads t l) :
    Reads ('2' :: '>' :: '&' :: t) (.duplicate 2 :: l) := by
  intro rest apart
  rw [List.cons_append,List.cons_append,List.cons_append,read_duplicateErrors,h rest apart]
  cases Lexeme.read 0 rest <;> rfl

/-! ### Plain characters -/

/-- Characters of a word that stand for themselves wherever they are. -/
def isPlain (c : Char) : Bool :=
  !(isAsciiBlank c || isWordBreak c || c = singleQuote || c = doubleQuote || c = backslash || c = '$' || c = backQuote)

theorem isPlain_iff {c : Char} : isPlain c = true ↔ isAsciiBlank c = false ∧ isWordBreak c = false ∧ c ≠ singleQuote ∧
    c ≠ doubleQuote ∧ c ≠ backslash ∧ c ≠ '$' ∧ c ≠ backQuote := by
  simp [isPlain,and_assoc]

theorem isPlain_of_isDigit {c : Char} (digit : c.isDigit = true) : isPlain c = true := by
  have differs : ∀ d : Char, d.isDigit = false → (c = d) = False := by
    intro d noDigit
    refine eq_false (fun same => ?_)
    rw [same,noDigit] at digit
    cases digit
  simp (disch := decide) [isPlain,isAsciiBlank,isWordBreak,differs]

theorem bareLength_plain {w : Text} (plain : ∀ c ∈ w, isPlain c = true) {rest : Text} (apart : Apart rest) :
    bareLength 0 (w ++ rest) = w.length := by
  induction w with
  | nil =>
    cases rest with
    | nil => rfl
    | cons c r =>
      obtain rfl : c = ' ' := apart c (by simp)
      exact bareLength_eq_zero (by decide) r
  | cons c r ih =>
    obtain ⟨_,noBreak,noSingle,noDouble,noBackslash,noDollar,noTick⟩ := isPlain_iff.mp (plain c (by simp))
    have tail := ih (fun d hd => plain d (by simp [hd]))
    rw [List.cons_append,bareLength]
    simp only [noSingle,noDouble,noBreak,noBackslash,noDollar,noTick,tail,decide_false,Bool.or_self,Bool.false_and,
      Bool.false_eq_true,if_false,List.length_cons]

/-- Plain characters are read as one segment. -/
theorem reads_plain {w : Text} (nonempty : w ≠ []) (plain : ∀ c ∈ w, isPlain c = true) :
    Reads w [.word [.bare w]] := by
  obtain ⟨c,r,rfl⟩ := List.exists_cons_of_ne_nil nonempty
  obtain ⟨noBlank,noBreak,noSingle,noDouble,_,_,_⟩ := isPlain_iff.mp (plain c (by simp))
  refine Reads.word (fun rest apart => ?_) nonempty (fun rest apart => ?_) (by simp [wordSource,Segment.source])
  · have noArrow : r.head? ≠ some '>' := by
      intro arrow
      exact absurd (plain '>' (List.mem_cons_of_mem c (List.mem_of_mem_head? arrow))) (by decide)
    have noArrow := head?_append_ne noArrow (by decide) apart
    rw [List.cons_append,beginsWord]
    simp only [noBlank,noBreak,noArrow,decide_false,Bool.and_false,Bool.or_self,Bool.not_false]
  · have bare : isBareStart c = true := by simp [isBareStart,noSingle,noDouble,noBreak]
    have split := segments_bare bare (r ++ rest)
    rw [← List.cons_append,bareLength_plain plain apart,List.take_left,List.drop_left,segments_of_apart apart] at split
    exact split

end Lexeme
end JobShell

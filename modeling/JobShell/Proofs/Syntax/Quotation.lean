import JobShell.Proofs.Syntax.Expanding
import JobShell.Proofs.Syntax.Reading

/-!
# Words that are quoted throughout

A word may be written so that each of its characters stands for itself: in single
quotes, in double quotes, or after backslashes, and in any mixture of these. However
it is written, it is read as one word whose text is exactly what was meant.
-/
namespace JobShell

/-- A part of a written word in which every character stands for itself. -/
inductive Quotation where
  /-- Text between single quotes, which holds none itself. -/
  | single (t : Text) (free : singleQuote ∉ t)
  /-- Text between double quotes. -/
  | double (t : Text)
  /-- Characters outside quotes, at least one. -/
  | escaped (c : Char) (r : Text)

/-- Characters that have a meaning between double quotes. -/
def isActive (c : Char) : Bool := c = doubleQuote || c = backslash || c = '$' || c = backQuote

/-- A text with a backslash before each character that `p` selects. -/
def escapeIf (p : Char → Bool) (t : Text) : Text := t.flatMap (fun c => if p c then [backslash,c] else [c])

/-- A text with a backslash before each character. -/
abbrev escapeAll (t : Text) : Text := escapeIf (fun _ => true) t

@[simp] theorem escapeAll_nil : escapeAll [] = [] := rfl
@[simp] theorem escapeAll_cons (c : Char) (r : Text) : escapeAll (c :: r) = backslash :: c :: escapeAll r := rfl

namespace Quotation

/-- The text that is meant. -/
def text : Quotation → Text
  | .single t _ => t
  | .double t => t
  | .escaped c r => c :: r

/-- The text as it is written. -/
def source : Quotation → Text
  | .single t _ => singleQuote :: t ++ [singleQuote]
  | .double t => doubleQuote :: escapeIf isActive t ++ [doubleQuote]
  | .escaped c r => escapeAll (c :: r)

/-! ### How it is read -/

/-- Segments with text in front. It belongs to the first segment when that has no quotes either. -/
def inFront (a : Text) : List Segment → List Segment
  | .bare u :: l => .bare (a ++ u) :: l
  | l => .bare a :: l

/-- The segments of a word that is written in parts. Characters after backslashes go into one segment
    when their parts follow each other. -/
def segments : List Quotation → List Segment
  | [] => []
  | .single t _ :: r => .single t :: segments r
  | .double t :: r => .double (escapeIf isActive t) :: segments r
  | .escaped c t :: r => inFront (escapeAll (c :: t)) (segments r)

theorem isBareStart_backslash : Lexeme.isBareStart backslash = true := by decide

theorem bareLength_escapeAll (t x : Text) :
    Lexeme.bareLength 0 (escapeAll t ++ x) = (escapeAll t).length + Lexeme.bareLength 0 x := by
  have starts : (backslash = singleQuote || backslash = doubleQuote || isWordBreak backslash) = false := by decide
  induction t with
  | nil => simp
  | cons c r ih =>
    rw [escapeAll_cons,List.cons_append,Lexeme.bareLength]
    simp only [starts,Bool.false_eq_true,if_false,if_true]
    rw [List.cons_append,Lexeme.bareLength,ih]
    simp only [List.length_cons]
    omega

/-- A segment that does not begin without quotes is not joined with what stands before it. -/
theorem map_inFront_of_quote {c : Char} (quote : Lexeme.isBareStart c = false) (a r : Text) :
    (Lexeme.segments 0 (c :: r)).map (inFront a) = (Lexeme.segments 0 (c :: r)).map (.bare a :: ·) := by
  rw [Lexeme.isBareStart,Bool.not_eq_false',Bool.or_eq_true,Bool.or_eq_true,decide_eq_true_eq,
    decide_eq_true_eq] at quote
  rw [Lexeme.segments]
  by_cases isSingle : c = singleQuote
  · rw [if_pos isSingle]
    cases Lexeme.singleLength? r with
    | none => rfl
    | some n => dsimp only; cases Lexeme.segments (n+1) r <;> rfl
  · rw [if_neg isSingle]
    by_cases isDouble : c = doubleQuote
    · rw [if_pos isDouble]
      cases Lexeme.doubleLength? false r with
      | none => rfl
      | some n => dsimp only; cases Lexeme.segments (n+1) r <;> rfl
    · have breaks : isWordBreak c = true := by simpa [isSingle,isDouble] using quote
      rw [if_neg isDouble,if_pos breaks]
      rfl

theorem segments_escapeAll (c : Char) (t x : Text) :
    Lexeme.segments 0 (escapeAll (c :: t) ++ x) = (Lexeme.segments 0 x).map (inFront (escapeAll (c :: t))) := by
  have length := bareLength_escapeAll (c :: t) x
  have whole : escapeAll (c :: t) ++ x = backslash :: (c :: escapeAll t ++ x) := rfl
  have split := Lexeme.segments_bare isBareStart_backslash (c :: escapeAll t ++ x)
  rw [← whole] at split
  rw [split,length,List.take_length_add_append,List.drop_length_add_append]
  cases x with
  | nil => simp [Lexeme.bareLength,Lexeme.segments,Except.map,inFront]
  | cons d y =>
    by_cases bare : Lexeme.isBareStart d = true
    · rw [Lexeme.segments_bare bare y]
      cases Lexeme.segments 0 ((d :: y).drop (Lexeme.bareLength 0 (d :: y))) <;> rfl
    · have quote : Lexeme.isBareStart d = false := by simpa using bare
      rw [map_inFront_of_quote quote,Lexeme.bareLength_eq_zero quote]
      simp

theorem doubleLength?_escapeIf (t rest : Text) :
    Lexeme.doubleLength? false (escapeIf isActive t ++ doubleQuote :: rest) = some (escapeIf isActive t).length := by
  induction t with
  | nil => simp [escapeIf,Lexeme.doubleLength?]
  | cons c r ih =>
    have split : escapeIf isActive (c :: r) = (if isActive c then [backslash,c] else [c]) ++ escapeIf isActive r := rfl
    have differs : backslash ≠ doubleQuote := by decide
    by_cases active : isActive c = true
    · simp [split,active,Lexeme.doubleLength?,differs,ih]
    · have plain : c ≠ doubleQuote ∧ c ≠ backslash := by
        simp only [isActive,Bool.or_eq_true,decide_eq_true_eq,not_or] at active
        exact ⟨active.1.1.1,active.1.1.2⟩
      simp [split,active,Lexeme.doubleLength?,plain.1,plain.2,ih]

/-- A word that is written in parts is read as their segments. -/
theorem segments_source (l : List Quotation) {rest : Text} (apart : Lexeme.Apart rest) :
    Lexeme.segments 0 (l.flatMap source ++ rest) = .ok (segments l) := by
  induction l with
  | nil => exact Lexeme.segments_of_apart apart
  | cons q r ih =>
    rw [List.flatMap_cons,List.append_assoc]
    cases q with
    | single t free =>
      rw [show source (.single t free) = Segment.source (.single t) from rfl,Lexeme.segments_single free,ih]
      rfl
    | double t =>
      rw [show source (.double t) = Segment.source (.double (escapeIf isActive t)) from rfl,
        Lexeme.segments_double (doubleLength?_escapeIf t _),ih]
      rfl
    | escaped c t =>
      rw [source,segments_escapeAll,ih]
      rfl

theorem wordSource_inFront (a : Text) (l : List Segment) :
    Lexeme.wordSource (inFront a l) = a ++ Lexeme.wordSource l := by
  unfold inFront
  split <;> simp [Lexeme.wordSource,Segment.source]

theorem wordSource_segments (l : List Quotation) : Lexeme.wordSource (segments l) = l.flatMap source := by
  induction l with
  | nil => rfl
  | cons q r ih =>
    cases q with
    | single t free => rw [segments,List.flatMap_cons,← ih]; rfl
    | double t => rw [segments,List.flatMap_cons,← ih]; rfl
    | escaped c t => rw [segments,wordSource_inFront,List.flatMap_cons,← ih]; rfl

/-! ### What it stands for -/

theorem body_escapeAll (s : Surroundings) (t u : Text) :
    Expansion.body s false 0 (escapeAll t ++ u) = t.map .char ++ Expansion.body s false 0 u := by
  induction t with
  | nil => rfl
  | cons c r ih =>
    rw [escapeAll_cons,List.cons_append,List.cons_append,Expansion.body]
    simp [Expansion.isEscape,Expansion.body,ih]

theorem body_escapeIf (s : Surroundings) (t : Text) :
    Expansion.body s true 0 (escapeIf isActive t) = t.map .char := by
  induction t with
  | nil => rfl
  | cons c r ih =>
    have split : escapeIf isActive (c :: r) = (if isActive c then [backslash,c] else [c]) ++ escapeIf isActive r := rfl
    rw [split]
    by_cases active : isActive c = true
    · have escapes : Expansion.isEscape true c = true := by simpa [Expansion.isEscape,isActive] using active
      simp [active,Expansion.body,escapes,ih]
    · have plain : c ≠ backslash ∧ c ≠ '$' ∧ c ≠ backQuote := by
        simp only [isActive,Bool.or_eq_true,decide_eq_true_eq,not_or] at active
        exact ⟨active.1.1.2,active.1.2,active.2⟩
      simp [active,Expansion.body,plain,ih]

theorem segments_inFront (s : Surroundings) (first : Bool) (c : Char) (t : Text) (l : List Segment) :
    Expansion.segments s first (inFront (escapeAll (c :: t)) l) =
      (c :: t).map .char ++ Expansion.segments s false l := by
  have noTilde : ∀ last u, (if first = true then Expansion.tilde? s last (escapeAll (c :: t) ++ u) else none) = none := by
    intro last u
    split
    · exact Expansion.tilde?_special s last (by decide) _
    · rfl
  unfold inFront
  split
  · rename_i u l
    rw [Expansion.segments,noTilde,Expansion.segments]
    simp only [body_escapeAll,Bool.false_eq_true,if_false,List.append_assoc]
  · have alone := noTilde l.isEmpty []
    have body := body_escapeAll s (c :: t) []
    rw [List.append_nil] at alone body
    rw [Expansion.segments,alone,body]
    simp [Expansion.body]

/-- The segments of a quoted word stand for the characters that are meant, and for nothing else. -/
theorem expansion_segments (s : Surroundings) (first : Bool) (l : List Quotation) :
    Expansion.segments s first (segments l) = (l.flatMap text).map .char := by
  induction l generalizing first with
  | nil => rfl
  | cons q r ih =>
    rw [List.flatMap_cons,List.map_append]
    cases q with
    | single t free => rw [segments,Expansion.segments,ih]; rfl
    | double t => rw [segments,Expansion.segments,ih,body_escapeIf]; rfl
    | escaped c t => rw [segments,segments_inFront,ih]; rfl

theorem isQuoting_segments {l : List Quotation} (nonempty : l ≠ []) :
    (segments l).any Expansion.isQuoting = true := by
  obtain ⟨q,r,rfl⟩ := List.exists_cons_of_ne_nil nonempty
  cases q with
  | single t free => simp [segments,Expansion.isQuoting]
  | double t => simp [segments,Expansion.isQuoting]
  | escaped c t =>
    rw [segments]
    unfold inFront
    split <;> simp [Expansion.isQuoting]

end Quotation
end JobShell

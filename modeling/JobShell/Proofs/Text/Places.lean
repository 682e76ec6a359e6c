import JobShell.Proofs.Text.Cuts
import JobShell.Proofs.Text.Splitting
import Mathlib.Data.List.Induction

/-!
# Byte positions in a text

Parts of a text are taken out, put in and replaced at byte positions. Each of
these steps breaks down when a position is beyond the end of the text, inside a
character, or behind the one that it should stand before. None does at positions
that are the widths of parts of the text.
-/
namespace JobShell
namespace Text

/-! ### Steps that may break down -/

/-- A text with a character put in at a byte position. -/
def insertAt? (t : Text) (n : Nat) (c : Char) : Option Text := (cut? n t).map fun p => p.1 ++ c :: p.2

/-- A text with the part from byte position `m` to byte position `n` replaced. -/
def replaceRange? (t : Text) (m n : Nat) (new : Text) : Option Text :=
  (cut? n t).bind fun p => (cut? m p.1).map fun q => q.1 ++ new ++ p.2

/-- A text up to a byte position; it stays as it is when that is beyond its end. -/
def truncate? (t : Text) (n : Nat) : Option Text := if n ≤ width t then (cut? n t).map Prod.fst else some t

theorem insertAt?_append (a b : Text) (c : Char) : insertAt? (a ++ b) (width a) c = some (a ++ c :: b) := by
  rw [insertAt?,cut?_append]
  rfl

theorem between?_take (a b : Text) (k : Nat) : between? (a ++ b) (width a) (width (a ++ b.take k)) = some (b.take k) := by
  have part := between?_append a (b.take k) (b.drop k)
  rwa [List.append_assoc,List.take_append_drop] at part

theorem replaceRange?_append (a b c new : Text) :
    replaceRange? (a ++ b ++ c) (width a) (width (a ++ b)) new = some (a ++ new ++ c) := by
  rw [replaceRange?,cut?_append,Option.bind_some,cut?_append]
  rfl

theorem truncate?_append (a b : Text) : truncate? (a ++ b) (width a) = some a := by
  rw [truncate?,if_pos (by rw [width_append]; omega),cut?_append]
  rfl

/-! ### Places of characters -/

/-- The byte position of the first character in `p`. -/
def firstPlace? (p : Char → Bool) : Text → Option Nat
  | [] => none
  | c :: r => if p c then some 0 else (firstPlace? p r).map (c.utf8Size + ·)

/-- The byte position of the last character in `p`. -/
def lastPlace? (p : Char → Bool) : Text → Option Nat
  | [] => none
  | c :: r => ((lastPlace? p r).map (c.utf8Size + ·)).or (if p c then some 0 else none)

/-- The byte position behind the last character in `p`, which are characters of one byte; 0 when there is none. -/
def behindLast (p : Char → Bool) (t : Text) : Nat := ((lastPlace? p t).map (· + 1)).getD 0

theorem firstPlace?_eq_splitAt? (c : Char) (t : Text) :
    firstPlace? (· == c) t = (splitAt? c t).map (fun p => width p.1) := by
  induction t with
  | nil => rfl
  | cons x r ih =>
    rw [firstPlace?,splitAt?,ih]
    by_cases here : x = c
    · rw [if_pos here,if_pos (beq_iff_eq.mpr here)]
      rfl
    · rw [if_neg here,if_neg (by simpa using here),Option.map_map,Option.map_map]
      rfl

/-- Without such a character the place is the end. -/
theorem firstPlace?_getD (p : Char → Bool) (t : Text) :
    (firstPlace? p t).getD (width t) = width (t.takeWhile (!p ·)) := by
  induction t with
  | nil => rfl
  | cons c r ih =>
    rw [firstPlace?,List.takeWhile_cons]
    by_cases here : p c = true
    · simp [here]
    · rw [if_neg here,width_cons]
      cases found : firstPlace? p r <;> simp [found,here] at ih ⊢ <;> omega

theorem lastPlace?_concat (p : Char → Bool) (t : Text) (c : Char) :
    lastPlace? p (t ++ [c]) = if p c then some (width t) else lastPlace? p t := by
  induction t with
  | nil => simp [lastPlace?]
  | cons x r ih =>
    rw [List.cons_append,lastPlace?,ih,lastPlace?]
    by_cases here : p c = true
    · simp [here]
    · simp [here]

theorem isSome_lastPlace? (p : Char → Bool) (t : Text) : (lastPlace? p t).isSome = t.any p := by
  induction t with
  | nil => rfl
  | cons c r ih =>
    rw [lastPlace?,Option.isSome_or,Option.isSome_map,ih,List.any_cons,Bool.or_comm]
    cases p c <;> rfl

/-- A text without its longest suffix in `p`, and this suffix. -/
theorem dropEndWhile_append (p : Char → Bool) (t : Text) : dropEndWhile p t ++ (t.reverse.takeWhile p).reverse = t := by
  rw [dropEndWhile,← List.reverse_append,List.takeWhile_append_dropWhile,List.reverse_reverse]

theorem cut?_dropEndWhile (p : Char → Bool) (t : Text) :
    cut? (width (dropEndWhile p t)) t = some (dropEndWhile p t,(t.reverse.takeWhile p).reverse) := by
  have cut := cut?_append (dropEndWhile p t) (t.reverse.takeWhile p).reverse
  rwa [dropEndWhile_append] at cut

theorem size_of_beq {c d : Char} (single : d.utf8Size = 1) (same : (c == d) = true) : c.utf8Size = 1 := by
  rwa [beq_iff_eq.mp same]

/-- Behind the last such character is where the text without what comes after it ends. -/
theorem behindLast_eq {p : Char → Bool} (single : ∀ c, p c = true → c.utf8Size = 1) (t : Text) :
    behindLast p t = width (dropEndWhile (!p ·) t) := by
  induction t using List.reverseRecOn with
  | nil => rfl
  | append_singleton front c ih =>
    rw [behindLast,lastPlace?_concat,dropEndWhile,List.reverse_append,List.reverse_singleton,List.singleton_append,
      List.dropWhile_cons]
    by_cases here : p c = true
    · simp [here,single c here]
    · rw [behindLast,dropEndWhile] at ih
      simpa [here] using ih

end Text
end JobShell

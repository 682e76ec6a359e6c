import JobShell.Line.Editor
import JobShell.Proofs.Text.Places
import JobShell.Proofs.Text.Segments

/-!
# The line by byte positions

The line is held in two parts, before and after the cursor. It may as well be one
text with the byte position of the cursor, which is changed and looked at by
positions that are computed: where a cluster begins, where a word begins, where a
slash is. All steps that may break down then stand as such here, and none does
at a cursor that is the width of what stands before it. They lead to the same
lines (`LineBuffer.placed`).
-/
namespace JobShell

/-- A line as one text, with the byte position of the cursor. -/
structure ByteLine where
  text : Text
  cursor : Nat
  deriving DecidableEq, Repr

namespace ByteLine
open Segmentation (clusters lastCluster?)

/-- The cursor is at a boundary of a character, and not beyond the end. -/
def OnBoundary (l : ByteLine) : Prop := (Text.cut? l.cursor l.text).isSome = true ∧ l.cursor ≤ Text.width l.text

/-- The byte position of the last cluster before a position. -/
def previous? [Segmentation] (t : Text) (n : Nat) : Option Nat :=
  (Text.cut? n t).map fun p => ((lastCluster? p.1).map Prod.fst).getD 0

/-- The byte position behind the first cluster after a position. -/
def next? [Segmentation] (t : Text) (n : Nat) : Option Nat :=
  (Text.cut? n t).map fun p =>
    match (clusters p.2).head? with
    | some g => n + Text.width g
    | none => Text.width t

def moveLeft? [Segmentation] (l : ByteLine) : Option ByteLine := (previous? l.text l.cursor).map fun n => ⟨l.text,n⟩

def moveRight? [Segmentation] (l : ByteLine) : Option ByteLine := (next? l.text l.cursor).map fun n => ⟨l.text,n⟩

def insert? [Segmentation] (l : ByteLine) (c : Char) : Option ByteLine := do
  let text ← l.text.insertAt? l.cursor c
  let start ← previous? text (l.cursor + c.utf8Size)
  return ⟨text,← next? text start⟩

/-- The text from a byte position to the cursor is replaced, and the cursor stands behind what is new. -/
def replaceFrom? (l : ByteLine) (start : Nat) (new : Text) : Option ByteLine :=
  (l.text.replaceRange? start l.cursor new).map fun t => ⟨t,start + Text.width new⟩

/-- How many bytes there are from a byte position to the cursor. -/
def widthFrom? (l : ByteLine) (start : Nat) : Option Nat := if start ≤ l.cursor then some (l.cursor - start) else none

def deleteBefore? [Segmentation] (l : ByteLine) : Option ByteLine :=
  if l.cursor > 0 then (previous? l.text l.cursor).bind fun start => l.replaceFrom? start [] else some l

def deleteAfter? [Segmentation] (l : ByteLine) : Option ByteLine :=
  if l.cursor < Text.width l.text then do
    let stop ← next? l.text l.cursor
    return ⟨← l.text.replaceRange? l.cursor stop [],l.cursor⟩
  else some l

def dropBefore? (l : ByteLine) : Option ByteLine := l.replaceFrom? 0 []

def dropAfter? (l : ByteLine) : Option ByteLine := (l.text.truncate? l.cursor).map fun t => ⟨t,l.cursor⟩

/-- The blanks before the cursor and the word before them are deleted, back to the blank before that. -/
def deleteWord? (l : ByteLine) : Option ByteLine := do
  let (before,_) ← Text.cut? l.cursor l.text
  let (worded,_) ← Text.cut? (Text.width (Text.dropEndWhile (· == ' ') before)) before
  l.replaceFrom? (Text.behindLast (· == ' ') worded) []

def home (l : ByteLine) : ByteLine := ⟨l.text,0⟩

def toEnd (t : Text) : ByteLine := ⟨t,Text.width t⟩

end ByteLine

namespace LineBuffer
open Segmentation (Consecutive cutFirst cutLast cutFirst_append cutLast_append)

/-- A line with the byte position of its cursor. -/
def placed (b : LineBuffer) : ByteLine := ⟨b.text,b.cursor⟩

theorem placed_atEnd (t : Text) : (atEnd t).placed = .toEnd t := by
  simp [placed,atEnd,text,cursor,ByteLine.toEnd]

theorem cut?_cursor (b : LineBuffer) : Text.cut? b.cursor b.text = some (b.before,b.after) :=
  Text.cut?_append b.before b.after

/-- The cursor is before the end when there is text after it. -/
theorem cursor_lt_iff (b : LineBuffer) : b.placed.cursor < Text.width b.placed.text ↔ b.after ≠ [] := by
  have whole : Text.width b.placed.text = b.placed.cursor + Text.width b.after := Text.width_append ..
  rw [whole]
  constructor
  · rintro inside empty
    rw [empty,Text.width_nil,Nat.add_zero] at inside
    exact Nat.lt_irrefl _ inside
  · intro more
    exact Nat.lt_add_of_pos_right (Text.width_pos more)

theorem onBoundary_placed (b : LineBuffer) : b.placed.OnBoundary := by
  constructor
  · show (Text.cut? b.cursor b.text).isSome = true
    rw [cut?_cursor]
    rfl
  · show b.cursor ≤ Text.width b.text
    rw [cursor,text,Text.width_append]
    omega

/-! ### One cluster to the left, one to the right -/

section
variable [Segmentation]

theorem text_moveLeft (b : LineBuffer) : b.moveLeft.text = b.text := by
  rw [moveLeft,text,← List.append_assoc,cutLast_append]
  rfl

theorem text_moveRight (b : LineBuffer) : b.moveRight.text = b.text := by
  rw [moveRight,text,List.append_assoc,cutFirst_append]
  rfl

variable [Consecutive]

theorem previous?_cursor (b : LineBuffer) : ByteLine.previous? b.text b.cursor = some b.moveLeft.cursor := by
  rw [ByteLine.previous?,cut?_cursor,Option.map_some,Segmentation.lastCluster?_start]
  rfl

theorem next?_cursor (b : LineBuffer) : ByteLine.next? b.text b.cursor = some b.moveRight.cursor := by
  rw [ByteLine.next?,cut?_cursor,Option.map_some]
  cases pieces : Segmentation.clusters b.after with
  | nil => simp [moveRight,Segmentation.cutFirst,pieces,cursor,text]
  | cons g more => simp [moveRight,Segmentation.cutFirst_eq pieces,cursor]

theorem moveLeft?_placed (b : LineBuffer) : b.placed.moveLeft? = some b.moveLeft.placed := by
  simp [ByteLine.moveLeft?,placed,previous?_cursor,text_moveLeft]

theorem moveRight?_placed (b : LineBuffer) : b.placed.moveRight? = some b.moveRight.placed := by
  simp [ByteLine.moveRight?,placed,next?_cursor,text_moveRight]

theorem insert?_placed (b : LineBuffer) (c : Char) : b.placed.insert? c = some (b.insert c).placed := by
  let typed : LineBuffer := ⟨b.before ++ [c],b.after⟩
  have text : b.text.insertAt? b.cursor c = some typed.text := by
    rw [LineBuffer.text,cursor,Text.insertAt?_append,LineBuffer.text,List.append_assoc,List.singleton_append]
  have cursor : b.cursor + c.utf8Size = typed.cursor := by simp [typed,LineBuffer.cursor]
  have start := typed.previous?_cursor
  have stop := typed.moveLeft.next?_cursor
  rw [text_moveLeft] at stop
  have whole : (b.insert c).text = typed.text := (text_moveRight _).trans (text_moveLeft _)
  simp only [ByteLine.insert?,placed,text,cursor,start,stop,whole,bind,Option.bind,pure]
  rfl

end

/-! ### Text that is replaced -/

/-- What stands before the cursor is replaced from a place on. -/
theorem replaceFrom?_placed {b : LineBuffer} {x y : Text} (split : x ++ y = b.before) (new : Text) :
    b.placed.replaceFrom? (Text.width x) new = some (LineBuffer.placed ⟨x ++ new,b.after⟩) := by
  have replaced : b.placed.text.replaceRange? (Text.width x) b.placed.cursor new = some (x ++ new ++ b.after) := by
    rw [placed,text,cursor,← split,Text.replaceRange?_append]
  rw [ByteLine.replaceFrom?,replaced]
  simp [placed,text,cursor]

theorem deleteBefore?_placed [Segmentation] [Consecutive] (b : LineBuffer) : b.placed.deleteBefore? = some b.deleteBefore.placed := by
  have start : ByteLine.previous? b.placed.text b.placed.cursor = some (Text.width (cutLast b.before).1) :=
    b.previous?_cursor
  rw [ByteLine.deleteBefore?,start]
  by_cases empty : b.before = []
  · have first : ¬ b.placed.cursor > 0 := by simp [placed,cursor,empty]
    have same : b.deleteBefore = b := by
      rw [deleteBefore,empty,Segmentation.cutLast_nil,← empty]
    rw [if_neg first,same]
  · have inside : b.placed.cursor > 0 := Text.width_pos empty
    rw [if_pos inside]
    exact (replaceFrom?_placed (cutLast_append b.before) []).trans (by rw [List.append_nil]; rfl)

theorem deleteAfter?_placed [Segmentation] [Consecutive] (b : LineBuffer) : b.placed.deleteAfter? = some b.deleteAfter.placed := by
  have stop : ByteLine.next? b.placed.text b.placed.cursor = some (Text.width (b.before ++ (cutFirst b.after).1)) :=
    b.next?_cursor
  have whole : b.placed.text = b.before ++ (cutFirst b.after).1 ++ (cutFirst b.after).2 := by
    rw [List.append_assoc,cutFirst_append]
    rfl
  have cut : b.placed.text.replaceRange? b.placed.cursor (Text.width (b.before ++ (cutFirst b.after).1)) [] =
      some (b.before ++ [] ++ (cutFirst b.after).2) := by
    rw [whole]
    exact Text.replaceRange?_append ..
  rw [ByteLine.deleteAfter?]
  by_cases empty : b.after = []
  · have same : b.deleteAfter = b := by
      rw [deleteAfter,empty,Segmentation.cutFirst_nil,← empty]
    rw [if_neg (fun inside => b.cursor_lt_iff.mp inside empty),same]
  · rw [if_pos (b.cursor_lt_iff.mpr empty),stop,Option.bind_eq_bind,Option.bind_some,cut,List.append_nil]
    rfl

theorem dropBefore?_placed (b : LineBuffer) :
    b.placed.dropBefore? = some (LineBuffer.placed { b with before := [] }) :=
  replaceFrom?_placed (x := []) rfl []

theorem dropAfter?_placed (b : LineBuffer) :
    b.placed.dropAfter? = some (LineBuffer.placed { b with after := [] }) := by
  have whole : b.placed.text.truncate? b.placed.cursor = some b.before := Text.truncate?_append b.before b.after
  rw [ByteLine.dropAfter?,whole]
  simp [placed,text,cursor]

theorem deleteWord?_placed (b : LineBuffer) : b.placed.deleteWord? = some b.deleteWord.placed := by
  let worded := Text.dropEndWhile (· == ' ') b.before
  have start : Text.behindLast (· == ' ') worded = Text.width (Text.dropEndWhile (!· == ' ') worded) :=
    Text.behindLast_eq (fun _ => Text.size_of_beq rfl) worded
  have without : Text.dropEndWhile (!· == ' ') worded = withoutWord b.before := by
    simp only [worded,Text.dropEndWhile,withoutWord,List.reverse_reverse]
    rfl
  have cut : Text.cut? b.placed.cursor b.placed.text = some (b.before,b.after) := b.cut?_cursor
  have split : withoutWord b.before ++ ((worded.reverse.takeWhile (!· == ' ')).reverse ++
      (b.before.reverse.takeWhile (· == ' ')).reverse) = b.before := by
    rw [← List.append_assoc,← without,Text.dropEndWhile_append]
    exact Text.dropEndWhile_append _ _
  simp only [ByteLine.deleteWord?,cut,bind,Option.bind,Text.cut?_dropEndWhile]
  show b.placed.replaceFrom? (Text.behindLast (· == ' ') worded) [] = _
  rw [start,without,replaceFrom?_placed split,List.append_nil]
  rfl

end LineBuffer
end JobShell

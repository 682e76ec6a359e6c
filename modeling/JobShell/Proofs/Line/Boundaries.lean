import JobShell.Proofs.Line.Browsing
import JobShell.Proofs.Line.Cursor
import Mathlib.Logic.Function.Iterate

/-!
# From cluster to cluster

The key to the left looks at the text before the cursor, and the key to the right
at the text after it. Where a cluster of the whole line ends, the clusters of
these two parts are those of the line (`LineBuffer.clusters_before`,
`LineBuffer.clusters_after`). So both keys walk along the same places, one back
and one forth (`Editor.boundaries_walked`).
-/
namespace JobShell
open Segmentation (Consecutive Lawful boundary clusters cutFirst cutLast)
open Segmentation.Consecutive (flatten_clusters ne_nil_of_mem_clusters)

/-! ### Boundaries -/

namespace LineBuffer
variable [Segmentation]

/-- A line with the cursor behind its first `i` clusters. -/
def behind (t : Text) (i : Nat) : LineBuffer := ⟨((clusters t).take i).flatten,((clusters t).drop i).flatten⟩

theorem cursor_behind (t : Text) (i : Nat) : (behind t i).cursor = boundary t i := rfl

theorem text_behind [Consecutive] (t : Text) (i : Nat) : (behind t i).text = t := by
  rw [text,behind,← List.flatten_append,List.take_append_drop,flatten_clusters]

/-- A line with the cursor at a boundary. -/
theorem eq_behind [Consecutive] {b : LineBuffer} {i : Nat} (place : b.cursor = boundary b.text i) : b = behind b.text i := by
  have here : Text.cut? b.cursor b.text = some (b.before,b.after) := Text.cut?_append b.before b.after
  have there : Text.cut? (behind b.text i).cursor (behind b.text i).text =
      some ((behind b.text i).before,(behind b.text i).after) := Text.cut?_append _ _
  rw [text_behind,cursor_behind,← place,here,Option.some.injEq,Prod.mk.injEq] at there
  rw [LineBuffer.mk.injEq]
  exact there

theorem behind_of_length_le [Consecutive] {t : Text} {i : Nat} (all : (clusters t).length ≤ i) : behind t i = atEnd t := by
  rw [behind,List.take_of_length_le all,List.drop_eq_nil_of_le all,flatten_clusters]
  rfl

/-! ### The keys at a boundary -/

variable [Lawful]

/-- At a boundary the text before the cursor has the clusters that it has in the line. -/
theorem clusters_before (t : Text) (i : Nat) : clusters (behind t i).before = (clusters t).take i :=
  Segmentation.clusters_take t i

/-- So does the text after the cursor. -/
theorem clusters_after (t : Text) (i : Nat) : clusters (behind t i).after = (clusters t).drop i :=
  Segmentation.clusters_drop t i

/-- The cluster after a boundary, and what is behind it. -/
theorem cutFirst_behind {t : Text} {i : Nat} (inside : i < (clusters t).length) :
    cutFirst (behind t i).after = ((clusters t)[i],(behind t (i+1)).after) := by
  have pieces := clusters_after t i
  rw [List.drop_eq_getElem_cons inside] at pieces
  exact Segmentation.cutFirst_eq pieces

/-- The cluster before a boundary, and what is in front of it. -/
theorem cutLast_behind {t : Text} {i : Nat} (inside : i < (clusters t).length) :
    cutLast (behind t (i+1)).before = ((behind t i).before,(clusters t)[i]) := by
  have pieces := clusters_before t (i+1)
  rw [List.take_succ_eq_append_getElem inside] at pieces
  exact Segmentation.cutLast_eq pieces

theorem moveRight_behind (t : Text) (i : Nat) : (behind t i).moveRight = behind t (i+1) := by
  by_cases inside : i < (clusters t).length
  · rw [moveRight,cutFirst_behind inside,LineBuffer.mk.injEq]
    refine ⟨?_,rfl⟩
    rw [behind,behind,List.take_succ_eq_append_getElem inside,List.flatten_append,List.flatten_singleton]
  · rw [behind_of_length_le (by omega),behind_of_length_le (by omega),moveRight,atEnd]
    simp [Segmentation.cutFirst_nil]

theorem moveLeft_behind {t : Text} {i : Nat} (inside : i ≤ (clusters t).length) :
    (behind t i).moveLeft = behind t (i-1) := by
  cases i with
  | zero =>
    have start : (behind t 0).before = [] := rfl
    rw [moveLeft,start,Segmentation.cutLast_nil]
    rfl
  | succ i =>
    have inside : i < (clusters t).length := inside
    rw [moveLeft,cutLast_behind inside,Nat.add_sub_cancel,LineBuffer.mk.injEq]
    refine ⟨rfl,?_⟩
    rw [behind,behind,List.drop_eq_getElem_cons inside,List.flatten_cons]

/-- To delete the cluster before the cursor is to go to the left and to delete the cluster there. -/
theorem deleteBefore_behind {t : Text} {i : Nat} (positive : 0 < i) (inside : i ≤ (clusters t).length) :
    (behind t i).moveLeft.deleteAfter = (behind t i).deleteBefore := by
  obtain ⟨i,rfl⟩ := Nat.exists_eq_succ_of_ne_zero (Nat.ne_of_gt positive)
  have within : i < (clusters t).length := inside
  rw [moveLeft_behind inside,Nat.succ_eq_add_one,Nat.add_sub_cancel,deleteAfter,cutFirst_behind within,deleteBefore,
    cutLast_behind within]

end LineBuffer

/-! ### Runs of keys -/

namespace Editor
open LineBuffer (behind)

section
variable [Segmentation]

/-- What a key does to the line, if it does nothing else. -/
def change? : Key → Option (LineBuffer → LineBuffer)
  | .left => some LineBuffer.moveLeft
  | .right => some LineBuffer.moveRight
  | .home => some fun b => ⟨[],b.text⟩
  | .toEnd => some fun b => .atEnd b.text
  | .backspace => some LineBuffer.deleteBefore
  | .delete => some LineBuffer.deleteAfter
  | _ => none

/-- Such a key is pressed; an entry of the history that is shown becomes the line. -/
theorem press_of_change {e : Editor} (idle : ∀ s, e.mode ≠ .searching s) {key : Key} {f : LineBuffer → LineBuffer}
    (changes : change? key = some f) (h : History) (o : Outlook) :
    e.press h o key = (none,⟨f e.buffer,.editing,e.notice⟩,if e.mode = .browsing then h.leave else h) := by
  rw [press]
  cases mode : e.mode with
  | searching s => exact absurd mode (idle s)
  | editing | browsing =>
    cases key
    all_goals first
      | (cases changes; done)
      | (obtain rfl := Option.some.inj changes; rfl)

theorem pressAll_of_change {e : Editor} (idle : ∀ s, e.mode ≠ .searching s) {key : Key} {f : LineBuffer → LineBuffer}
    (changes : change? key = some f) (h : History) (o : Outlook) (more : List (Outlook × Key)) :
    pressAll e h ((o,key) :: more) =
      pressAll ⟨f e.buffer,.editing,e.notice⟩ (if e.mode = .browsing then h.leave else h) more := by
  rw [pressAll,press_of_change idle changes]

/-- One key again and again. -/
theorem pressAll_replicate {key : Key} {f : LineBuffer → LineBuffer} (changes : change? key = some f) (b : LineBuffer)
    (notice : Option Notice) (h : History) {k : Nat} {keys : List (Outlook × Key)}
    (same : keys.map Prod.snd = List.replicate k key) :
    pressAll ⟨b,.editing,notice⟩ h keys = (⟨f^[k] b,.editing,notice⟩,h) := by
  induction k generalizing b keys with
  | zero =>
    obtain rfl := List.map_eq_nil_iff.mp same
    rfl
  | succ k ih =>
    rw [List.replicate_succ] at same
    obtain ⟨⟨o,_⟩,more,rfl,rfl,later⟩ := List.map_eq_cons_iff.mp same
    rw [pressAll_of_change (fun s searching => by cases searching) changes,if_neg (by simp),ih _ later,
      Function.iterate_succ_apply]

variable [Lawful]

theorem moveRight_iterate (t : Text) (k : Nat) : LineBuffer.moveRight^[k] (behind t 0) = behind t k := by
  induction k with
  | zero => rfl
  | succ k ih => rw [Function.iterate_succ_apply',ih,LineBuffer.moveRight_behind]

theorem moveLeft_iterate (t : Text) (k : Nat) :
    LineBuffer.moveLeft^[k] (behind t (clusters t).length) = behind t ((clusters t).length - k) := by
  induction k with
  | zero => rfl
  | succ k ih =>
    rw [Function.iterate_succ_apply',ih,LineBuffer.moveLeft_behind (Nat.sub_le _ _),Nat.sub_sub]

/-- **From cluster to cluster.** Let a line be edited, or an entry of the history be shown. The boundaries of the clusters of
    the whole line begin at zero, increase and end with the line. From the beginning of the line the key to the right goes
    from each to the next up to the last; from its end the key to the left goes back along the same ones up to the first.
    At a boundary that is not the first, the two keys in turn lead back, and deleting to the left is going to the left and
    deleting to the right. -/
theorem boundaries_walked {e : Editor} (idle : ∀ s, e.mode ≠ .searching s) (h : History) :
    let t := e.buffer.text
    let m := (clusters t).length
    (boundary t 0 = 0 ∧ (∀ i < m, boundary t i < boundary t (i+1)) ∧ boundary t m = Text.width t) ∧
    (∀ keys k, keys.map Prod.snd = .home :: List.replicate k .right →
      (pressAll e h keys).1.buffer.text = t ∧ (pressAll e h keys).1.buffer.cursor = boundary t (min k m)) ∧
    (∀ keys k, keys.map Prod.snd = .toEnd :: List.replicate k .left →
      (pressAll e h keys).1.buffer.text = t ∧ (pressAll e h keys).1.buffer.cursor = boundary t (m-k)) ∧
    ∀ i, 0 < i → i ≤ m → e.buffer.cursor = boundary t i → ∀ o p,
      (pressAll e h [(o,.left)]).1.buffer.cursor = boundary t (i-1) ∧
      (pressAll e h [(o,.left),(p,.right)]).1.buffer = e.buffer ∧
      pressAll e h [(o,.backspace)] = pressAll e h [(o,.left),(p,.delete)] := by
  intro t m
  have editing : ∀ (b : LineBuffer) s, (⟨b,.editing,e.notice⟩ : Editor).mode ≠ .searching s :=
    fun _ _ searching => by cases searching
  refine ⟨⟨rfl,fun i => Segmentation.boundary_lt_succ,Segmentation.boundary_of_length_le (Nat.le_refl _)⟩,?_,?_,?_⟩
  · intro keys k same
    obtain ⟨⟨o,_⟩,more,rfl,rfl,later⟩ := List.map_eq_cons_iff.mp same
    have home : (⟨[],t⟩ : LineBuffer) = behind t 0 := by
      rw [behind,List.take_zero,List.drop_zero,flatten_clusters]
      rfl
    rw [pressAll_of_change idle rfl,pressAll_replicate rfl _ _ _ later,home,moveRight_iterate]
    refine ⟨LineBuffer.text_behind t k,?_⟩
    rw [LineBuffer.cursor_behind,boundary,boundary,← List.take_eq_take_min]
  · intro keys k same
    obtain ⟨⟨o,_⟩,more,rfl,rfl,later⟩ := List.map_eq_cons_iff.mp same
    rw [pressAll_of_change idle rfl,pressAll_replicate rfl _ _ _ later,← LineBuffer.behind_of_length_le (Nat.le_refl _),
      moveLeft_iterate]
    exact ⟨LineBuffer.text_behind t _,rfl⟩
  · intro i positive inside place o p
    have here : e.buffer = behind t i := LineBuffer.eq_behind place
    have left := LineBuffer.moveLeft_behind inside
    have right : (behind t (i-1)).moveRight = behind t i := by
      rw [LineBuffer.moveRight_behind,Nat.sub_add_cancel positive]
    rw [pressAll_of_change idle rfl,pressAll_of_change idle rfl,pressAll_of_change idle rfl,pressAll_of_change idle rfl,
      pressAll_of_change (editing _) rfl,pressAll_of_change (editing _) rfl]
    simp only [pressAll,here,left,right,← LineBuffer.deleteBefore_behind positive inside]
    exact ⟨rfl,trivial,by simp⟩

end

/-- An entry of the history with a flag, half a flag, two pictographs that are joined, and a letter with an accent. -/
theorem boundaries_walked_flags :
    let e : Editor := ⟨⟨['🇦','🇧'],['🇨','👩','\u200d','👧','e','\u0301']⟩,.browsing,none⟩
    let h := History.inMemory 1 true
    let o : Outlook := ⟨⟨.empty,[]⟩,fun _ => [],⟨0,fun _ => none,fun _ => none⟩⟩
    (∀ s, e.mode ≠ .searching s) ∧
      (pressAll e h [(o,.home),(o,.right),(o,.right),(o,.right)]).1.buffer.cursor = 23 ∧
      (pressAll e h [(o,.toEnd),(o,.left),(o,.left),(o,.left)]).1.buffer.cursor = 8 ∧
      (pressAll e h [(o,.left),(o,.right)]).1.buffer = e.buffer ∧
      pressAll e h [(o,.backspace)] = pressAll e h [(o,.left),(o,.delete)] := by
  intro e h o
  have idle : ∀ s, e.mode ≠ .searching s := fun s searching => by cases searching
  obtain ⟨-,forth,back,turn⟩ := boundaries_walked idle h
  obtain ⟨-,there,same⟩ := turn 1 (by decide) (by decide +kernel) (by decide +kernel) o o
  exact ⟨idle,((forth _ 3 rfl).2).trans (by decide +kernel),((back _ 3 rfl).2).trans (by decide +kernel),there,same⟩

end Editor
end JobShell

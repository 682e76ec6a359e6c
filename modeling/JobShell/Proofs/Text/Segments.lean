import JobShell.Proofs.Text.Cuts
import JobShell.Text.Segmentation
import Mathlib.Data.List.Infix

/-!
# What is asked of a segmentation

Whatever the clusters of a text are, they are pieces of it that follow one
another, and none is empty (`Segmentation.Consecutive`). More is needed for the
cursor to go along the same places in both directions (`Segmentation.Lawful`):
both directions read the same clusters; where a cluster of a text ends, the text
can be cut, and its parts have the clusters that they had in the text; and what
is added to a text changes no cluster but the last. The rules of Unicode have
these properties, since none of them looks back over the end of a cluster, or
ahead over more than one character.
-/
namespace JobShell
namespace Segmentation

/-- The clusters of a text are consecutive pieces of it that are not empty, from the front as from the back. -/
class Consecutive [Segmentation] : Prop where
  flatten_clusters (t : Text) : (clusters t).flatten = t
  ne_nil_of_mem_clusters {t g : Text} (mem : g ∈ clusters t) : g ≠ []
  lastCluster?_split {t g : Text} {n : Nat} (last : lastCluster? t = some (n,g)) :
    g ≠ [] ∧ ∃ a, t = a ++ g ∧ n = Text.width a

/-- The rules that decide where a cluster ends look neither back over the end of one nor far ahead. -/
class Lawful [Segmentation] : Prop extends Consecutive where
  /-- The first cluster from the back is the last one from the front. -/
  lastCluster?_eq (t : Text) : (lastCluster? t).map Prod.snd = (clusters t).getLast?
  /-- Where a cluster ends a text can be cut. -/
  clusters_cut (t : Text) (n : Nat) :
    clusters t = clusters ((clusters t).take n).flatten ++ clusters ((clusters t).drop n).flatten
  /-- Only the last cluster of a text may change when more is added to the text. -/
  clusters_prefix (t more : Text) : (clusters t).dropLast <+: clusters (t ++ more)

/-- The clusters of two texts together are those of each: the texts do not join. -/
def Apart [Segmentation] (a b : Text) : Prop := clusters (a ++ b) = clusters a ++ clusters b

instance [Segmentation] (a b : Text) : Decidable (Apart a b) := inferInstanceAs (Decidable (_ = _))

/-- The byte position behind the first `i` clusters of a text. -/
def boundary [Segmentation] (t : Text) (i : Nat) : Nat := Text.width ((clusters t).take i).flatten

section
variable [Segmentation]

/-! ### Texts that are cut -/

theorem cutFirst_append (t : Text) : (cutFirst t).1 ++ (cutFirst t).2 = t := by
  rw [cutFirst]
  split
  · exact List.take_append_drop _ t
  · exact List.append_nil t

theorem cutLast_append (t : Text) : (cutLast t).1 ++ (cutLast t).2 = t := by
  rw [cutLast]
  split
  · exact List.take_append_drop _ t
  · rfl

theorem cutFirst_nil : cutFirst [] = ([],[]) := by
  rw [cutFirst]
  split
  · rw [List.take_nil,List.drop_nil]
  · rfl

theorem cutLast_nil : cutLast [] = ([],[]) := by
  rw [cutLast]
  split
  · rw [List.take_nil,List.drop_nil]
  · rfl

end

/-! ### Pieces -/

section
variable [Segmentation] [Consecutive]
open Consecutive

theorem clusters_nil : clusters [] = [] := by
  refine List.eq_nil_iff_forall_not_mem.mpr fun g mem => ne_nil_of_mem_clusters mem ?_
  exact List.flatten_eq_nil_iff.mp (flatten_clusters []) g mem

theorem clusters_ne_nil {t : Text} (nonempty : t ≠ []) : clusters t ≠ [] := by
  intro none
  have whole := flatten_clusters t
  rw [none] at whole
  exact nonempty whole.symm

theorem cutFirst_eq {t g : Text} {more : List Text} (pieces : clusters t = g :: more) : cutFirst t = (g,more.flatten) := by
  have whole := flatten_clusters t
  rw [pieces,List.flatten_cons] at whole
  rw [cutFirst,pieces,List.head?_cons]
  simp only [← whole,List.take_left,List.drop_left]

/-- The position that comes with the last cluster is where the text is cut before it. -/
theorem lastCluster?_start (t : Text) : ((lastCluster? t).map Prod.fst).getD 0 = Text.width (cutLast t).1 := by
  rw [cutLast]
  split
  · next n g last =>
    obtain ⟨-,a,rfl,rfl⟩ := lastCluster?_split last
    rw [last]
    simp
  · next last =>
    rw [last]
    rfl

theorem boundary_of_length_le {t : Text} {i : Nat} (all : (clusters t).length ≤ i) : boundary t i = Text.width t := by
  rw [boundary,List.take_of_length_le all,flatten_clusters]

theorem boundary_lt_succ {t : Text} {i : Nat} (inside : i < (clusters t).length) : boundary t i < boundary t (i+1) := by
  have nonempty := ne_nil_of_mem_clusters (List.getElem_mem inside)
  rw [boundary,boundary,List.take_succ_eq_append_getElem inside,List.flatten_append,List.flatten_singleton,
    Text.width_append]
  exact Nat.lt_add_of_pos_right (Text.width_pos nonempty)

theorem boundary_lt {t : Text} {i j : Nat} (before : i < j) (inside : j ≤ (clusters t).length) :
    boundary t i < boundary t j := by
  obtain ⟨d,rfl⟩ := Nat.exists_eq_add_of_lt before
  induction d with
  | zero => exact boundary_lt_succ inside
  | succ d ih => exact Nat.lt_trans (ih (by omega) (by omega)) (boundary_lt_succ inside)

/-- Different numbers of clusters end at different places. -/
theorem boundary_inj {t : Text} {i j : Nat} (left : i ≤ (clusters t).length) (right : j ≤ (clusters t).length)
    (same : boundary t i = boundary t j) : i = j := by
  rcases Nat.lt_trichotomy i j with before | equal | behind
  · exact absurd same (Nat.ne_of_lt (boundary_lt before right))
  · exact equal
  · exact absurd same.symm (Nat.ne_of_lt (boundary_lt behind left))

end

/-! ### Parts of a text -/

section
variable [Segmentation] [Lawful]
open Consecutive Lawful

/-- The beginning of a text up to the end of a cluster has the clusters that it has in the text. -/
theorem clusters_take (t : Text) (n : Nat) : clusters ((clusters t).take n).flatten = (clusters t).take n := by
  have parts := clusters_cut t n
  generalize first : clusters ((clusters t).take n).flatten = front at parts
  have taken : (clusters t).take front.length = front := by
    rw [parts,List.take_left]
  have count : front.length ≤ (clusters t).length := by
    rw [← taken]
    exact List.length_take_le' ..
  -- As many clusters as the beginning has end where the beginning ends.
  have place : boundary t front.length = boundary t (min n (clusters t).length) := by
    rw [boundary,taken,← first,flatten_clusters,boundary,← List.take_eq_take_min]
  have same := boundary_inj count (Nat.min_le_right _ _) place
  rw [← taken,same,← List.take_eq_take_min]

/-- So does the end of a text from there on. -/
theorem clusters_drop (t : Text) (n : Nat) : clusters ((clusters t).drop n).flatten = (clusters t).drop n := by
  have parts := clusters_cut t n
  rw [clusters_take] at parts
  exact List.append_cancel_left (parts.symm.trans (List.take_append_drop n _).symm)

/-- Where a cluster of a text ends, its parts do not join. -/
theorem apart_of_flatten {a b : Text} {n : Nat} (ends : ((clusters (a ++ b)).take n).flatten = a) : Apart a b := by
  have rest : ((clusters (a ++ b)).drop n).flatten = b := by
    have whole := flatten_clusters (a ++ b)
    rw [← List.take_append_drop n (clusters (a ++ b)),List.flatten_append,ends] at whole
    exact List.append_cancel_left whole
  have parts := clusters_cut (a ++ b) n
  rwa [ends,rest] at parts

theorem apart_nil_left (b : Text) : Apart [] b := apart_of_flatten (n := 0) rfl

theorem apart_nil_right (a : Text) : Apart a [] := by
  rw [Apart,List.append_nil,clusters_nil,List.append_nil]

theorem Apart.append_right {a b : Text} (apart : Apart a b) (nonempty : b ≠ []) (c : Text) : Apart a (b ++ c) := by
  have kept := clusters_prefix (a ++ b) c
  rw [apart,List.dropLast_append_of_ne_nil (clusters_ne_nil nonempty),List.append_assoc] at kept
  obtain ⟨more,whole⟩ := kept
  refine apart_of_flatten (n := (clusters a).length) ?_
  rw [← whole,List.append_assoc,List.take_left,flatten_clusters]

/-- The first cluster behind a place where a text is cut goes over to the text before it. -/
theorem Apart.cutFirst {a b : Text} (apart : Apart a b) : Apart (a ++ (cutFirst b).1) (cutFirst b).2 := by
  cases pieces : clusters b with
  | nil =>
    have empty : b = [] := by
      rw [← flatten_clusters b,pieces]
      rfl
    rw [empty,cutFirst_nil]
    exact apart_nil_right _
  | cons g more =>
    have whole := flatten_clusters b
    have cut := cutFirst_eq pieces
    have text : a ++ g ++ more.flatten = a ++ b := by
      rw [← whole,pieces,List.flatten_cons,List.append_assoc]
    rw [cut]
    refine apart_of_flatten (n := (clusters a).length + 1) ?_
    rw [text,apart,pieces,List.take_length_add_append,List.take_succ_cons,List.take_zero,List.flatten_append,
      flatten_clusters,List.flatten_singleton]

theorem cutLast_eq {t g : Text} {front : List Text} (pieces : clusters t = front ++ [g]) : cutLast t = (front.flatten,g) := by
  have last := lastCluster?_eq t
  rw [pieces,List.getLast?_concat,Option.map_eq_some_iff] at last
  obtain ⟨⟨n,_⟩,found,rfl⟩ := last
  have whole := flatten_clusters t
  rw [pieces,List.flatten_append,List.flatten_singleton] at whole
  rw [cutLast,found]
  simp [← whole]

/-- A text that is not empty is cut before its last cluster. -/
theorem exists_cutLast {t : Text} (nonempty : t ≠ []) :
    ∃ front g, clusters t = front ++ [g] ∧ cutLast t = (front.flatten,g) := by
  obtain ⟨front,g,pieces⟩ := (List.eq_nil_or_concat (clusters t)).resolve_left (clusters_ne_nil nonempty)
  rw [List.concat_eq_append] at pieces
  exact ⟨front,g,pieces,cutLast_eq pieces⟩

theorem apart_cutLast (t more : Text) : Apart (cutLast t).1 ((cutLast t).2 ++ more) := by
  by_cases empty : t = []
  · rw [empty,cutLast_nil]
    exact apart_nil_left _
  · obtain ⟨front,g,pieces,cut⟩ := exists_cutLast empty
    have whole := cutLast_append t
    have some : g ≠ [] := ne_nil_of_mem_clusters (t := t) (by simp [pieces])
    rw [cut] at whole ⊢
    have apart : Apart front.flatten g := apart_of_flatten (n := front.length) (by rw [whole,pieces,List.take_left])
    exact apart.append_right some more

/-- The last cluster of a text is one cluster when it stands alone. -/
theorem clusters_cutLast {t : Text} (nonempty : t ≠ []) : clusters (cutLast t).2 = [(cutLast t).2] := by
  obtain ⟨front,g,pieces,cut⟩ := exists_cutLast nonempty
  have last := clusters_drop t front.length
  rw [pieces,List.drop_left,List.flatten_singleton] at last
  rw [cut,last]

end

end Segmentation
end JobShell

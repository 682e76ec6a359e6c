import JobShell.Proofs.Text.Order
import JobShell.Session.Vocabulary
import Mathlib.Data.List.TakeWhile

/-!
# The names that begin with a text

The commands of the search path are kept in the order of their bytes, and those
that begin with a text are read from where that text would stand until the first
one that does not begin with it. Nothing is missed: names that begin with a text
are not before it, and no other name stands between two of them
(`Text.start_of_between`). So the scan is a filter, and together with the built-in
commands and the aliases it gives the vocabulary of a beginning
(`Vocabulary.withStart_exact`).
-/
namespace JobShell

namespace Text
open Utf8

/-- Texts in increasing order of their bytes, each once. -/
def Increasing (l : List Text) : Prop := l.Pairwise fun a b => encode a < encode b

theorem encode_injective {a b : Text} (same : encode a = encode b) : a = b := by
  have decoded := decode?_encode a
  rw [same,decode?_encode] at decoded
  exact (Option.some.inj decoded).symm

theorem not_before_of_start {p t : Text} (start : p <+: t) : ¬before t p = true := by
  obtain ⟨rest,rfl⟩ := start
  induction p with
  | nil => cases rest <;> exact Bool.false_ne_true
  | cons c r ih =>
    rw [List.cons_append,before,if_pos rfl]
    exact ih

/-- What stands between a beginning and a text that has it has it too. -/
theorem start_of_between {p s t : Text} (low : ¬before s p = true) (high : before s t = true) (start : p <+: t) :
    p <+: s := by
  obtain ⟨rest,rfl⟩ := start
  induction p generalizing s with
  | nil => exact List.nil_prefix
  | cons c r ih =>
    cases s with
    | nil => exact absurd rfl low
    | cons d s =>
      rw [List.cons_append,before] at high
      rw [before] at low
      by_cases same : d = c
      · rw [if_pos same] at low high
        rw [same,List.prefix_cons_inj]
        exact ih low high
      · rw [if_neg same] at low high
        exact absurd high low

/-- From a place that is not before the beginning the scan stops only after the last name that has it. -/
theorem takeWhile_start {l : List Text} {p : Text} (increasing : Increasing l) (low : ∀ t ∈ l, ¬before t p = true) :
    l.takeWhile p.isPrefixOf = l.filter p.isPrefixOf := by
  induction l with
  | nil => rfl
  | cons s r ih =>
    obtain ⟨first,rest⟩ := List.pairwise_cons.mp increasing
    by_cases start : p.isPrefixOf s = true
    · rw [List.takeWhile_cons_of_pos start,List.filter_cons_of_pos start,
        ih rest (fun t mem => low t (List.mem_cons_of_mem s mem))]
    · rw [List.takeWhile_cons_of_neg start,List.filter_cons_of_neg start]
      symm
      rw [List.filter_eq_nil_iff]
      intro t mem later
      rw [List.isPrefixOf_iff_prefix] at later start
      exact start (start_of_between (low s List.mem_cons_self) (before_iff.mpr (first t mem)) later)

theorem takeWhile_dropWhile_start {l : List Text} (increasing : Increasing l) (p : Text) :
    (l.dropWhile (fun t => before t p)).takeWhile p.isPrefixOf = l.filter p.isPrefixOf := by
  induction l with
  | nil => rfl
  | cons s r ih =>
    obtain ⟨first,rest⟩ := List.pairwise_cons.mp increasing
    by_cases skipped : before s p = true
    · have other : ¬p.isPrefixOf s = true := by
        intro start
        exact not_before_of_start (List.isPrefixOf_iff_prefix.mp start) skipped
      rw [List.dropWhile_cons,if_pos skipped,List.filter_cons_of_neg other,ih rest]
    · rw [List.dropWhile_cons,if_neg skipped]
      apply takeWhile_start increasing
      intro t mem
      rcases List.mem_cons.mp mem with same | later
      · rw [same]
        exact skipped
      · intro less
        exact skipped (before_iff.mpr (List.lt_trans (first t later) (before_iff.mp less)))

theorem increasing_sortUnique (l : List Text) : Increasing (sortUnique l) := by
  have sorted := pairwise_mergeSort l
  rw [sortUnique]
  generalize l.mergeSort atMost = sortedTexts at sorted
  induction sortedTexts with
  | nil => exact List.Pairwise.nil
  | cons s r ih =>
    obtain ⟨first,rest⟩ := List.pairwise_cons.mp sorted
    have increasing := ih rest
    have kept := foldr_insertFront_sublist r
    rw [List.foldr_cons]
    revert increasing kept
    -- Only the first of the texts behind `s` can be equal to it.
    cases r.foldr sortUnique.insertFront [] with
    | nil =>
      intro _ _
      exact List.pairwise_singleton _ s
    | cons t back =>
      intro increasing kept
      rw [sortUnique.insertFront]
      by_cases same : s = t
      · rw [if_pos same]
        exact increasing
      · rw [if_neg same]
        have less : encode s < encode t := by
          rcases List.le_iff_lt_or_eq.mp (first t (kept.subset List.mem_cons_self)) with less | equal
          · exact less
          · exact absurd (encode_injective equal) same
        refine List.pairwise_cons.mpr ⟨?_,increasing⟩
        intro u mem
        rcases List.mem_cons.mp mem with same' | later
        · rw [same']
          exact less
        · exact List.lt_trans less ((List.pairwise_cons.mp increasing).1 u later)

/-! ### The built-in commands are found by halving their list -/

/-- Whether a text is in a list in increasing order: the middle of the list tells in which half it would be. -/
def isAmong (t : Text) (l : List Text) : Bool :=
  match _ : l.drop (l.length/2) with
  | [] => false
  | m :: back => if t = m then true else if before t m then isAmong t (l.take (l.length/2)) else isAmong t back
termination_by l.length
decreasing_by
  all_goals
    have length := congrArg List.length ‹l.drop (l.length/2) = m :: back›
    simp at length ⊢
    omega

theorem halves {l : List Text} {n : Nat} {m : Text} {back : List Text} (increasing : Increasing l)
    (found : l.drop n = m :: back) :
    (∀ t, t ∈ l ↔ t ∈ l.take n ∨ t ∈ m :: back) ∧ Increasing (l.take n) ∧ Increasing (m :: back) ∧
      ∀ t ∈ l.take n, ∀ u ∈ m :: back, encode t < encode u := by
  have whole := List.take_append_drop n l
  rw [found] at whole
  refine ⟨?_,List.pairwise_append.mp (by rwa [whole])⟩
  intro t
  rw [← List.mem_append,whole]

theorem isAmong_eq_true_iff {t : Text} {l : List Text} (increasing : Increasing l) : isAmong t l = true ↔ t ∈ l := by
  fun_induction isAmong t l with
  | case1 l none =>
    have short := List.drop_eq_nil_iff.mp none
    have empty : l = [] := by
      rw [← List.length_eq_zero_iff]
      omega
    simp [empty]
  | case2 l back found =>
    refine iff_of_true rfl (List.mem_of_mem_drop (i := l.length/2) ?_)
    rw [found]
    exact List.mem_cons_self
  | case3 l m back found other less ih =>
    obtain ⟨parts,front,rest,cross⟩ := halves increasing found
    rw [ih front,parts]
    refine ⟨.inl,?_⟩
    intro mem
    rcases mem with mem | mem
    · exact mem
    · rcases List.mem_cons.mp mem with same | later
      · exact absurd same other
      · have greater := (List.pairwise_cons.mp rest).1 t later
        exact absurd (before_iff.mp less) (List.lt_asymm greater)
  | case4 l m back found other notLess ih =>
    obtain ⟨parts,front,rest,cross⟩ := halves increasing found
    rw [ih (List.pairwise_cons.mp rest).2,parts,List.mem_cons]
    refine ⟨fun mem => .inr (.inr mem),?_⟩
    intro mem
    rcases mem with mem | same | mem
    · exact absurd (before_iff.mpr (cross t mem m List.mem_cons_self)) notLess
    · exact absurd same other
    · exact mem

theorem increasing_builtinNames : Increasing builtinNames := by
  have before : builtinNames.Pairwise fun a b => before a b = true := by decide
  exact before.imp before_iff.mp

end Text

theorem isBuiltin_eq_isAmong (name : Text) : isBuiltin name = Text.isAmong name builtinNames := by
  rw [Bool.eq_iff_iff,Text.isAmong_eq_true_iff Text.increasing_builtinNames,isBuiltin,List.contains_iff_mem]

namespace PathCache

theorem increasing_empty : Text.Increasing empty.commands := List.Pairwise.nil

/-- However often the search path is read, its commands are in order. -/
theorem increasing_refresh {c : PathCache} (increasing : Text.Increasing c.commands) (path : Text)
    (executables : Text → List Text) : Text.Increasing (c.refresh path executables).commands := by
  rw [refresh]
  by_cases same : c.path = some path
  · rw [if_pos same]
    exact increasing
  · rw [if_neg same]
    exact Text.increasing_sortUnique _

theorem withStart_eq_filter {c : PathCache} (increasing : Text.Increasing c.commands) (start : Text) :
    c.withStart start = c.commands.filter start.isPrefixOf :=
  Text.takeWhile_dropWhile_start increasing start

end PathCache

namespace Vocabulary

theorem mem_withStart {u : Vocabulary} (increasing : Text.Increasing u.path.commands) {start name : Text} :
    name ∈ u.withStart start ↔
      start <+: name ∧ (name ∈ builtinNames ∨ name ∈ u.aliases ∨ name ∈ u.path.commands) := by
  rw [withStart,PathCache.withStart_eq_filter increasing,Text.mem_sortUnique,← List.filter_append,← List.filter_append,
    List.mem_filter,List.mem_append,List.mem_append,List.isPrefixOf_iff_prefix,and_comm,or_assoc]

theorem contains_iff {u : Vocabulary} {name : Text} :
    u.contains name = true ↔ name ∈ builtinNames ∨ name ∈ u.aliases ∨ name ∈ u.path.commands := by
  rw [contains,isBuiltin,PathCache.hasCommand,Bool.or_eq_true,Bool.or_eq_true,List.contains_iff_mem,
    List.contains_iff_mem,List.contains_iff_mem,or_assoc]

/-- **The scan for a beginning is a filter.** The commands of the search path that are read from where `start` would stand
    up to the first one that does not begin with it are all that begin with it. The vocabulary of `start` has the built-in
    commands, the aliases and the commands of the search path that begin with it and nothing else, in increasing order of
    their bytes and each once; and a name is that of a command exactly when it is in its own vocabulary. -/
theorem withStart_exact (u : Vocabulary) (increasing : Text.Increasing u.path.commands) (start : Text) :
    u.path.withStart start = u.path.commands.filter start.isPrefixOf ∧
    Text.Increasing (u.withStart start) ∧
    (∀ name, name ∈ u.withStart start ↔
      start <+: name ∧ (name ∈ builtinNames ∨ name ∈ u.aliases ∨ name ∈ u.path.commands)) ∧
    (∀ name, u.contains name = true ↔ name ∈ u.withStart name) := by
  refine ⟨PathCache.withStart_eq_filter increasing start,Text.increasing_sortUnique _,?_,?_⟩
  · intro name
    exact mem_withStart increasing
  · intro name
    rw [contains_iff,mem_withStart increasing]
    exact (and_iff_right (List.prefix_refl name)).symm

/-- Names of several bytes, one of which is that of an alias too. -/
theorem withStart_exact_accents :
    let u : Vocabulary := ⟨⟨[txt "cat",txt "e",txt "échec",txt "été",txt "日本"],some (txt "/bin")⟩,[txt "été",txt "aé"]⟩
    u.path.withStart (txt "é") = [txt "échec",txt "été"] ∧ Text.Increasing (u.withStart (txt "é")) ∧
      txt "été" ∈ u.withStart (txt "é") ∧ txt "e" ∉ u.withStart (txt "é") ∧ txt "cd" ∈ u.withStart [] ∧
      txt "日本" ∈ u.withStart (txt "日本") := by
  intro u
  have increasing : Text.Increasing u.path.commands := by
    have before : u.path.commands.Pairwise fun a b => Text.before a b = true := by decide
    exact before.imp Text.before_iff.mp
  obtain ⟨scan,order,vocabulary,-⟩ := withStart_exact u increasing (txt "é")
  obtain ⟨-,-,all,own⟩ := withStart_exact u increasing []
  refine ⟨scan.trans (by decide),order,(vocabulary _).mpr (by decide),?_,(all _).mpr (by decide),(own _).mp (by decide)⟩
  intro mem
  exact absurd ((vocabulary _).mp mem).1 (by decide)

end Vocabulary
end JobShell

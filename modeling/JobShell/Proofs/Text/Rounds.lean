import Mathlib.Logic.Basic

/-!
# Loops

A round of a loop goes on with another state, ends the loop with a result, or
breaks down. A loop has a result exactly when it ends after some number of
rounds; a loop that breaks down has none, and neither has one that goes on
forever.
-/
namespace JobShell

variable {α β : Type} {round : α → Option (α ⊕ β)} {a next : α} {b c : β} {n m : Nat}

/-- The result of a loop that ends within a number of rounds. -/
def within? (round : α → Option (α ⊕ β)) : Nat → α → Option β
  | 0, _ => none
  | n+1, a => (round a).bind (Sum.elim (within? round n) some)

open Classical in
/-- The result of a loop. -/
noncomputable def loop? (round : α → Option (α ⊕ β)) (a : α) : Option β :=
  if ends : ∃ b n, within? round n a = some b then some ends.choose else none

theorem within?_mono (fits : n ≤ m) (ends : within? round n a = some b) : within? round m a = some b := by
  induction n generalizing m a with
  | zero => cases ends
  | succ n ih =>
    cases m with
    | zero => exact absurd fits (Nat.not_succ_le_zero n)
    | succ m =>
      obtain ⟨result,here,later⟩ := Option.bind_eq_some_iff.mp ends
      refine Option.bind_eq_some_iff.mpr ⟨result,here,?_⟩
      cases result with
      | inl next => exact ih (Nat.le_of_succ_le_succ fits) later
      | inr b => exact later

theorem within?_unique (ends : within? round n a = some b) (ends' : within? round m a = some c) : b = c :=
  Option.some.inj ((within?_mono (Nat.le_max_left n m) ends).symm.trans (within?_mono (Nat.le_max_right n m) ends'))

theorem loop?_eq_some_iff : loop? round a = some b ↔ ∃ n, within? round n a = some b := by
  constructor
  · intro found
    by_cases ends : ∃ b n, within? round n a = some b
    · rw [loop?,dif_pos ends,Option.some.injEq] at found
      exact found ▸ ends.choose_spec
    · rw [loop?,dif_neg ends] at found
      cases found
  · rintro ⟨n,here⟩
    have ends : ∃ b n, within? round n a = some b := ⟨b,n,here⟩
    obtain ⟨m,chosen⟩ := ends.choose_spec
    rw [loop?,dif_pos ends,within?_unique chosen here]

/-- After a round that goes on the loop is where the round has led. -/
theorem loop?_next (here : round a = some (.inl next)) : loop? round a = loop? round next := by
  ext b
  rw [loop?_eq_some_iff,loop?_eq_some_iff]
  constructor
  · rintro ⟨n,ends⟩
    cases n with
    | zero => cases ends
    | succ n =>
      rw [within?,here] at ends
      exact ⟨n,ends⟩
  · rintro ⟨n,ends⟩
    refine ⟨n+1,?_⟩
    rw [within?,here]
    exact ends

theorem loop?_done (here : round a = some (.inr b)) : loop? round a = some b := by
  refine loop?_eq_some_iff.mpr ⟨1,?_⟩
  rw [within?,here]
  rfl

theorem loop?_breaks (here : round a = none) : loop? round a = none := by
  rw [Option.eq_none_iff_forall_ne_some]
  intro b found
  obtain ⟨n,ends⟩ := loop?_eq_some_iff.mp found
  cases n with
  | zero => cases ends
  | succ n =>
    rw [within?,here] at ends
    cases ends

end JobShell

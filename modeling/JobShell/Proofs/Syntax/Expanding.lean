import JobShell.Proofs.Text.Splitting
import JobShell.Syntax.Expansion
import Mathlib.Tactic.SplitIfs

/-!
# Texts without a meaning of their own

Only backslashes, dollar signs, back quotes and a tilde in its place make a text
something else than its characters.
-/
namespace JobShell
namespace Expansion

/-- Characters that are not special stand for themselves. -/
theorem body_append (s : Surroundings) (inDouble : Bool) {a : Text} (plain : a.any isSpecial = false) (b : Text) :
    body s inDouble 0 (a ++ b) = a.map .char ++ body s inDouble 0 b := by
  induction a with
  | nil => rfl
  | cons c r ih =>
    rw [List.any_cons,Bool.or_eq_false_iff] at plain
    obtain ⟨first,rest⟩ := plain
    simp only [isSpecial,Bool.or_eq_false_iff,decide_eq_false_iff_not] at first
    obtain ⟨⟨noBackslash,noDollar⟩,noTick⟩ := first
    rw [List.cons_append,body,if_neg noBackslash,if_neg noDollar,if_neg noTick,ih rest]
    rfl

theorem body_plain (s : Surroundings) (inDouble : Bool) {t : Text} (plain : t.any isSpecial = false) :
    body s inDouble 0 t = t.map .char := by
  have whole := body_append s inDouble plain []
  simpa [body] using whole

/-- Where a tilde is expanded, and what stands before it and after it. -/
theorem tilde?_eq_some {s : Surroundings} {last : Bool} {t before home tail : Text}
    (h : tilde? s last t = some (before,home,tail)) :
    ∃ user, t = before ++ '~' :: (user ++ tail) ∧ before.any isSpecial = false ∧ user.any isSpecial = false := by
  unfold tilde? at h
  obtain ⟨⟨front,rest⟩,start,found⟩ := Option.bind_eq_some_iff.mp h
  dsimp only at found
  have place : t = front ++ rest ∧ front.any isSpecial = false ∧ rest.head? = some '~' := by
    by_cases first : t.head? = some '~'
    · rw [if_pos first] at start
      cases start
      exact ⟨rfl,rfl,first⟩
    · rw [if_neg first] at start
      obtain ⟨later,condition⟩ := Option.filter_eq_some_iff.mp start
      obtain ⟨⟨a,b⟩,split,equal⟩ := Option.map_eq_some_iff.mp later
      cases equal
      obtain ⟨whole,_⟩ := Text.splitAt?_eq_some_iff.mp split
      simp only [Bool.and_eq_true,Bool.not_eq_true',decide_eq_true_eq] at condition
      exact ⟨by rw [whole]; simp,condition⟩
  obtain ⟨whole,plain,tilde⟩ := place
  obtain ⟨r,rfl⟩ := List.head?_eq_some_iff.mp tilde
  split_ifs at found with closed special
  obtain ⟨home',_,equal⟩ := Option.map_eq_some_iff.mp found
  cases equal
  refine ⟨r.takeWhile (· != '/'),?_,plain,by simpa using special⟩
  rw [whole,List.tail_cons,List.takeWhile_append_dropWhile]

/-- No tilde is expanded in a text without one. -/
theorem tilde?_eq_none (s : Surroundings) (last : Bool) {t : Text} (noTilde : '~' ∉ t) : tilde? s last t = none := by
  cases h : tilde? s last t with
  | none => rfl
  | some p =>
    obtain ⟨before,home,tail⟩ := p
    obtain ⟨user,whole,_⟩ := tilde?_eq_some h
    exact absurd (by rw [whole]; simp) noTilde

/-- No tilde is expanded in a text that begins with a special character. -/
theorem tilde?_special (s : Surroundings) (last : Bool) {c : Char} (special : isSpecial c = true) (r : Text) :
    tilde? s last (c :: r) = none := by
  cases h : tilde? s last (c :: r) with
  | none => rfl
  | some p =>
    obtain ⟨before,home,tail⟩ := p
    obtain ⟨user,whole,plain,_⟩ := tilde?_eq_some h
    cases before with
    | nil =>
      rw [List.nil_append,List.cons.injEq] at whole
      rw [whole.1] at special
      exact absurd special (by decide)
    | cons d b =>
      rw [List.cons_append,List.cons.injEq] at whole
      rw [List.any_cons,← whole.1,special,Bool.true_or] at plain
      cases plain

end Expansion
end JobShell

import JobShell.Proofs.Text.Encoding

/-!
# The order of texts

Texts are ordered by their characters. This is the order of their UTF-8 forms by
bytes (`Text.before_iff`), so what is sorted by characters is sorted by bytes.
-/
namespace JobShell

namespace Utf8

theorem ofNat_lt_iff {m n : Nat} (small : m < 256) (small' : n < 256) : UInt8.ofNat m < UInt8.ofNat n ↔ m < n := by
  rw [UInt8.lt_iff_toNat_lt,toNat_ofNat small,toNat_ofNat small']

theorem ofNat_eq_iff {m n : Nat} (small : m < 256) (small' : n < 256) : UInt8.ofNat m = UInt8.ofNat n ↔ m = n := by
  rw [← UInt8.toNat_inj,toNat_ofNat small,toNat_ofNat small']

/-- The bytes of a character are before those of every later one, whatever comes after them. -/
theorem encodeChar_lt {c d : Char} (less : c.toNat < d.toNat) (a b : Bytes) : encodeChar c ++ a < encodeChar d ++ b := by
  have bound : d.toNat < 0x110000 := by
    rcases d.valid with low | high
    · exact Nat.lt_trans low (by decide)
    · exact high.2
  -- A longer form begins with a greater byte; in forms of the same length the first bytes hold the higher digits.
  simp only [encodeChar]
  split_ifs
  all_goals
    simp (disch := omega) only [List.cons_append,List.nil_append,List.cons_lt_cons_iff,ofNat_lt_iff,ofNat_eq_iff]
    omega

theorem append_lt_append_iff (front a b : Bytes) : front ++ a < front ++ b ↔ a < b := by
  induction front with
  | nil => rfl
  | cons x r ih => simp [ih]

end Utf8

namespace Text
open Utf8

/-- The order of texts by characters is their order by bytes. -/
theorem before_iff {a b : Text} : before a b = true ↔ encode a < encode b := by
  fun_induction before a b with
  | case1 => simp
  | case2 d s =>
    obtain ⟨x,more,bytes,-⟩ := head_encodeChar d []
    rw [encode_cons,bytes]
    exact iff_of_true rfl (List.nil_lt_cons _ _)
  | case3 c r => simp [encode]
  | case4 c r s ih => rw [ih,encode_cons,encode_cons,append_lt_append_iff]
  | case5 c r d s other =>
    rw [decide_eq_true_eq,encode_cons,encode_cons]
    by_cases less : c.toNat < d.toNat
    · exact iff_of_true less (encodeChar_lt less _ _)
    · have greater : d.toNat < c.toNat := by
        have different : c.toNat ≠ d.toNat := fun same => other (Char.toNat_inj.mp same)
        omega
      exact iff_of_false less (List.lt_asymm (encodeChar_lt greater _ _))

theorem atMost_iff {a b : Text} : atMost a b = true ↔ encode a ≤ encode b := by
  rw [atMost,Bool.not_eq_true',← List.not_lt,← before_iff,Bool.not_eq_true]

/-- Sorted texts are in the order of their bytes. -/
theorem pairwise_mergeSort (l : List Text) : (l.mergeSort atMost).Pairwise fun a b => encode a ≤ encode b := by
  have trans : ∀ a b c, atMost a b = true → atMost b c = true → atMost a c = true := fun a b c first second =>
    atMost_iff.mpr (List.le_trans (atMost_iff.mp first) (atMost_iff.mp second))
  have total : ∀ a b, (atMost a b || atMost b a) = true := by
    intro a b
    rw [Bool.or_eq_true,atMost_iff,atMost_iff]
    exact List.le_total _ _
  exact (List.pairwise_mergeSort trans total l).imp atMost_iff.mp

/-! ### Each text once -/

theorem insertFront_cases (s : Text) (l : List Text) :
    sortUnique.insertFront s l = s :: l ∨ sortUnique.insertFront s l = l ∧ s ∈ l := by
  cases l with
  | nil => exact .inl rfl
  | cons t r =>
    rw [sortUnique.insertFront]
    split_ifs with same
    · exact .inr ⟨rfl,same ▸ List.mem_cons_self⟩
    · exact .inl rfl

theorem mem_sortUnique {t : Text} {l : List Text} : t ∈ sortUnique l ↔ t ∈ l := by
  have fold : ∀ l : List Text, t ∈ l.foldr sortUnique.insertFront [] ↔ t ∈ l := by
    intro l
    induction l with
    | nil => rfl
    | cons s r ih =>
      rw [List.foldr_cons,List.mem_cons,← ih]
      rcases insertFront_cases s (r.foldr sortUnique.insertFront []) with new | ⟨old,mem⟩
      · rw [new,List.mem_cons]
      · rw [old]
        exact ⟨.inr,fun found => found.elim (fun same => same ▸ mem) id⟩
  rw [sortUnique,fold,List.mem_mergeSort]

theorem foldr_insertFront_sublist (l : List Text) : (l.foldr sortUnique.insertFront []).Sublist l := by
  induction l with
  | nil => exact List.Sublist.slnil
  | cons s r ih =>
    rw [List.foldr_cons]
    rcases insertFront_cases s (r.foldr sortUnique.insertFront []) with new | ⟨old,-⟩
    · rw [new]
      exact ih.cons_cons s
    · rw [old]
      exact ih.cons s

theorem pairwise_sortUnique (l : List Text) : (sortUnique l).Pairwise fun a b => encode a ≤ encode b :=
  (pairwise_mergeSort l).sublist (foldr_insertFront_sublist _)

end Text
end JobShell

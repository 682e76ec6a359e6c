import JobShell.Text.Numeral

/-!
# Numerals are read back

The decimal form of a number in the range of a reader is read as that number.
Zeros before it do not change the number, nor does a plus sign before them, and
nothing else can stand there (`Numeral.readNat_append_ofNat`).
-/
namespace JobShell
namespace Numeral

theorem isDigit_of_mem_ofNat {n : Nat} {c : Char} (h : c ∈ ofNat n) : c.isDigit = true :=
  Nat.isDigit_of_mem_toDigits (by decide) (by decide) h

theorem ofNat_ne_nil (n : Nat) : ofNat n ≠ [] := Nat.toDigits_ne_nil

theorem readDigits_ofNat (n : Nat) : readDigits (ofNat n) = some n := by
  have digits : (ofNat n).all Char.isDigit = true := List.all_eq_true.mpr fun _ h => isDigit_of_mem_ofNat h
  have value : (ofNat n).foldl (fun n c => 10*n + digit c) 0 = n :=
    Nat.ofDigitChars_eq_foldl.symm.trans Nat.ofDigitChars_ten_toDigits
  unfold readDigits
  split
  · rename_i empty; exact absurd empty (ofNat_ne_nil n)
  · rw [if_pos digits,value]

/-- A text of digits begins with no sign. -/
private theorem ne_sign {n : Nat} {sign : Char} {r : Text} (noDigit : sign.isDigit = false) :
    ofNat n ≠ sign :: r := by
  intro equal
  have digit : sign.isDigit = true := isDigit_of_mem_ofNat (n := n) (by rw [equal]; exact List.mem_cons_self)
  rw [noDigit] at digit
  cases digit

private theorem filter_readDigits {limit n : Nat} (fits : n ≤ limit) :
    (readDigits (ofNat n)).filter (· ≤ limit) = some n := by
  rw [readDigits_ofNat,Option.filter,decide_eq_true fits]
  rfl

theorem readNat_ofNat {limit n : Nat} (fits : n ≤ limit) : readNat limit (ofNat n) = some n := by
  unfold readNat
  split
  · rename_i equal; exact absurd equal (ne_sign (by decide))
  · exact filter_readDigits fits

theorem readInt_ofInt {limit : Nat} {n : Int} (low : -(limit + 1) ≤ n) (high : n ≤ limit) :
    readInt limit (ofInt n) = some n := by
  cases n with
  | ofNat n =>
    have fits : n ≤ limit := by simpa using high
    rw [ofInt,readInt.eq_def]
    split
    · rename_i equal; exact absurd equal (ne_sign (by decide))
    · rename_i equal; exact absurd equal (ne_sign (by decide))
    · rw [filter_readDigits fits]; rfl
  | negSucc n =>
    have fits : n + 1 ≤ limit + 1 := by omega
    rw [ofInt,readInt,filter_readDigits fits]
    rfl

/-- Every 32-bit integer is read back. -/
theorem readInt_int32 (n : Int32) : readInt maxInt32 (ofInt n.toInt) = some n.toInt := by
  have low : -2147483648 ≤ n.toInt := n.le_toInt
  have high : n.toInt ≤ 2147483647 := n.toInt_le
  exact readInt_ofInt (by unfold maxInt32; omega) (by unfold maxInt32; omega)

/-- Every 64-bit natural number is read back. -/
theorem readNat_uint64 (n : UInt64) : readNat maxNat64 (ofNat n.toNat) = some n.toNat :=
  readNat_ofNat (by have := n.toNat_lt; unfold maxNat64; omega)

/-- The characters of a numeral are digits and signs. -/
theorem mem_ofInt {n : Int} {c : Char} (h : c ∈ ofInt n) : c = '-' ∨ c.isDigit = true := by
  cases n with
  | ofNat n => exact .inr (isDigit_of_mem_ofNat h)
  | negSucc n =>
    rcases List.mem_cons.mp h with sign | digit
    · exact .inl sign
    · exact .inr (isDigit_of_mem_ofNat digit)

theorem notMem_ofNat {c : Char} (noDigit : c.isDigit = false) (n : Nat) : c ∉ ofNat n := by
  intro h
  rw [isDigit_of_mem_ofNat h] at noDigit
  cases noDigit

theorem notMem_ofInt {c : Char} (noSign : c ≠ '-') (noDigit : c.isDigit = false) (n : Int) : c ∉ ofInt n := by
  intro h
  rcases mem_ofInt h with sign | digit
  · exact noSign sign
  · rw [digit] at noDigit
    cases noDigit

theorem ofInt_ne_nil (n : Int) : ofInt n ≠ [] := by
  cases n with
  | ofNat n => exact ofNat_ne_nil n
  | negSucc n => exact List.cons_ne_nil _ _

/-! ### Zeros before a numeral -/

/-- Zeros, with or without a plus sign before them. -/
def IsPadding (u : Text) : Prop := ∃ k, u = List.replicate k '0' ∨ u = '+' :: List.replicate k '0'

/-- The value of digits is zero when all of them are. -/
theorem ofDigitChars_eq_zero_iff {l : Text} (digits : l.all Char.isDigit = true) :
    Nat.ofDigitChars 10 l 0 = 0 ↔ l = List.replicate l.length '0' := by
  induction l with
  | nil => exact ⟨fun _ => rfl,fun _ => rfl⟩
  | cons c r ih =>
    rw [List.all_cons,Bool.and_eq_true] at digits
    obtain ⟨digit,rest⟩ := digits
    have low : '0'.toNat ≤ c.toNat := by
      simp only [Char.isDigit,Bool.and_eq_true,decide_eq_true_eq,ge_iff_le,UInt32.le_iff_toNat_le] at digit
      exact digit.1
    have zero : c.toNat - '0'.toNat = 0 ↔ c = '0' := by
      rw [← Char.toNat_inj]
      omega
    rw [Nat.ofDigitChars_cons,Nat.mul_zero,Nat.zero_add,Nat.ofDigitChars_eq_ofDigitChars_zero,Nat.add_eq_zero_iff,
      Nat.mul_eq_zero,zero,ih rest,List.length_cons,List.replicate_succ,List.cons.injEq]
    simp

/-- Digits before a numeral do not change its value when all of them are zeros. -/
theorem readDigits_append_ofNat {u : Text} {n : Nat} :
    readDigits (u ++ ofNat n) = some n ↔ u = List.replicate u.length '0' := by
  have digits : (ofNat n).all Char.isDigit = true := List.all_eq_true.mpr fun _ mem => isDigit_of_mem_ofNat mem
  have value : readDigits (u ++ ofNat n) =
      if u.all Char.isDigit then some (10 ^ (ofNat n).length * Nat.ofDigitChars 10 u 0 + n) else none := by
    have all : (u ++ ofNat n).all Char.isDigit = u.all Char.isDigit := by rw [List.all_append,digits,Bool.and_true]
    have sum : (u ++ ofNat n).foldl (fun n c => 10*n + digit c) 0 =
        10 ^ (ofNat n).length * Nat.ofDigitChars 10 u 0 + n := by
      have whole := @Nat.ofDigitChars_eq_foldl 10 (u ++ ofNat n) 0
      rw [Nat.ofDigitChars_append,Nat.ofDigitChars_eq_ofDigitChars_zero] at whole
      exact whole.symm.trans (congrArg _ Nat.ofDigitChars_ten_toDigits)
    unfold readDigits
    split
    · rename_i empty
      exact absurd (List.append_eq_nil_iff.mp empty).2 (ofNat_ne_nil n)
    · rw [all,sum]
  rw [value]
  by_cases all : u.all Char.isDigit = true
  · rw [if_pos all,← ofDigitChars_eq_zero_iff all,Option.some.injEq,Nat.add_eq_right,Nat.mul_eq_zero]
    simp
  · rw [if_neg all]
    constructor
    · intro none
      cases none
    · intro zeros
      refine absurd ?_ all
      rw [zeros]
      simp

/-- What may stand before a numeral so that it is read as before. -/
theorem readNat_append_ofNat {limit n : Nat} (fits : n ≤ limit) (u : Text) :
    readNat limit (u ++ ofNat n) = some n ↔ IsPadding u := by
  have filtered : ∀ v, (readDigits (v ++ ofNat n)).filter (· ≤ limit) = some n ↔ v = List.replicate v.length '0' := by
    intro v
    rw [Option.filter_eq_some_iff,readDigits_append_ofNat]
    simp [fits]
  cases u with
  | nil => exact ⟨fun _ => ⟨0,.inl rfl⟩,fun _ => readNat_ofNat fits⟩
  | cons c r =>
    by_cases plus : c = '+'
    · subst plus
      rw [List.cons_append,readNat,filtered]
      constructor
      · intro zeros
        exact ⟨r.length,.inr (congrArg _ zeros)⟩
      · rintro ⟨k,zeros | zeros⟩
        · cases k with
          | zero => cases zeros
          | succ k => exact absurd (List.cons.inj zeros).1 (by decide)
        · rw [(List.cons.inj zeros).2,List.length_replicate]
    · have unsigned : readNat limit (c :: r ++ ofNat n) = (readDigits (c :: r ++ ofNat n)).filter (· ≤ limit) := by
        unfold readNat
        split
        · rename_i first
          exact absurd (List.cons.inj first).1 plus
        · rfl
      rw [unsigned,filtered]
      constructor
      · intro zeros
        exact ⟨_,.inl zeros⟩
      · rintro ⟨k,zeros | zeros⟩
        · rw [zeros,List.length_replicate]
        · exact absurd (List.cons.inj zeros).1 plus

end Numeral
end JobShell

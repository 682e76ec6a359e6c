import JobShell.Proofs.Text.Encoding

/-!
# UTF-8 is what texts are written as

Bytes are read as a text only when they are the bytes of that text
(`Utf8.decode?_eq_some_iff`). A byte below 0x80 ends every character before it:
what stands before it is UTF-8 if the whole is.
-/
namespace JobShell
namespace Utf8

/-! ### The ranges of the bytes -/

/-- The numbers of the first bytes of characters of a size. -/
theorem range_of_sizeOf? {b : UInt8} {size : Size} (known : sizeOf? b = some size) :
    match size with
    | .one => b.toNat < 0x80
    | .two => 0xC2 ≤ b.toNat ∧ b.toNat < 0xE0
    | .three => 0xE0 ≤ b.toNat ∧ b.toNat < 0xF0
    | .four => 0xF0 ≤ b.toNat ∧ b.toNat < 0xF5 := by
  have small : b.toNat < 256 := b.toNat_lt
  rw [← UInt8.ofNat_toNat (x := b),sizeOf?_ofNat small] at known
  split_ifs at known
  all_goals
    cases known
    dsimp only
    omega

theorem range_of_isTail {b : UInt8} (tail : isTail b = true) : 0x80 ≤ b.toNat ∧ b.toNat ≤ 0xBF := by
  simpa [isTail,UInt8.le_iff_toNat_le] using tail

/-- The numbers of the second bytes of characters. -/
theorem range_of_second {b x : UInt8} (second : ((secondRange b).1 ≤ x && x ≤ (secondRange b).2) = true) :
    0x80 ≤ x.toNat ∧ x.toNat ≤ 0xBF ∧ (b.toNat = 0xE0 → 0xA0 ≤ x.toNat) ∧ (b.toNat = 0xED → x.toNat ≤ 0x9F) ∧
      (b.toNat = 0xF0 → 0x90 ≤ x.toNat) ∧ (b.toNat = 0xF4 → x.toNat ≤ 0x8F) := by
  have number : ∀ k : UInt8, (b = k) = (b.toNat = k.toNat) := fun k => by rw [← UInt8.toNat_inj]
  simp only [secondRange,number,UInt8.le_iff_toNat_le,Bool.and_eq_true,decide_eq_true_eq] at second
  split_ifs at second
  all_goals
    simp only [UInt8.toNat_ofNat] at *
    omega

/-! ### One character -/

theorem encodeChar_one {b : UInt8} (low : b.toNat < 0x80) : encodeChar (Char.ofNat b.toNat) = [b] := by
  rw [encodeChar,toNat_charOfNat (.inl (by omega))]
  simp only [if_pos low,UInt8.ofNat_toNat]

theorem encodeChar_two {n : Nat} {b x : UInt8} (low : 0x80 ≤ n) (high : n < 0x800) (first : 0xC0 + n / 64 = b.toNat)
    (second : 0x80 + n % 64 = x.toNat) : encodeChar (Char.ofNat n) = [b,x] := by
  rw [encodeChar,toNat_charOfNat (by omega)]
  simp only [if_neg (Nat.not_lt.mpr low),if_pos high,first,second,UInt8.ofNat_toNat]

theorem encodeChar_three {n : Nat} {b x y : UInt8} (low : 0x800 ≤ n) (high : n < 0x10000)
    (scalar : n < 0xD800 ∨ 0xDFFF < n) (first : 0xE0 + n / 4096 = b.toNat) (second : 0x80 + n / 64 % 64 = x.toNat)
    (third : 0x80 + n % 64 = y.toNat) : encodeChar (Char.ofNat n) = [b,x,y] := by
  have notOne : ¬ n < 0x80 := by omega
  rw [encodeChar,toNat_charOfNat (by omega)]
  simp only [if_neg notOne,if_neg (Nat.not_lt.mpr low),if_pos high,first,second,third,UInt8.ofNat_toNat]

theorem encodeChar_four {n : Nat} {b x y z : UInt8} (low : 0x10000 ≤ n) (high : n < 0x110000)
    (first : 0xF0 + n / 262144 = b.toNat) (second : 0x80 + n / 4096 % 64 = x.toNat)
    (third : 0x80 + n / 64 % 64 = y.toNat) (fourth : 0x80 + n % 64 = z.toNat) :
    encodeChar (Char.ofNat n) = [b,x,y,z] := by
  have notOne : ¬ n < 0x80 := by omega
  have notTwo : ¬ n < 0x800 := by omega
  rw [encodeChar,toNat_charOfNat (by omega)]
  simp only [if_neg notOne,if_neg notTwo,if_neg (Nat.not_lt.mpr low),first,second,third,fourth,UInt8.ofNat_toNat]

/-- Where bytes begin with a character they begin with its bytes. -/
theorem eq_encodeChar_of_head {b : UInt8} {rest : Bytes} {c : Char} {r : Bytes} (first : head b rest = .char c r) :
    b :: rest = encodeChar c ++ r := by
  revert first
  fun_cases head b rest
  case case2 n size =>
    rintro ⟨⟩
    rw [encodeChar_one (range_of_sizeOf? size)]
    rfl
  case case4 isSecond n size x _ second =>
    rintro ⟨⟩
    have first := range_of_sizeOf? size
    have second := range_of_second second
    rw [encodeChar_two (b := b) (x := x) (by omega) (by omega) (by omega) (by omega)]
    rfl
  case case10 isSecond n size x y _ second third =>
    rintro ⟨⟩
    have first := range_of_sizeOf? size
    have second : isSecond x = true := by simpa using second
    have second := range_of_second second
    have third := range_of_isTail third
    rw [encodeChar_three (b := b) (x := x) (y := y) (by omega) (by omega) (by omega) (by omega) (by omega) (by omega)]
    rfl
  case case20 isSecond n size x y z _ second third fourth =>
    rintro ⟨⟩
    have first := range_of_sizeOf? size
    have second : isSecond x = true := by simpa using second
    have second := range_of_second second
    have third := range_of_isTail (by simpa using third)
    have fourth := range_of_isTail fourth
    rw [encodeChar_four (b := b) (x := x) (y := y) (z := z) (by omega) (by omega) (by omega) (by omega) (by omega)
      (by omega)]
    rfl
  all_goals rintro ⟨⟩

/-! ### Texts -/

/-- **UTF-8 has one form.** Bytes are read as a text exactly when they are the bytes of that text. -/
theorem decode?_eq_some_iff {b : Bytes} {t : Text} : decode? b = some t ↔ b = encode t := by
  constructor
  · intro read
    fun_induction decode? b generalizing t with
    | case1 =>
      cases read
      rfl
    | case2 b rest c r first shorter ih =>
      obtain ⟨t',tail,rfl⟩ := Option.map_eq_some_iff.mp read
      rw [eq_encodeChar_of_head first,encode_cons,← ih tail]
    | case3 b rest r wrong => cases read
    | case4 b rest short => cases read
  · rintro rfl
    exact decode?_encode t

/-- A byte below 0x80 stands for a character of its own. -/
theorem encode_eq_append_low {t : Text} {b s : Bytes} {x : UInt8} (low : x.toNat < 0x80) (whole : encode t = b ++ x :: s) :
    ∃ before after, t = before ++ Char.ofNat x.toNat :: after ∧ b = encode before ∧ s = encode after := by
  induction t generalizing b with
  | nil => simp [encode] at whole
  | cons c r ih =>
    rw [encode_cons] at whole
    rcases List.append_eq_append_iff.mp whole with ⟨b',rest,tail⟩ | ⟨more,first,tail⟩
    · obtain ⟨before,after,rfl,rfl,rfl⟩ := ih tail
      exact ⟨c :: before,after,rfl,by rw [rest,encode_cons],rfl⟩
    · cases more with
      | nil =>
        obtain ⟨before,after,rfl,empty,rfl⟩ := ih (b := []) tail.symm
        exact ⟨c :: before,after,rfl,by rw [encode_cons,first,← empty,List.append_nil,List.append_nil],rfl⟩
      | cons y more =>
        obtain ⟨rfl,tail⟩ := List.cons.inj tail
        -- The byte is one of the character, so it is the only one.
        have number := eq_of_mem_encodeChar (b := x) (c := c) (by rw [first]; simp) low
        have alone : encodeChar c = [x] := by
          rw [← Char.ofNat_toNat c,number]
          exact encodeChar_one low
        have nothing : b = [] ∧ more = [] := by
          have count := congrArg List.length (alone.symm.trans first)
          simp only [List.length_append,List.length_cons,List.length_nil] at count
          exact ⟨List.length_eq_zero_iff.mp (by omega),List.length_eq_zero_iff.mp (by omega)⟩
        obtain ⟨rfl,rfl⟩ := nothing
        exact ⟨[],r,by rw [← number,Char.ofNat_toNat]; rfl,rfl,(List.cons.inj tail).2⟩

/-- What is not UTF-8 does not become UTF-8 by a byte below 0x80. -/
theorem decode?_append_low {b : Bytes} (wrong : decode? b = none) {x : UInt8} (low : x.toNat < 0x80) (s : Bytes) :
    decode? (b ++ x :: s) = none := by
  cases whole : decode? (b ++ x :: s) with
  | none => rfl
  | some t =>
    obtain ⟨before,-,-,rfl,-⟩ := encode_eq_append_low low (decode?_eq_some_iff.mp whole).symm
    rw [decode?_encode] at wrong
    cases wrong

end Utf8
end JobShell

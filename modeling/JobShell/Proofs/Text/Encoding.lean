import JobShell.Text.Utf8
import Mathlib.Tactic.SplitIfs

/-!
# UTF-8 is read back

The bytes of a text are read as that text. A byte below 0x80 stands for itself
only, so line feeds and carriage returns among the bytes are those of the text.
-/
namespace JobShell
namespace Utf8

/-! ### Bytes by their numbers -/

theorem toNat_ofNat {n : Nat} (small : n < 256) : (UInt8.ofNat n).toNat = n := by
  rw [UInt8.toNat_ofNat']
  exact Nat.mod_eq_of_lt small

/-- A number that is not that of half a character is the number of a character. -/
theorem toNat_charOfNat {n : Nat} (scalar : n < 0xD800 ∨ 0xDFFF < n ∧ n < 0x110000) : (Char.ofNat n).toNat = n := by
  have valid : n.isValidChar := scalar
  rw [Char.ofNat,dif_pos valid]
  rfl

theorem sizeOf?_ofNat {n : Nat} (small : n < 256) :
    sizeOf? (.ofNat n) =
      if n < 0x80 then some .one else if n < 0xC2 then none else if n < 0xE0 then some .two
      else if n < 0xF0 then some .three else if n < 0xF5 then some .four else none := by
  simp only [sizeOf?,UInt8.lt_iff_toNat_lt,toNat_ofNat small]
  rfl

/-- A continuing byte is a second byte after all first bytes but four, after which the range is smaller. -/
theorem isSecond_ofNat {n x : Nat} (small : n < 256) (tail : 0x80 ≤ x ∧ x ≤ 0xBF) (three : n = 0xE0 → 0xA0 ≤ x)
    (surrogate : n = 0xED → x ≤ 0x9F) (four : n = 0xF0 → 0x90 ≤ x) (last : n = 0xF4 → x ≤ 0x8F) :
    ((secondRange (.ofNat n)).1 ≤ .ofNat x && .ofNat x ≤ (secondRange (.ofNat n)).2) = true := by
  have byte : x < 256 := by omega
  have number : ∀ k : UInt8, (UInt8.ofNat n = k) = (n = k.toNat) := fun k => by
    rw [← UInt8.toNat_inj,toNat_ofNat small]
  simp only [secondRange,number,UInt8.le_iff_toNat_le,Bool.and_eq_true,decide_eq_true_eq,toNat_ofNat byte]
  split_ifs with h1 h2 h3 h4
  · exact ⟨three h1,tail.2⟩
  · exact ⟨tail.1,surrogate h2⟩
  · exact ⟨four h3,tail.2⟩
  · exact ⟨tail.1,last h4⟩
  · exact tail

theorem isTail_ofNat {x : Nat} (tail : 0x80 ≤ x ∧ x ≤ 0xBF) : isTail (.ofNat x) = true := by
  have byte : x < 256 := by omega
  simp only [isTail,UInt8.le_iff_toNat_le,Bool.and_eq_true,decide_eq_true_eq,toNat_ofNat byte]
  exact tail

/-! ### Characters -/

theorem head_one {n : Nat} (high : n < 0x80) (rest : Bytes) : head (.ofNat n) rest = .char (Char.ofNat n) rest := by
  have byte : n < 256 := by omega
  have size : sizeOf? (.ofNat n) = some .one := by rw [sizeOf?_ofNat byte,if_pos high]
  simp only [head,size,toNat_ofNat byte]

theorem head_two {n : Nat} (low : 0x80 ≤ n) (high : n < 0x800) (rest : Bytes) :
    head (.ofNat (0xC0 + n / 64)) (.ofNat (0x80 + n % 64) :: rest) = .char (Char.ofNat n) rest := by
  have first : 0xC0 + n / 64 < 256 := by omega
  have size : sizeOf? (.ofNat (0xC0 + n / 64)) = some .two := by
    rw [sizeOf?_ofNat first,if_neg (by omega),if_neg (by omega),if_pos (by omega)]
  have second := isSecond_ofNat (x := 0x80 + n % 64) first (by omega) (by omega) (by omega) (by omega) (by omega)
  have value : (0xC0 + n / 64) % 32 * 64 + (0x80 + n % 64) % 64 = n := by omega
  simp only [head,size,second,if_true,toNat_ofNat first,toNat_ofNat (show 0x80 + n % 64 < 256 by omega),value]

theorem head_three {n : Nat} (low : 0x800 ≤ n) (high : n < 0x10000) (scalar : n < 0xD800 ∨ 0xDFFF < n) (rest : Bytes) :
    head (.ofNat (0xE0 + n / 4096)) (.ofNat (0x80 + n / 64 % 64) :: .ofNat (0x80 + n % 64) :: rest) =
      .char (Char.ofNat n) rest := by
  have first : 0xE0 + n / 4096 < 256 := by omega
  have size : sizeOf? (.ofNat (0xE0 + n / 4096)) = some .three := by
    rw [sizeOf?_ofNat first,if_neg (by omega),if_neg (by omega),if_neg (by omega),if_pos (by omega)]
  have second := isSecond_ofNat (x := 0x80 + n / 64 % 64) first (by omega) (by omega) (by omega) (by omega) (by omega)
  have third := isTail_ofNat (x := 0x80 + n % 64) (by omega)
  have value : (0xE0 + n / 4096) % 16 * 4096 + (0x80 + n / 64 % 64) % 64 * 64 + (0x80 + n % 64) % 64 = n := by omega
  simp only [head,size,second,third,Bool.not_true,Bool.false_eq_true,if_false,if_true,toNat_ofNat first,
    toNat_ofNat (show 0x80 + n / 64 % 64 < 256 by omega),toNat_ofNat (show 0x80 + n % 64 < 256 by omega),value]

theorem head_four {n : Nat} (low : 0x10000 ≤ n) (high : n < 0x110000) (rest : Bytes) :
    head (.ofNat (0xF0 + n / 262144))
        (.ofNat (0x80 + n / 4096 % 64) :: .ofNat (0x80 + n / 64 % 64) :: .ofNat (0x80 + n % 64) :: rest) =
      .char (Char.ofNat n) rest := by
  have first : 0xF0 + n / 262144 < 256 := by omega
  have size : sizeOf? (.ofNat (0xF0 + n / 262144)) = some .four := by
    rw [sizeOf?_ofNat first,if_neg (by omega),if_neg (by omega),if_neg (by omega),if_neg (by omega),
      if_pos (by omega)]
  have second := isSecond_ofNat (x := 0x80 + n / 4096 % 64) first (by omega) (by omega) (by omega) (by omega) (by omega)
  have third := isTail_ofNat (x := 0x80 + n / 64 % 64) (by omega)
  have fourth := isTail_ofNat (x := 0x80 + n % 64) (by omega)
  have value : (0xF0 + n / 262144) % 8 * 262144 + (0x80 + n / 4096 % 64) % 64 * 4096 + (0x80 + n / 64 % 64) % 64 * 64 +
      (0x80 + n % 64) % 64 = n := by omega
  simp only [head,size,second,third,fourth,Bool.not_true,Bool.false_eq_true,if_false,if_true,toNat_ofNat first,
    toNat_ofNat (show 0x80 + n / 4096 % 64 < 256 by omega),toNat_ofNat (show 0x80 + n / 64 % 64 < 256 by omega),
    toNat_ofNat (show 0x80 + n % 64 < 256 by omega),value]

/-- The bytes of a character are the head of every sequence that begins with them. -/
theorem head_encodeChar (c : Char) (rest : Bytes) :
    ∃ b more, encodeChar c = b :: more ∧ head b (more ++ rest) = .char c rest := by
  have scalar : c.toNat < 0xD800 ∨ 0xDFFF < c.toNat ∧ c.toNat < 0x110000 := c.valid
  have same : Char.ofNat c.toNat = c := Char.ofNat_toNat c
  by_cases one : c.toNat < 0x80
  · have bytes : encodeChar c = [.ofNat c.toNat] := by simp only [encodeChar,if_pos one]
    exact ⟨_,_,bytes,(head_one one rest).trans (by rw [same])⟩
  by_cases two : c.toNat < 0x800
  · have bytes : encodeChar c = [.ofNat (0xC0 + c.toNat / 64),.ofNat (0x80 + c.toNat % 64)] := by
      simp only [encodeChar,if_neg one,if_pos two]
    exact ⟨_,_,bytes,(head_two (by omega) two rest).trans (by rw [same])⟩
  by_cases three : c.toNat < 0x10000
  · have bytes : encodeChar c =
        [.ofNat (0xE0 + c.toNat / 4096),.ofNat (0x80 + c.toNat / 64 % 64),.ofNat (0x80 + c.toNat % 64)] := by
      simp only [encodeChar,if_neg one,if_neg two,if_pos three]
    exact ⟨_,_,bytes,(head_three (by omega) three (by omega) rest).trans (by rw [same])⟩
  · have bytes : encodeChar c = [.ofNat (0xF0 + c.toNat / 262144),.ofNat (0x80 + c.toNat / 4096 % 64),
        .ofNat (0x80 + c.toNat / 64 % 64),.ofNat (0x80 + c.toNat % 64)] := by
      simp only [encodeChar,if_neg one,if_neg two,if_neg three]
    exact ⟨_,_,bytes,(head_four (by omega) (by omega) rest).trans (by rw [same])⟩

/-- A byte below 0x80 is the only one of its character, and has its number. -/
theorem eq_of_mem_encodeChar {b : UInt8} {c : Char} (mem : b ∈ encodeChar c) (low : b.toNat < 0x80) :
    c.toNat = b.toNat := by
  have scalar : c.toNat < 0xD800 ∨ 0xDFFF < c.toNat ∧ c.toNat < 0x110000 := c.valid
  have high : ∀ n, 0x80 ≤ n → n < 256 → b ≠ .ofNat n := by
    rintro n large byte rfl
    rw [toNat_ofNat byte] at low
    omega
  simp only [encodeChar] at mem
  split_ifs at mem with one two three
  · obtain rfl := List.mem_singleton.mp mem
    exact (toNat_ofNat (by omega)).symm
  · simp only [List.mem_cons,List.not_mem_nil,or_false] at mem
    rcases mem with first | second
    · exact absurd first (high _ (by omega) (by omega))
    · exact absurd second (high _ (by omega) (by omega))
  · simp only [List.mem_cons,List.not_mem_nil,or_false] at mem
    rcases mem with first | second | third
    · exact absurd first (high _ (by omega) (by omega))
    · exact absurd second (high _ (by omega) (by omega))
    · exact absurd third (high _ (by omega) (by omega))
  · simp only [List.mem_cons,List.not_mem_nil,or_false] at mem
    rcases mem with first | second | third | fourth
    · exact absurd first (high _ (by omega) (by omega))
    · exact absurd second (high _ (by omega) (by omega))
    · exact absurd third (high _ (by omega) (by omega))
    · exact absurd fourth (high _ (by omega) (by omega))

theorem length_encodeChar (c : Char) : (encodeChar c).length = c.utf8Size := by
  have number : c.val.toNat = c.toNat := rfl
  simp only [encodeChar,Char.utf8Size,UInt32.le_iff_toNat_le,number]
  split_ifs <;> simp_all <;> omega

/-! ### Texts -/

theorem encode_cons (c : Char) (t : Text) : encode (c :: t) = encodeChar c ++ encode t := List.flatMap_cons

theorem encode_append (s t : Text) : encode (s ++ t) = encode s ++ encode t := List.flatMap_append

/-- A text is read back. -/
theorem decode?_encode (t : Text) : decode? (encode t) = some t := by
  induction t with
  | nil => rw [encode,List.flatMap_nil,decode?]
  | cons c r ih =>
    obtain ⟨b,more,bytes,first⟩ := head_encodeChar c (encode r)
    have whole : encode (c :: r) = b :: (more ++ encode r) := by
      rw [encode,List.flatMap_cons,bytes]; rfl
    rw [whole,decode?]
    split
    · rename_i d rest found
      rw [first] at found
      cases found
      rw [ih]
      rfl
    · rename_i rest found
      rw [first] at found
      cases found
    · rename_i found
      rw [first] at found
      cases found

/-- A byte below 0x80 among those of a text is that of a character. -/
theorem mem_of_mem_encode {b : UInt8} {t : Text} (mem : b ∈ encode t) (low : b.toNat < 0x80) :
    Char.ofNat b.toNat ∈ t := by
  obtain ⟨c,here,inside⟩ := List.mem_flatMap.mp mem
  rw [← eq_of_mem_encodeChar inside low,Char.ofNat_toNat]
  exact here

/-- A last byte below 0x80 is that of the last character. -/
theorem getLast?_of_getLast?_encode {b : UInt8} {t : Text} (last : (encode t).getLast? = some b) (low : b.toNat < 0x80) :
    t.getLast? = some (Char.ofNat b.toNat) := by
  rcases List.eq_nil_or_concat t with rfl | ⟨front,c,rfl⟩
  · cases last
  · obtain ⟨d,more,bytes,_⟩ := head_encodeChar c []
    have single : encode [c] = d :: more := by rw [encode,List.flatMap_singleton,bytes]
    have mem : b ∈ encodeChar c := by
      rw [List.concat_eq_append,encode_append,single,List.getLast?_append,List.getLast?_cons,Option.some_or] at last
      rw [bytes]
      exact List.mem_of_getLast? (List.getLast?_cons.trans last)
    rw [List.concat_eq_append,List.getLast?_concat,← eq_of_mem_encodeChar mem low,Char.ofNat_toNat]

end Utf8
end JobShell

import JobShell.Text.Utf8

/-!
# Keys

A terminal sends bytes, and one key is one or several of them: a control byte, a
character in UTF-8, or an escape sequence. A sequence that has no meaning here is
an unknown key.
-/
namespace JobShell

/-- A key of the keyboard. -/
inductive Key where
  | char (c : Char)
  | enter | backspace | delete | left | right | up | down | home | toEnd | tab
  | ctrlA | ctrlC | ctrlD | ctrlE | ctrlG | ctrlK | ctrlL | ctrlR | ctrlU | ctrlW
  | unknown
  deriving DecidableEq, Repr

/-- The bytes that a terminal sends: those that are there, and those that follow
    once the reader waits for them. -/
structure Keystrokes where
  ready : Bytes
  later : List Bytes
  deriving DecidableEq, Repr

namespace Keystrokes

/-- The number of bytes that are still to be read. -/
def size (k : Keystrokes) : Nat := k.ready.length + k.later.flatten.length

/-- The next byte that does not come at once, if the terminal sends one at all. -/
def nextLater : List Bytes → Option (UInt8 × Keystrokes)
  | [] => none
  | [] :: r => nextLater r
  | (b :: bs) :: r => some (b,⟨bs,r⟩)

/-- The next byte; `none` at the end of the input. -/
def next (k : Keystrokes) : Option (UInt8 × Keystrokes) :=
  match k.ready with
  | b :: r => some (b,{ k with ready := r })
  | [] => nextLater k.later

theorem nextLater_size {l : List Bytes} {b : UInt8} {k : Keystrokes} (h : nextLater l = some (b,k)) :
    k.size < l.flatten.length := by
  fun_induction nextLater l with
  | case1 => simp at h
  | case2 r ih => simpa using ih h
  | case3 b bs r =>
    simp only [Option.some.injEq,Prod.mk.injEq] at h
    obtain ⟨rfl,rfl⟩ := h
    simp only [size,List.flatten_cons,List.length_append,List.length_cons]
    omega

theorem next_size {k k' : Keystrokes} {b : UInt8} (h : k.next = some (b,k')) : k'.size < k.size := by
  unfold next at h
  split at h
  · rename_i ready
    simp only [Option.some.injEq,Prod.mk.injEq] at h
    obtain ⟨rfl,rfl⟩ := h
    simp [size,ready]
  · rename_i ready
    have := nextLater_size h
    simp only [size,ready,List.length_nil] at this ⊢
    omega

/-- The next `n` bytes, when there are as many. What is read before the end of the input is gone. -/
def take (n : Nat) (k : Keystrokes) : Option Bytes × Keystrokes :=
  match n with
  | 0 => (some [],k)
  | n+1 =>
    match k.next with
    | none => (none,k)
    | some (b,k) => ((take n k).1.map (b :: ·),(take n k).2)

end Keystrokes

namespace Key

/-- A key if a tilde follows. -/
def beforeTilde (key : Key) (k : Keystrokes) : Key × Keystrokes :=
  match k.next with
  | some (b,k) => (if b = 0x7E then key else .unknown,k)
  | none => (.unknown,k)

/-- The key that a byte after the introducer of a sequence stands for, and whether a tilde must follow. -/
def ofFinal (b : UInt8) : Key × Bool :=
  if b = 0x41 then (.up,false)
  else if b = 0x42 then (.down,false)
  else if b = 0x43 then (.right,false)
  else if b = 0x44 then (.left,false)
  else if b = 0x48 then (.home,false)
  else if b = 0x46 then (.toEnd,false)
  else if b = 0x31 || b = 0x37 then (.home,true)
  else if b = 0x33 then (.delete,true)
  else if b = 0x34 || b = 0x38 then (.toEnd,true)
  else (.unknown,false)

/-- The key of a sequence, after its introducer. -/
def afterIntroducer (k : Keystrokes) : Key × Keystrokes :=
  match k.next with
  | none => (.unknown,k)
  | some (b,k) => if (ofFinal b).2 then beforeTilde (ofFinal b).1 k else ((ofFinal b).1,k)

/-- The key of an escape sequence, after its escape byte. Nothing is waited for
    when no byte has come with the escape byte. -/
def ofEscape (k : Keystrokes) : Key × Keystrokes :=
  if k.ready.isEmpty then (.unknown,k)
  else match k.next with
    | none => (.unknown,k)
    | some (b,k) => if b = 0x5B || b = 0x4F then afterIntroducer k else (.unknown,k)

/-- The key of a character of several bytes, after its first byte. -/
def ofUtf8 (first : UInt8) (more : Nat) (k : Keystrokes) : Key × Keystrokes :=
  match k.take more with
  | (some tail,k) =>
    match Utf8.decode? (first :: tail) with
    | some (c :: _) => (.char c,k)
    | _ => (.unknown,k)
  | (none,k) => (.unknown,k)

/-- The key that a byte alone stands for. -/
def ofControl (b : UInt8) : Key :=
  if b = 0x0D || b = 0x0A then .enter
  else if b = 0x7F || b = 0x08 then .backspace
  else if b = 0x09 then .tab
  else if b = 0x01 then .ctrlA
  else if b = 0x03 then .ctrlC
  else if b = 0x04 then .ctrlD
  else if b = 0x05 then .ctrlE
  else if b = 0x07 then .ctrlG
  else if b = 0x0B then .ctrlK
  else if b = 0x0C then .ctrlL
  else if b = 0x12 then .ctrlR
  else if b = 0x15 then .ctrlU
  else if b = 0x17 then .ctrlW
  else if 32 ≤ b && b < 127 then .char (Char.ofNat b.toNat)
  else .unknown

/-- How many bytes follow the first one of a character, as the first one tells. -/
def tailLength? (b : UInt8) : Option Nat :=
  if 0xC0 ≤ b && b < 0xE0 then some 1
  else if 0xE0 ≤ b && b < 0xF0 then some 2
  else if 0xF0 ≤ b && b < 0xF8 then some 3
  else none

/-- The next key, and the input after it; `none` at the end of the input. -/
def read (k : Keystrokes) : Option (Key × Keystrokes) :=
  match k.next with
  | none => none
  | some (b,k) =>
    if b = 0x1B then some (ofEscape k)
    else match tailLength? b with
      | some n => some (ofUtf8 b n k)
      | none => some (ofControl b,k)

/-! ### Reading a key uses up input -/

theorem take_size (n : Nat) (k : Keystrokes) : (k.take n).2.size ≤ k.size := by
  induction n generalizing k with
  | zero => simp [Keystrokes.take]
  | succ n ih =>
    unfold Keystrokes.take
    split
    · simp
    · rename_i b k' h
      exact Nat.le_trans (ih k') (Nat.le_of_lt (Keystrokes.next_size h))

theorem beforeTilde_size (key : Key) (k : Keystrokes) : (beforeTilde key k).2.size ≤ k.size := by
  unfold beforeTilde
  split
  · rename_i h
    exact Nat.le_of_lt (Keystrokes.next_size h)
  · simp

theorem afterIntroducer_size (k : Keystrokes) : (afterIntroducer k).2.size ≤ k.size := by
  unfold afterIntroducer
  split
  · simp
  · rename_i b k' h
    have le := Nat.le_of_lt (Keystrokes.next_size h)
    split
    · exact Nat.le_trans (beforeTilde_size _ k') le
    · exact le

theorem ofEscape_size (k : Keystrokes) : (ofEscape k).2.size ≤ k.size := by
  unfold ofEscape
  split
  · simp
  · split
    · simp
    · rename_i b k' h
      have le := Nat.le_of_lt (Keystrokes.next_size h)
      split
      · exact Nat.le_trans (afterIntroducer_size k') le
      · exact le

theorem ofUtf8_size (b : UInt8) (n : Nat) (k : Keystrokes) : (ofUtf8 b n k).2.size ≤ k.size := by
  have le := take_size n k
  unfold ofUtf8
  split
  · rename_i h
    rw [h] at le
    split <;> exact le
  · rename_i h
    rw [h] at le
    exact le

theorem read_size {k k' : Keystrokes} {key : Key} (h : read k = some (key,k')) : k'.size < k.size := by
  unfold read at h
  split at h
  · simp at h
  · rename_i b k₁ h₁
    have lt := Keystrokes.next_size h₁
    split at h
    · have le := ofEscape_size k₁
      simp only [Option.some.injEq] at h
      rw [h] at le
      exact Nat.lt_of_le_of_lt le lt
    · split at h
      · rename_i n _
        have le := ofUtf8_size b n k₁
        simp only [Option.some.injEq] at h
        rw [h] at le
        exact Nat.lt_of_le_of_lt le lt
      · simp only [Option.some.injEq,Prod.mk.injEq] at h
        obtain ⟨-,rfl⟩ := h
        exact lt

end Key
end JobShell

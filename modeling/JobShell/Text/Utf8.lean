import JobShell.Text.Basic

/-!
# UTF-8

Text is written to files, pipes and terminals in UTF-8 and read back from it.
Reading is either strict, where one wrong byte refuses the whole input, or
replacing, where every maximal wrong start of a character becomes U+FFFD.
-/
namespace JobShell
namespace Utf8

/-- The bytes of one character. -/
def encodeChar (c : Char) : Bytes :=
  let n := c.toNat
  if n < 0x80 then [.ofNat n]
  else if n < 0x800 then [.ofNat (0xC0 + n / 64),.ofNat (0x80 + n % 64)]
  else if n < 0x10000 then
    [.ofNat (0xE0 + n / 4096),.ofNat (0x80 + n / 64 % 64),.ofNat (0x80 + n % 64)]
  else
    [.ofNat (0xF0 + n / 262144),.ofNat (0x80 + n / 4096 % 64),.ofNat (0x80 + n / 64 % 64),
      .ofNat (0x80 + n % 64)]

/-- The bytes of a text. -/
def encode (s : Text) : Bytes := s.flatMap encodeChar

/-- How a sequence of bytes begins. -/
inductive Head where
  /-- A character and the bytes after it. -/
  | char (c : Char) (rest : Bytes)
  /-- The start of no character, and the bytes after its longest part that could start one. -/
  | wrong (rest : Bytes)
  /-- The start of a character whose last bytes are missing. -/
  | short

/-- Whether a byte continues a character. -/
def isTail (b : UInt8) : Bool := 0x80 ≤ b && b ≤ 0xBF

/-- The least and the greatest second byte after a first byte of a character of several bytes. -/
def secondRange (b : UInt8) : UInt8 × UInt8 :=
  if b = 0xE0 then (0xA0,0xBF) else if b = 0xED then (0x80,0x9F)
  else if b = 0xF0 then (0x90,0xBF) else if b = 0xF4 then (0x80,0x8F) else (0x80,0xBF)

/-- How many bytes a character has. -/
inductive Size where
  | one
  | two
  | three
  | four
  deriving DecidableEq, Repr

/-- The size of a character with this first byte; `none` when no character starts so. -/
def sizeOf? (b : UInt8) : Option Size :=
  if b < 0x80 then some .one else if b < 0xC2 then none else if b < 0xE0 then some .two
  else if b < 0xF0 then some .three else if b < 0xF5 then some .four else none

/-- The head of a sequence of bytes that is not empty. -/
def head (b : UInt8) (rest : Bytes) : Head :=
  let second := fun x => (secondRange b).1 ≤ x && x ≤ (secondRange b).2
  let n := b.toNat
  match sizeOf? b with
  | none => .wrong rest
  | some .one => .char (Char.ofNat n) rest
  | some .two =>
    match rest with
    | [] => .short
    | x :: r => if second x then .char (Char.ofNat (n % 32 * 64 + x.toNat % 64)) r else .wrong (x :: r)
  | some .three =>
    match rest with
    | [] => .short
    | [x] => if second x then .short else .wrong [x]
    | x :: y :: r =>
      if !second x then .wrong (x :: y :: r)
      else if isTail y then .char (Char.ofNat (n % 16 * 4096 + x.toNat % 64 * 64 + y.toNat % 64)) r
      else .wrong (y :: r)
  | some .four =>
    match rest with
    | [] => .short
    | [x] => if second x then .short else .wrong [x]
    | [x,y] => if !second x then .wrong [x,y] else if isTail y then .short else .wrong [y]
    | x :: y :: z :: r =>
      if !second x then .wrong (x :: y :: z :: r)
      else if !isTail y then .wrong (y :: z :: r)
      else if isTail z then
        .char (Char.ofNat (n % 8 * 262144 + x.toNat % 64 * 4096 + y.toNat % 64 * 64 + z.toNat % 64)) r
      else .wrong (z :: r)

/-- The bytes after the head. -/
def Head.rest : Head → Bytes
  | .char _ r => r
  | .wrong r => r
  | .short => []

/-- The bytes after the head are no more than the bytes after the first. -/
theorem head_rest_length (b : UInt8) (rest : Bytes) : (head b rest).rest.length ≤ rest.length := by
  fun_cases head b rest <;> simp only [Head.rest,List.length_cons,List.length_nil] <;> omega

/-- The text of the bytes; `none` when they are not UTF-8. -/
def decode? : Bytes → Option Text
  | [] => some []
  | b :: rest =>
    match h : head b rest with
    | .char c r =>
      have : r.length ≤ rest.length := by
        have shorter := head_rest_length b rest
        rwa [h] at shorter
      (decode? r).map (c :: ·)
    | .wrong _ => none
    | .short => none
  termination_by b => b.length
  decreasing_by all_goals simp only [List.length_cons]; omega

/-- The replacement character. -/
def replacement : Char := Char.ofNat 0xFFFD

/-- The text of the bytes with every wrong start of a character replaced. -/
def decode : Bytes → Text
  | [] => []
  | b :: rest =>
    match h : head b rest with
    | .char c r =>
      have : r.length ≤ rest.length := by
        have shorter := head_rest_length b rest
        rwa [h] at shorter
      c :: decode r
    | .wrong r =>
      have : r.length ≤ rest.length := by
        have shorter := head_rest_length b rest
        rwa [h] at shorter
      replacement :: decode r
    | .short => [replacement]
  termination_by b => b.length
  decreasing_by all_goals simp only [List.length_cons]; omega

end Utf8
end JobShell

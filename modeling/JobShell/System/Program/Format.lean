import JobShell.System.Program.Escapes
import JobShell.Text.Floating

/-!
# Conversions of formats

How numbers and texts are written as a conversion of a format asks for it.
-/
namespace JobShell

/-- A conversion: flags, a width and a precision, and a letter for what is converted. -/
structure Conversion where
  flags : List Char
  width : Option Nat
  precision : Option Nat
  letter : Char
  deriving Repr

namespace Conversion

/-- Whether a flag is set. -/
def has (c : Conversion) (flag : Char) : Bool := c.flags.contains flag

/-- What is written with blanks before or after it, so that it has the width. -/
def pad (c : Conversion) (body : Raw) : Raw :=
  let n := c.width.getD 0 - body.length
  if c.has '-' then body ++ List.replicate n ' ' else List.replicate n ' ' ++ body

/-- A number after its sign and the mark of its base, with zeros or blanks so that it has the width. -/
def padNumber (c : Conversion) (zeros : Bool) (front body : Raw) : Raw :=
  let n := if zeros && c.has '0' && !c.has '-' then c.width.getD 0 - front.length - body.length else 0
  c.pad (front ++ List.replicate n '0' ++ body)

/-- The sign of a number. -/
def sign (c : Conversion) (negative : Bool) : Raw :=
  if negative then ['-'] else if c.has '+' then ['+'] else if c.has ' ' then [' '] else []

/-- Digits after zeros, so that they are at least as many as the precision says; zero itself has no digits
    with precision zero. -/
def digits (c : Conversion) (base n : Nat) : Raw :=
  let ds := if n = 0 && c.precision = some 0 then [] else Nat.toDigits base n
  List.replicate ((c.precision.getD 0) - ds.length) '0' ++ ds

/-- A whole number with a sign. -/
def signed (c : Conversion) (n : Int) : Raw :=
  c.padNumber c.precision.isNone (c.sign (n < 0)) (c.digits 10 n.natAbs)

/-- A whole number without a sign. -/
def unsigned (c : Conversion) (n : Nat) : Raw :=
  match c.letter with
  | 'o' =>
    let ds := c.digits 8 n
    c.padNumber c.precision.isNone [] (if c.has '#' && ds.head? ≠ some '0' then '0' :: ds else ds)
  | 'x' => c.padNumber c.precision.isNone (if c.has '#' && n ≠ 0 then ['0','x'] else []) (c.digits 16 n)
  | 'X' =>
    c.padNumber c.precision.isNone (if c.has '#' && n ≠ 0 then ['0','X'] else []) ((c.digits 16 n).map Char.toUpper)
  | _ => c.padNumber c.precision.isNone [] (c.digits 10 n)

/-- A floating-point number. A hexadecimal one has so many binary digits in its first digit. -/
def floating (c : Conversion) (f : FloatFormat) (lead : Nat) (x : Floating) : Raw :=
  let kind := c.letter.toLower
  let shown := fun (t : Raw) => if kind = c.letter then t else t.map Char.toUpper
  match x with
  | .infinite negative => c.padNumber false (c.sign negative) (shown (txt "inf"))
  | .notNumber negative => c.padNumber false (c.sign negative) (shown (txt "nan"))
  | .finite negative m power =>
    let places := c.precision.getD 6
    let point := c.has '#'
    let text :=
      if kind = 'f' then Floating.fixed point places m power
      else if kind = 'e' then Floating.exponential point places m power
      else if kind = 'g' then Floating.general point places m power
      else Floating.hexadecimal point c.precision f lead m power
    if kind = 'a' then c.padNumber true (c.sign negative ++ shown (text.take 2)) (shown (text.drop 2))
    else c.padNumber true (c.sign negative) (shown text)

/-- A text. -/
def text (c : Conversion) (t : Raw) : Raw :=
  c.pad (match c.precision with
    | some p => t.take p
    | none => t)

end Conversion

/-- A whole number as arguments give it: with a sign, in decimal, octal after a zero or hexadecimal after `0x`. -/
structure WrittenInteger where
  value : Int
  /-- What stands after the number. -/
  rest : Raw
  /-- There is a number at all. -/
  isThere : Bool

namespace WrittenInteger

/-- The whole number at the beginning of a text, after blanks. -/
def read (t : Raw) : WrittenInteger :=
  let s := t.dropWhile (fun c => c = ' ' || ('\t' ≤ c && c ≤ '\r'))
  let (negative,s) := match s with
    | '-' :: r => (true,r)
    | '+' :: r => (false,r)
    | r => (false,r)
  let (n,count,rest) := match s with
    | '0' :: c :: r =>
      if (c = 'x' || c = 'X') && r.head?.any (fun d => (Escapes.digitIn? 16 d).isSome) then
        Escapes.leadingDigits 16 r.length r
      else Escapes.leadingDigits 8 s.length s
    | s => Escapes.leadingDigits 10 s.length s
  if count = 0 then ⟨0,t,false⟩ else ⟨if negative then -(n : Int) else n,rest,true⟩

/-- A value within the range of signed integers of 64 bits, and whether it was outside. -/
def clampSigned (n : Int) : Int × Bool :=
  if n > 9223372036854775807 then (9223372036854775807,true)
  else if n < -9223372036854775808 then (-9223372036854775808,true)
  else (n,false)

/-- A value within the range of unsigned integers of 64 bits, a negative one being counted from the end of the
    range, and whether it was outside. -/
def clampUnsigned (n : Int) : Nat × Bool :=
  if n.natAbs > 18446744073709551615 then (18446744073709551615,true)
  else if n < 0 then (18446744073709551616 - n.natAbs,false)
  else (n.natAbs,false)

end WrittenInteger
end JobShell

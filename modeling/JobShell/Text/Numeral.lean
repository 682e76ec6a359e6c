import JobShell.Text.Basic

/-!
# Numerals

Integers are read in decimal: an optional sign, then one or more ASCII digits and
nothing else. A value outside the range of the reader is refused.
-/
namespace JobShell
namespace Numeral

/-- The value of a digit. -/
def digit (c : Char) : Nat := c.toNat - 48

/-- The value of a text of digits; `none` when it is empty or holds another character. -/
def readDigits : Text → Option Nat
  | [] => none
  | s => if s.all Char.isDigit then some (s.foldl (fun n c => 10*n + digit c) 0) else none

/-- A natural number of at most `limit`, with an optional plus sign. -/
def readNat (limit : Nat) (s : Text) : Option Nat :=
  let digits := match s with
    | '+' :: r => r
    | r => r
  (readDigits digits).filter (· ≤ limit)

/-- An integer from `-(limit+1)` to `limit`, with an optional sign. -/
def readInt (limit : Nat) (s : Text) : Option Int :=
  match s with
  | '-' :: r => ((readDigits r).filter (· ≤ limit + 1)).map (fun n => -(n : Int))
  | '+' :: r => ((readDigits r).filter (· ≤ limit)).map Int.ofNat
  | r => ((readDigits r).filter (· ≤ limit)).map Int.ofNat

/-- The greatest value of a 32-bit signed integer. -/
def maxInt32 : Nat := 2147483647

/-- The greatest value of a 64-bit unsigned integer. -/
def maxNat64 : Nat := 18446744073709551615

/-- The decimal form of a natural number. -/
def ofNat (n : Nat) : Text := Nat.toDigits 10 n

/-- The decimal form of an integer. -/
def ofInt : Int → Text
  | .ofNat n => ofNat n
  | .negSucc n => '-' :: ofNat (n+1)

end Numeral
end JobShell

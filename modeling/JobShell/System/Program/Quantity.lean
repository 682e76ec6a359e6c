import JobShell.Text.Numeral
import JobShell.Text.Raw

/-!
# Quantities

Numbers of lines or bytes as options give them: digits, with a unit after them
or a unit alone.
-/
namespace JobShell

/-- Why a text is no quantity. -/
inductive QuantityError where
  | malformed
  | tooGreat
  deriving DecidableEq, Repr

namespace Quantity

/-- The greatest quantity. -/
def limit : Nat := 18446744073709551615

/-- The power of the base that a unit stands for. -/
def power? (unit : Char) : Option Nat :=
  match unit with
  | 'k' | 'K' => some 1
  | 'm' | 'M' => some 2
  | 'G' => some 3
  | 'T' => some 4
  | 'P' => some 5
  | 'E' => some 6
  | 'Z' => some 7
  | 'Y' => some 8
  | 'R' => some 9
  | 'Q' => some 10
  | _ => none

/-- The factor of a unit, and the text after it. -/
def readUnit (units : List Char) : Raw → Option (Nat × Raw)
  | [] => some (1,[])
  | c :: r =>
    if !units.contains c then none
    else if c = 'b' then some (512,r)
    else match power? c, r with
      | some p, 'i' :: 'B' :: r => some (Nat.pow 1024 p,r)
      | some p, 'B' :: r => some (Nat.pow 1000 p,r)
      | some p, r => some (Nat.pow 1024 p,r)
      | none, _ => none

/-- The units of the programs that count lines or bytes. -/
def units : List Char := "bkKmMGTPEZYRQ".toList

/-- The quantity that a text is, in units that it may name. -/
def read (units : List Char) (t : Raw) : Except QuantityError Nat :=
  let s := t.dropWhile (fun c => c = ' ' || ('\t' ≤ c && c ≤ '\r'))
  let s := match s with
    | '+' :: r => r
    | r => r
  let digits := s.takeWhile Char.isDigit
  let rest := s.drop digits.length
  match readUnit units rest with
  | some (factor,[]) =>
    if digits.isEmpty && (rest.isEmpty || rest != t) then .error .malformed
    else
      let n := (Numeral.readDigits digits).getD 1 * factor
      if n > limit then .error .tooGreat else .ok n
  | _ => .error .malformed

end Quantity

/-- What is said of a text that is no quantity after the name of what it should be a number of. -/
def QuantityError.detail : QuantityError → Raw
  | .malformed => []
  | .tooGreat => txt ": Value too large for defined data type"

end JobShell

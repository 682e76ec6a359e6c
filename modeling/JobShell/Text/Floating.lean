import JobShell.Text.Numeral

/-!
# Binary floating-point numbers

A number is a whole number times a power of two, or infinite, or no number at
all. It is read from decimal or hexadecimal text and rounded to as many binary
digits as its format has, the even neighbour being taken of two equally near
ones; it is written in decimal from its exact value.
-/
namespace JobShell

/-- How many binary digits numbers have, and the bounds of their powers of two: every number is below two to
    the power `top` and a multiple of two to the power `bottom`. -/
structure FloatFormat where
  digits : Nat
  top : Int
  bottom : Int

namespace FloatFormat

/-- Numbers of 64 bits. -/
def double : FloatFormat := ⟨53,1024,-1074⟩

/-- Numbers of 80 bits. -/
def extended : FloatFormat := ⟨64,16384,-16445⟩

end FloatFormat

/-- A floating-point number. -/
inductive Floating where
  /-- The whole number times two to the power. -/
  | finite (negative : Bool) (m : Nat) (power : Int)
  | infinite (negative : Bool)
  | notNumber (negative : Bool)
  deriving DecidableEq, Repr

namespace Floating

/-- The whole number nearest to a quotient, the even one of two equally near. -/
def roundDiv (n d : Nat) : Nat :=
  let q := n / d
  let twice := 2 * (n % d)
  if twice < d || (twice = d && q % 2 = 0) then q else q + 1

/-- A base to a power, over one to the opposite power. -/
def scale (base : Nat) (power : Int) : Nat × Nat :=
  if power ≥ 0 then (Nat.pow base power.toNat,1) else (1,Nat.pow base (-power).toNat)

/-- The number nearest to a quotient of whole numbers, and whether it is out of range. -/
def ofQuotient (f : FloatFormat) (negative : Bool) (n d : Nat) : Floating × Bool :=
  if n = 0 then (.finite negative 0 0,false)
  else
    -- the quotient has about this many binary digits before the point
    let size : Int := (Nat.log2 n : Int) - Nat.log2 d
    let attempt := fun (power : Int) =>
      let (a,b) := scale 2 power
      roundDiv (n * b) (d * a)
    let power := max (size - f.digits) f.bottom
    let m := attempt power
    let (m,power) := if m ≥ Nat.pow 2 f.digits then (attempt (power+1),power+1) else (m,power)
    let (m,power) := if m ≥ Nat.pow 2 f.digits then (m / 2,power+1) else (m,power)
    if m ≠ 0 && (Nat.log2 m : Int) + power ≥ f.top then (.infinite negative,true)
    else
      let (a,b) := scale 2 power
      (.finite negative m power,m < Nat.pow 2 (f.digits - 1) && m * a * d ≠ n * b)

/-- The value of a hexadecimal digit. -/
def hexDigit? (c : Char) : Option Nat :=
  if c.isDigit then some (c.toNat - 48)
  else if 'a' ≤ c && c ≤ 'f' then some (c.toNat - 87)
  else if 'A' ≤ c && c ≤ 'F' then some (c.toNat - 55)
  else none

/-- The value of digits in a base. -/
def ofDigits (base : Nat) (l : Text) : Nat := l.foldl (fun n c => base * n + (hexDigit? c).getD 0) 0

/-- An exponent after one of two letters, and the text after it. -/
def readExponent (lower upper : Char) (s : Text) : Int × Text :=
  match s with
  | c :: r =>
    if c = lower || c = upper then
      let (negative,digits) := match r with
        | '-' :: r => (true,r)
        | '+' :: r => (false,r)
        | r => (false,r)
      let n := digits.takeWhile Char.isDigit
      if n.isEmpty then (0,s)
      else
        let e : Int := ofDigits 10 n
        (if negative then -e else e,digits.drop n.length)
    else (0,s)
  | [] => (0,[])

/-- Digits with a point among them: the digits, how many of them stand after the point, and the text after. -/
def readMantissa (isDigit : Char → Bool) (s : Text) : Text × Nat × Text :=
  let whole := s.takeWhile isDigit
  match s.drop whole.length with
  | '.' :: r =>
    let fraction := r.takeWhile isDigit
    if whole.isEmpty && fraction.isEmpty then ([],0,s)
    else (whole ++ fraction,fraction.length,r.drop fraction.length)
  | r => (whole,0,r)

/-- A decimal number that is zero or within the range of every format, or else whether it is too great. -/
def ofDecimal (f : FloatFormat) (negative : Bool) (digits : Text) (power : Int) : Floating × Bool :=
  let digits := digits.dropWhile (· == '0')
  let size := power + digits.length
  if digits.isEmpty then (.finite negative 0 0,false)
  else if size > 6000 then (.infinite negative,true)
  else if size < -6000 then (.finite negative 0 0,true)
  else
    let (a,b) := scale 10 power
    ofQuotient f negative (ofDigits 10 digits * a) b

/-- The number at the beginning of a text after blanks: the number, whether it is out of range, and the text
    after it; `none` when there is none. -/
def read (f : FloatFormat) (s : Text) : Option (Floating × Bool × Text) :=
  let s := s.dropWhile (fun c => c = ' ' || ('\t' ≤ c && c ≤ '\r'))
  let (negative,r) := match s with
    | '-' :: r => (true,r)
    | '+' :: r => (false,r)
    | r => (false,r)
  let begins := fun (word : String) => (txt word).isPrefixOf ((r.take word.length).map Char.toLower)
  if begins "infinity" then some (.infinite negative,false,r.drop 8)
  else if begins "inf" then some (.infinite negative,false,r.drop 3)
  else if begins "nan" then
    match r.drop 3 with
    | '(' :: rest =>
      let inner := rest.takeWhile (fun c => c.isAlphanum || c = '_')
      match rest.drop inner.length with
      | ')' :: rest => some (.notNumber negative,false,rest)
      | _ => some (.notNumber negative,false,r.drop 3)
    | rest => some (.notNumber negative,false,rest)
  else
    let hex := match r with
      | '0' :: c :: r =>
        let (digits,after,rest) := readMantissa (fun c => (hexDigit? c).isSome) r
        if (c = 'x' || c = 'X') && !digits.isEmpty then some (digits,after,rest) else none
      | _ => none
    match hex with
    | some (digits,after,rest) =>
      let (e,rest) := readExponent 'p' 'P' rest
      let e := max (-40000) (min 40000 e)
      let (a,b) := scale 2 (e - 4 * after)
      let (x,bad) := ofQuotient f negative (ofDigits 16 digits * a) b
      some (x,bad,rest)
    | none =>
      let (digits,after,rest) := readMantissa Char.isDigit r
      if digits.isEmpty then none
      else
        let (e,rest) := readExponent 'e' 'E' rest
        let (x,bad) := ofDecimal f negative digits (e - after)
        some (x,bad,rest)

/-- A text of digits with a point before the last `places` of them; `always` puts a point after a whole number. -/
def withPoint (always : Bool) (places : Nat) (digits : Text) : Text :=
  let digits := List.replicate (places + 1 - digits.length) '0' ++ digits
  let whole := digits.take (digits.length - places)
  if places = 0 then (if always then whole ++ ['.'] else whole) else whole ++ '.' :: digits.drop whole.length

/-- A number with a number of decimal places. -/
def fixed (point : Bool) (places m : Nat) (power : Int) : Text :=
  let (a,b) := scale 2 power
  withPoint point places (Numeral.ofNat (roundDiv (m * a * Nat.pow 10 places) b))

/-- The digits of a number, one before the point and `places` after it, and its power of ten. -/
def scientific (places m : Nat) (power : Int) : Text × Int :=
  if m = 0 then (List.replicate (places+1) '0',0)
  else
    let (a,b) := scale 2 power
    let n := m * a
    -- the power of ten is found from the number of digits before the point, or of zeros after it
    let guess : Int := if n ≥ b then ((Numeral.ofNat (n / b)).length : Int) - 1
      else -((Numeral.ofNat (b / n)).length : Int)
    let attempt := fun (e : Int) =>
      let (c,d) := scale 10 (places - e)
      Numeral.ofNat (roundDiv (n * c) (b * d))
    let digits := attempt guess
    if digits.length > places + 1 then (attempt (guess+1),guess+1) else (digits,guess)

/-- An exponent with its sign and at least so many digits. -/
def exponentText (least : Nat) (e : Int) : Text :=
  let digits := Numeral.ofNat e.natAbs
  (if e < 0 then '-' else '+') :: List.replicate (least - digits.length) '0' ++ digits

/-- A number as digits with a power of ten. -/
def exponential (point : Bool) (places m : Nat) (power : Int) : Text :=
  let (digits,e) := scientific places m power
  withPoint point places digits ++ 'e' :: exponentText 2 e

/-- A number in the shorter of the two forms, with so many digits at most. -/
def general (point : Bool) (digits m : Nat) (power : Int) : Text :=
  let p := max digits 1
  let (_,e) := scientific (p-1) m power
  let trim := fun (t : Text) =>
    if point || !t.contains '.' then t
    else
      let t := Text.dropEndWhile (· == '0') t
      if t.getLast? = some '.' then t.dropLast else t
  if -4 ≤ e && e < p then trim (fixed point (p - 1 - e).toNat m power)
  else
    let (ds,e) := scientific (p-1) m power
    trim (withPoint point (p-1) ds) ++ 'e' :: exponentText 2 e

/-- A number in hexadecimal: its first digit has `lead` binary digits. -/
def hexadecimal (point : Bool) (places : Option Nat) (f : FloatFormat) (lead m : Nat) (power : Int) : Text :=
  -- the digits after the point
  let all := (f.digits - lead + 3) / 4
  if m = 0 then txt "0x" ++ withPoint point (places.getD 0) (List.replicate ((places.getD 0)+1) '0') ++ txt "p+0"
  else
    let shift := f.digits - 1 - Nat.log2 m
    let whole := m * Nat.pow 2 shift * Nat.pow 2 (4 * all + lead - f.digits)
    let e : Int := power - shift + (f.digits - lead)
    let (digits,count) := match places with
      | some p => if p < all then (roundDiv whole (Nat.pow 16 (all - p)),p) else (whole * Nat.pow 16 (p - all),p)
      | none => (whole,all)
    let text := withPoint point count (Nat.toDigits 16 digits)
    let text := if places.isNone && text.contains '.' then Text.dropEndWhile (· == '0') text else text
    let text := if !point && text.getLast? = some '.' then text.dropLast else text
    txt "0x" ++ text ++ 'p' :: exponentText 1 e

end Floating
end JobShell

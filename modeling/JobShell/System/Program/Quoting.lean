import JobShell.Text.Raw

/-!
# Names in complaints

How a program shows a name in what it says about it: in quotes from which a
shell reads the name back, in such quotes only where the name needs them, or in
plain quotes with escapes. A name is shown byte by byte, and whatever is not
printable ASCII by its number.
-/
namespace JobShell
namespace Quoting

/-- Whether a byte is printable. -/
def isShown (b : UInt8) : Bool := 32 ≤ b && b < 127

/-- The octal digit of a number below eight. -/
def octal (b : UInt8) : Char := Char.ofNat (48 + b.toNat % 8)

/-- The escape of a byte that is not printable. -/
def escaped (b : UInt8) : Text :=
  '\\' :: match b with
    | 7 => ['a']
    | 8 => ['b']
    | 9 => ['t']
    | 10 => ['n']
    | 11 => ['v']
    | 12 => ['f']
    | 13 => ['r']
    | b => [octal (b / 64),octal (b / 8),octal b]

/-- A printable byte as a character. -/
def shown (b : UInt8) : Char := Char.ofNat b.toNat

/-- Whether a byte is the same to every reader inside double quotes, at the start of a name or not. -/
def isTame (start : Bool) (b : UInt8) : Bool :=
  let c := shown b
  c.isAlphanum || [' ','\'','%','+',',','-','.','/',':',']','_','@'].contains c || (start && (c = '#' || c = '~'))

/-- Whether a name without quotes means something else to a shell. -/
def needsQuotes : Bytes → Bool
  | [] => true
  | b :: r =>
    (b :: r).any (fun x => !isShown x ||
      [' ','!','"','$','&','(',')','*',';','<','=','>','?','[','\\','^','\x60','|','\'',':'].contains (shown x)) ||
    shown b = '#' || shown b = '~' || (r.isEmpty && (shown b = '{' || shown b = '}'))

/-- What stands between the quotes. Bytes that are not printable stand in quotes of their own after a
    dollar sign; `open_` tells that the last byte was such a byte. -/
def body (open_ : Bool) : Bytes → Text
  | [] => []
  | b :: r =>
    if b = 39 then txt "\x27\\\x27\x27" ++ body false r
    else if isShown b then (if open_ then txt "\x27\x27" else []) ++ shown b :: body false r
    else (if open_ then [] else txt "\x27$\x27") ++ escaped b ++ body true r

/-- A name in quotes from which a shell reads it back. A name that holds a single quote is looked at
    twice, and the second time begins as the first one ends. -/
def always (name : Raw) : Raw :=
  let bytes := Raw.toBytes name
  if bytes.contains 39 && (bytes.take 1).all (isTame true) && (bytes.drop 1).all (isTame false) then
    '"' :: name ++ ['"']
  else '\'' :: body (bytes.contains 39 && bytes.getLast?.any (!isShown ·)) bytes ++ ['\'']

/-- A name in quotes if a shell needs them to read it back. -/
def ifNeeded (name : Raw) : Raw := if needsQuotes (Raw.toBytes name) then always name else name

/-- A name in plain quotes, with escapes. -/
def plain (name : Raw) : Raw :=
  '\'' :: (Raw.toBytes name).flatMap (fun b =>
    if b = 39 || b = 92 then ['\\',shown b] else if isShown b then [shown b] else escaped b) ++ ['\'']

end Quoting
end JobShell

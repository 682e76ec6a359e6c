import JobShell.Text.Raw

/-!
# Escapes

A backslash with what follows it stands for a byte. Which escapes there are
depends on who reads them.
-/
namespace JobShell
namespace Escapes

/-- The value of a digit in a base of at most sixteen. -/
def digitIn? (base : Nat) (c : Char) : Option Nat :=
  let v := if c.isDigit then c.toNat - 48
    else if 'a' ≤ c && c ≤ 'f' then c.toNat - 87
    else if 'A' ≤ c && c ≤ 'F' then c.toNat - 55
    else 99
  if v < base then some v else none

/-- The number of at most `limit` leading digits, how many there are, and the text after them. -/
def leadingDigits (base limit : Nat) (s : Raw) : Nat × Nat × Raw :=
  let digits := (s.take limit).takeWhile (fun c => (digitIn? base c).isSome)
  (digits.foldl (fun n c => base * n + (digitIn? base c).getD 0) 0,digits.length,s.drop digits.length)

/-- The byte of a number. -/
def byte (n : Nat) : Char := Char.ofNat (n % 256)

/-- The byte of a letter after a backslash. -/
def letter? (c : Char) : Option Char :=
  match c with
  | 'a' => some '\x07'
  | 'b' => some '\x08'
  | 'f' => some '\x0c'
  | 'n' => some '\n'
  | 'r' => some '\x0d'
  | 't' => some '\t'
  | 'v' => some '\x0b'
  | '\\' => some '\\'
  | _ => none

/-- What stands after a backslash: what it stands for, none when nothing may follow, and the text after it.
    An octal number has three digits at most, and may have a zero before them. Not everybody knows hexadecimal
    numbers. -/
def afterBackslash (hex : Bool) : Raw → Option Raw × Raw
  | [] => (some ['\\'],[])
  | c :: r =>
    if c = 'c' then (none,[])
    else if c = 'e' then (some ['\x1b'],r)
    else if c = 'x' && hex && r.head?.any (fun d => (digitIn? 16 d).isSome) then
      let (n,_,rest) := leadingDigits 16 2 r
      (some [byte n],rest)
    else if (digitIn? 8 c).isSome then
      let (n,_,rest) := leadingDigits 8 3 (if c = '0' && r.head?.any (fun d => (digitIn? 8 d).isSome) then r else c :: r)
      (some [byte n],rest)
    else match letter? c with
      | some b => (some [b],r)
      | none => (some ['\\',c],r)

/-- A text without its escapes, up to the one after which nothing may follow, and whether there is one. -/
def expandFrom (hex : Bool) : Nat → Raw → Raw × Bool
  | 0, _ => ([],false)
  | _+1, [] => ([],false)
  | fuel+1, c :: r =>
    if c = '\\' then
      match afterBackslash hex r with
      | (none,_) => ([],true)
      | (some out,rest) => let more := expandFrom hex fuel rest; (out ++ more.1,more.2)
    else let more := expandFrom hex fuel r; (c :: more.1,more.2)

/-- A text without its escapes, up to the one after which nothing may follow, and whether there is one. -/
def expand (hex : Bool) (s : Raw) : Raw × Bool := expandFrom hex (s.length + 1) s

end Escapes
end JobShell

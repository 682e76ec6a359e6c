import JobShell.Text.Numeral

/-!
# Scalars of the TOML format

The parts of a TOML document that have no structure: blanks and comments,
strings, numbers, and dates with times. Each reader takes a text and yields what
stands at its beginning with the text after it.
-/
namespace JobShell
namespace Toml

/-- Blanks and tabs at the beginning are skipped. -/
def skipBlanks (s : Text) : Text := s.dropWhile (fun c => c = ' ' || c = '\t')

/-- Characters that may stand in a comment: all but control characters, and the tab. -/
def isPlain (c : Char) : Bool := c = '\t' || (32 ≤ c.toNat && c.toNat != 127)

/-- The text after a line end. -/
def afterNewline? : Text → Option Text
  | '\n' :: r => some r
  | '\r' :: '\n' :: r => some r
  | _ => none

/-- The text after blanks and a comment, if there is one. -/
def skipComment (s : Text) : Text :=
  match skipBlanks s with
  | '#' :: r => r.dropWhile isPlain
  | r => r

/-- The text after the rest of a line, which holds nothing but blanks and a comment. -/
def endOfLine? (s : Text) : Option Text :=
  match skipComment s with
  | [] => some []
  | r => afterNewline? r

/-- The text after empty lines, comments and blanks; `fuel` bounds the number of lines. -/
def skipLines : Nat → Text → Text
  | 0, s => s
  | fuel+1, s =>
    match afterNewline? (skipComment s) with
    | some r => skipLines fuel r
    | none => skipComment s

/-! ### Strings -/

/-- The value of a hexadecimal digit. -/
def hexDigit? (c : Char) : Option Nat :=
  if c.isDigit then some (c.toNat - 48)
  else if 'a' ≤ c && c ≤ 'f' then some (c.toNat - 87)
  else if 'A' ≤ c && c ≤ 'F' then some (c.toNat - 55)
  else none

/-- The value of digits in a base. -/
def readBase (base : Nat) (digits : Text) : Option Nat :=
  if digits.isEmpty then none
  else digits.foldl (fun acc c => do
    let n ← acc
    let d ← hexDigit? c
    if d < base then some (base * n + d) else none) (some 0)

/-- The character with a code of `n` hexadecimal digits. -/
def coded? (n : Nat) (s : Text) : Option (Char × Text) := do
  let digits := s.take n
  if digits.length = n then
    let code ← readBase 16 digits
    if code.isValidChar then some (Char.ofNat code,s.drop n) else none
  else none

/-- The character of an escape, after its backslash. -/
def escaped? : Text → Option (Char × Text)
  | 'b' :: r => some ('\x08',r)
  | 't' :: r => some ('\t',r)
  | 'n' :: r => some ('\n',r)
  | 'f' :: r => some ('\x0c',r)
  | 'r' :: r => some ('\r',r)
  | '"' :: r => some ('"',r)
  | '\\' :: r => some ('\\',r)
  | 'u' :: r => coded? 4 r
  | 'U' :: r => coded? 8 r
  | _ => none

/-- A string on one line, after its quote. -/
def basicString : Nat → Text → Option (Text × Text)
  | 0, _ => none
  | _+1, [] => none
  | fuel+1, c :: r =>
    if c = '"' then some ([],r)
    else if c = '\\' then do
      let (e,rest) ← escaped? r
      let (t,rest) ← basicString fuel rest
      return (e :: t,rest)
    else if isPlain c then (basicString fuel r).map (fun p => (c :: p.1,p.2))
    else none

/-- A string without escapes on one line, after its quote. -/
def literalString : Text → Option (Text × Text)
  | [] => none
  | c :: r =>
    if c = '\'' then some ([],r)
    else if isPlain c then (literalString r).map (fun p => (c :: p.1,p.2))
    else none

/-- The closing quotes of a string of several lines: two more of them may belong to the string. -/
def closing (quote : Char) (s : Text) : Option (Text × Text) :=
  let n := (s.takeWhile (· == quote)).length
  if n < 3 then none
  else let inner := min (n-3) 2; some (List.replicate inner quote,s.drop (inner+3))

/-- The text after blanks and line ends. -/
def skipGaps : Text → Text
  | ' ' :: r => skipGaps r
  | '\t' :: r => skipGaps r
  | '\n' :: r => skipGaps r
  | '\r' :: '\n' :: r => skipGaps r
  | r => r

/-- A string of several lines, after its quotes. A backslash at the end of a line joins the lines. -/
def longString (quote : Char) (escapes : Bool) : Nat → Text → Option (Text × Text)
  | 0, _ => none
  | _+1, [] => none
  | fuel+1, c :: r =>
    match closing quote (c :: r) with
    | some p => some p
    | none =>
      match afterNewline? (c :: r) with
      | some rest => (longString quote escapes fuel rest).map (fun p => ('\n' :: p.1,p.2))
      | none =>
        if c = '\\' && escapes then
          match afterNewline? (skipBlanks r) with
          | some rest => longString quote escapes fuel (skipGaps rest)
          | none => do
            let (e,rest) ← escaped? r
            let (t,rest) ← longString quote escapes fuel rest
            return (e :: t,rest)
        else if isPlain c then (longString quote escapes fuel r).map (fun p => (c :: p.1,p.2))
        else none

/-- A line end right after the quotes of a string of several lines does not belong to it. -/
def withoutFirstNewline (s : Text) : Text := (afterNewline? s).getD s

/-- The string at the beginning of a text. -/
def string? (s : Text) : Option (Text × Text) :=
  match s with
  | '"' :: '"' :: '"' :: r => longString '"' true (r.length + 1) (withoutFirstNewline r)
  | '"' :: r => basicString (r.length + 1) r
  | '\'' :: '\'' :: '\'' :: r => longString '\'' false (r.length + 1) (withoutFirstNewline r)
  | '\'' :: r => literalString r
  | _ => none

/-! ### Numbers -/

/-- Digits with single underscores between them, the underscores dropped. -/
def grouped? (isDigit : Char → Bool) : Text → Option Text
  | [] => none
  | [c] => if isDigit c then some [c] else none
  | c :: '_' :: r => if isDigit c then (grouped? isDigit r).map (c :: ·) else none
  | c :: r => if isDigit c then (grouped? isDigit r).map (c :: ·) else none

/-- A text without its sign, and whether that was a minus. -/
def signed : Text → Bool × Text
  | '-' :: r => (true,r)
  | '+' :: r => (false,r)
  | r => (false,r)

/-- Digits with underscores that do not begin with a zero before other digits. -/
def wholeDigits? (s : Text) : Option Text :=
  match grouped? Char.isDigit s with
  | some digits => if digits.head? = some '0' && s.length > 1 then none else some digits
  | none => none

/-- The greatest value of a 64-bit signed integer. -/
def maxInt64 : Nat := 9223372036854775807

/-- The integer that a text is. -/
def integer? (s : Text) : Option Int :=
  let based := fun base digits =>
    ((grouped? (fun c => (hexDigit? c).any (· < base)) digits).bind (readBase base)).bind
      fun n => if n ≤ maxInt64 then some (n : Int) else none
  match s with
  | '0' :: 'x' :: r => based 16 r
  | '0' :: 'o' :: r => based 8 r
  | '0' :: 'b' :: r => based 2 r
  | _ => do
    let n ← Numeral.readDigits (← wholeDigits? (signed s).2)
    if (signed s).1 then (if n ≤ maxInt64 + 1 then some (-(n : Int)) else none)
    else if n ≤ maxInt64 then some (n : Int) else none

/-- The least number that no 64-bit floating-point number is near to. -/
def floatLimit : Nat := Nat.pow 2 1024 - Nat.pow 2 970

/-- Whether the number with these digits times ten to a power is too great for a floating-point number. It is
    less than ten to the power of `size`, and not less than a tenth of that. -/
def isTooGreat (digits : Text) (exponent : Int) : Bool :=
  let digits := digits.dropWhile (· == '0')
  let size := exponent + digits.length
  if digits.isEmpty || size < 300 then false
  else if size > 400 then true
  else
    let n := (Numeral.readDigits digits).getD 0
    if exponent ≥ 0 then n * Nat.pow 10 exponent.toNat ≥ floatLimit
    else n ≥ floatLimit * Nat.pow 10 (-exponent).toNat

/-- A digit, or an underscore between digits. -/
def isGrouped (c : Char) : Bool := c.isDigit || c = '_'

/-- The exponent of a number, after its letter. -/
def power? (s : Text) : Option Int := do
  let n ← Numeral.readDigits (← grouped? Char.isDigit (signed s).2)
  return if (signed s).1 then -(n : Int) else n

/-- The power of ten at the end of a number; zero when there is none. -/
def exponent? : Text → Option Int
  | [] => some 0
  | 'e' :: r | 'E' :: r => power? r
  | _ => none

/-- The digits of a text without a sign that is a number with a fraction or an exponent, and the power of ten
    that they are to be multiplied by. -/
def unsignedFloat? (s : Text) : Option (Text × Int) :=
  let whole := s.takeWhile isGrouped
  let rest := s.drop whole.length
  match wholeDigits? whole, rest with
  | some digits, '.' :: r =>
    match grouped? Char.isDigit (r.takeWhile isGrouped), exponent? (r.dropWhile isGrouped) with
    | some fraction, some e => some (digits ++ fraction,e - fraction.length)
    | _, _ => none
  | some digits, _ :: _ => (exponent? rest).map (fun e => (digits,e))
  | _, _ => none

/-- Whether a text is a number with a fraction or an exponent. A negative number may be too great: it is then
    infinite. -/
def isFloat (s : Text) : Bool :=
  let (negative,magnitude) := signed s
  magnitude = txt "inf" || magnitude = txt "nan" ||
    (unsignedFloat? magnitude).any (fun n => negative || !isTooGreat n.1 n.2)

/-! ### Dates and times -/

/-- A number of `n` digits within bounds at the beginning of a text. -/
def field? (n low high : Nat) (s : Text) : Option (Nat × Text) := do
  if (s.take n).length = n then
    let v ← Numeral.readDigits (s.take n)
    if low ≤ v && v ≤ high then some (v,s.drop n) else none
  else none

/-- The text after a character. -/
def after? (c : Char) : Text → Option Text
  | [] => none
  | d :: r => if d = c then some r else none

/-- The number of days of a month. -/
def daysIn (year month : Nat) : Nat :=
  if month = 2 then (if year % 4 = 0 && (year % 100 != 0 || year % 400 = 0) then 29 else 28)
  else if [4,6,9,11].contains month then 30 else 31

/-- A number of two digits. -/
def twoDigits (n : Nat) : Text := (if n < 10 then ['0'] else []) ++ Numeral.ofNat n

/-- A date, as it is written. -/
def date? (s : Text) : Option (Text × Text) := do
  let (year,r) ← field? 4 0 9999 s
  let r ← after? '-' r
  let (month,r) ← field? 2 1 12 r
  let r ← after? '-' r
  let (_,r) ← field? 2 1 (daysIn year month) r
  return (s.take 10,r)

/-- The fraction of a second: at most nine digits count, zeros at the end do not. -/
def fraction? (s : Text) : Option (Text × Text) :=
  match s with
  | '.' :: r =>
    let digits := r.takeWhile Char.isDigit
    if digits.isEmpty then none
    else
      let kept := Text.dropEndWhile (· == '0') (digits.take 9)
      some (if kept.isEmpty then [] else '.' :: kept,r.drop digits.length)
  | r => some ([],r)

/-- A time of the day. -/
def time? (s : Text) : Option (Text × Text) := do
  let (_,r) ← field? 2 0 23 s
  let r ← after? ':' r
  let (_,r) ← field? 2 0 59 r
  let r ← after? ':' r
  let (_,r) ← field? 2 0 60 r
  let (fraction,r) ← fraction? r
  return (s.take 8 ++ fraction,r)

/-- The difference of a time zone; empty when there is none. -/
def offset? (s : Text) : Option (Text × Text) :=
  match s with
  | 'Z' :: r | 'z' :: r => some (['Z'],r)
  | sign :: r =>
    if sign = '+' || sign = '-' then do
      let (h,r) ← field? 2 0 23 r
      let r ← after? ':' r
      let (m,r) ← field? 2 0 59 r
      let sign := if h = 0 && m = 0 then '+' else sign
      return (sign :: twoDigits h ++ ':' :: twoDigits m,r)
    else some ([],s)
  | [] => some ([],[])

/-- A time with a time zone that takes all of a text. -/
def zonedTime? (s : Text) : Option Text := do
  let (t,r) ← time? s
  let (z,r) ← offset? r
  if r.isEmpty then some (t ++ z) else none

/-- Characters of numbers, dates and words. -/
def isScalarChar (c : Char) : Bool :=
  c.isAlphanum || c = '+' || c = '-' || c = '_' || c = '.' || c = ':'

/-- The date, or the time, or both that a text begins with. -/
def moment? (s : Text) : Option (Text × Text) :=
  let token := s.takeWhile isScalarChar
  let rest := s.drop token.length
  match date? token with
  | some (d,[]) =>
    match rest with
    | ' ' :: r =>
      let next := r.takeWhile isScalarChar
      match zonedTime? next with
      | some t => some (d ++ 'T' :: t,r.drop next.length)
      | none => some (d,rest)
    | _ => some (d,rest)
  | some (d,c :: r) =>
    if c = 'T' || c = 't' then (zonedTime? r).map (fun t => (d ++ 'T' :: t,rest)) else none
  | none =>
    match time? token with
    | some (t,[]) => some (t,rest)
    | _ => none

end Toml
end JobShell

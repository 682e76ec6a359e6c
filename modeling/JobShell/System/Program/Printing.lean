import JobShell.System.Program.Format
import JobShell.System.Program.Output
import JobShell.System.Program.Quoting

/-!
# Programs that print their arguments

`echo` prints its arguments as they are or without their escapes, `printf` by a
format that is used again as long as arguments are left, and `yes` again and
again.
-/
namespace JobShell
namespace Printing

/-- Whether an argument of `echo` is made of its option letters. -/
def isEchoOption (arg : Raw) : Bool :=
  match arg with
  | '-' :: c :: r => (c :: r).all (fun d => d = 'n' || d = 'e' || d = 'E')
  | _ => false

/-- The program `echo`. -/
def echo (args : List Raw) : Routine Nat := do
  let letters := (args.takeWhile isEchoOption).flatMap List.tail
  let escapes := (letters.filter (fun c => c = 'e' || c = 'E')).getLast? = some 'e'
  let body := Text.join [' '] (args.dropWhile isEchoOption)
  let feed := if letters.contains 'n' then [] else ['\n']
  if escapes then
    let (out,stopped) := Escapes.expand true body
    Routine.put (out ++ if stopped then [] else feed)
  else Routine.put (body ++ feed)
  return 0

/-! ### Formats -/

/-- The status that `printf` ends with, as far as it is known. -/
abbrev Progress := StateT Nat Routine

/-- Says something about what went wrong with an argument. -/
def refuse (t : Raw) : Progress Unit := do
  monadLift (Routine.complain t)
  set 1

/-- Says what is wrong with an argument that should be a number. -/
def judge (arg rest : Raw) (outside : Bool) : Progress Unit := do
  if outside then refuse (Quoting.plain arg ++ txt ": Numerical result out of range")
  else if rest.isEmpty then return
  else if rest = arg then refuse (Quoting.plain arg ++ txt ": expected a numeric value")
  else refuse (Quoting.plain arg ++ txt ": value not completely converted")

/-- The character that an argument after a quote stands for. -/
def quotedCharacter? (arg : Raw) : Option (Char × Raw) :=
  match arg with
  | '"' :: c :: r | '\'' :: c :: r => some (c,r)
  | _ => none

/-- Warns of what follows a character. -/
def warnOfRest (r : Raw) : Progress Unit := do
  if !r.isEmpty then
    monadLift (Routine.complain
      (txt "warning: " ++ r ++ txt ": character(s) following character constant have been ignored"))

/-- The whole number that an argument stands for, within the bounds that `clamp` sets. -/
def integer {α : Type} (clamp : Int → α × Bool) (arg : Raw) : Progress α := do
  match quotedCharacter? arg with
  | some (c,r) =>
    warnOfRest r
    return (clamp c.toNat).1
  | none =>
    let w := WrittenInteger.read arg
    let (n,outside) := clamp w.value
    judge arg (if w.isThere then w.rest else arg) outside
    return n

/-- The floating-point number that an argument stands for. -/
def floating (arg : Raw) : Progress Floating := do
  match quotedCharacter? arg with
  | some (c,r) =>
    warnOfRest r
    return .finite false c.toNat 0
  | none =>
    match Floating.read .extended arg with
    | some (x,outside,rest) =>
      judge arg rest outside
      return x
    | none =>
      judge arg arg false
      return .finite false 0 0

/-- An escape in a format: the text after it. An escape after which nothing may follow ends the program. -/
def formatEscape (zeroFirst : Bool) (s : Raw) : Routine Raw := do
  match s with
  | 'x' :: r =>
    let (n,count,rest) := Escapes.leadingDigits 16 2 r
    if count = 0 then Routine.fail 1 (txt "missing hexadecimal number in escape")
    Routine.put [Escapes.byte n]
    return rest
  | c :: r =>
    if (Escapes.digitIn? 8 c).isSome then
      let (n,_,rest) := Escapes.leadingDigits 8 3 (if zeroFirst && c = '0' then r else s)
      Routine.put [Escapes.byte n]
      return rest
    else if c = 'c' then Routine.leave 1 0
    else if c = '"' || c = 'e' then
      Routine.put [if c = 'e' then '\x1b' else '"']
      return r
    else if c = 'u' || c = 'U' then
      let size := if c = 'u' then 4 else 8
      let (n,count,rest) := Escapes.leadingDigits 16 size r
      if count < size then Routine.fail 1 (txt "missing hexadecimal number in escape")
      let shown := fun (upper : Bool) =>
        let digits := Nat.toDigits 16 n
        List.replicate (size - digits.length) '0' ++ if upper then digits.map Char.toUpper else digits
      if (n ≤ 0x9f && n ≠ 0x24 && n ≠ 0x40 && n ≠ 0x60) || (0xd800 ≤ n && n ≤ 0xdfff) then
        Routine.fail 1 (txt "invalid universal character name \\" ++ c :: shown false)
      -- a character beyond ASCII is written by its number
      Routine.put (if n < 128 then [Char.ofNat n]
        else if n < 65536 then '\\' :: 'u' :: (shown true).drop (size - 4)
        else '\\' :: 'U' :: shown true)
      return rest
    else
      Routine.put (match Escapes.letter? c with
        | some b => [b]
        | none => ['\\',c])
      return r
  | [] =>
    Routine.put ['\\']
    return []

/-- Prints a text without its escapes. -/
def putEscaped : Nat → Raw → Routine Unit
  | 0, _ => return
  | _+1, [] => return
  | fuel+1, c :: r => do
    if c = '\\' then putEscaped fuel (← formatEscape true r)
    else
      Routine.put [c]
      putEscaped fuel r

/-- What a conversion may be, given the flags and whether it has a precision. -/
def allowed (flags : List Char) (precise : Bool) (letter : Char) : Bool :=
  let isOneOf := fun (s : String) => s.toList.contains letter
  isOneOf "aAcdeEfFgGiosuxX" &&
    !((flags.contains '\'' || flags.contains 'I') && isOneOf "aAceEosxX") &&
    !(flags.contains '#' && isOneOf "cdisu") &&
    !(flags.contains '0' && isOneOf "cs") &&
    !(precise && letter = 'c')

/-- A width or a precision that an argument may give: its value, the format after it, and the arguments left. -/
def measure (what : String) (s : Raw) (args : List Raw) : Progress (Option Int × Raw × List Raw) := do
  match s with
  | '*' :: r =>
    match args with
    | [] => return (some 0,r,[])
    | arg :: args =>
      let n ← integer WrittenInteger.clampSigned arg
      if n > 2147483647 || (what = "field width" && n < -2147483648) then
        monadLift (Routine.fail (α := Unit) 1 (txt ("invalid " ++ what ++ ": ") ++ Quoting.plain arg))
      return (some n,r,args)
  | s =>
    let digits := s.takeWhile Char.isDigit
    return (if digits.isEmpty then none else (Numeral.readDigits digits).map Int.ofNat,s.drop digits.length,args)

/-- Prints a conversion of an argument. -/
def convert (c : Conversion) (arg : Raw) : Progress Unit := do
  let put := fun t => monadLift (m := Routine) (Routine.put t)
  if c.letter = 's' then put (c.text arg)
  else if c.letter = 'c' then put (c.pad [arg.head?.getD '\x00'])
  else if c.letter = 'd' || c.letter = 'i' then put (c.signed (← integer WrittenInteger.clampSigned arg))
  else if ['o','u','x','X'].contains c.letter then put (c.unsigned (← integer WrittenInteger.clampUnsigned arg))
  else put (c.floating .extended 4 (← floating arg))

/-- A conversion after its percent sign: the format after it, and the arguments left. -/
def conversion (s : Raw) (args : List Raw) : Progress (Raw × List Raw) := do
  match s with
  | 'b' :: r =>
    monadLift (putEscaped ((args.head?.getD []).length + 1) (args.head?.getD []))
    return (r,args.tail)
  | 'q' :: r =>
    if let arg :: _ := args then monadLift (Routine.put (Quoting.ifNeeded arg))
    return (r,args.tail)
  | s =>
    let flags := s.takeWhile (['-','0','+',' ','#','\'','I'].contains ·)
    let (width,r,args) ← measure "field width" (s.drop flags.length) args
    let (precise,precision,r,args) ← match r with
      | '.' :: r => do
        let (p,r,args) ← measure "precision" r args
        pure (true,p.getD 0,r,args)
      | r => pure (false,0,r,args)
    let r := r.dropWhile (['l','L','h','j','t','z'].contains ·)
    match r with
    | letter :: rest =>
      if allowed flags precise letter then
        let left := width.any (· < 0)
        convert ⟨if left then '-' :: flags else flags,width.map Int.natAbs,
          if precise && precision ≥ 0 then some precision.toNat else none,letter⟩ (args.head?.getD [])
        return (rest,args.tail)
      else
        monadLift (Routine.fail (α := Unit) 1
          ('%' :: s.take (s.length - rest.length) ++ txt ": invalid conversion specification"))
        return ([],[])
    | [] =>
      monadLift (Routine.fail (α := Unit) 1 ('%' :: s ++ txt ": invalid conversion specification"))
      return ([],[])

/-- One pass through a format: the arguments left. -/
def formatOnce : Nat → Raw → List Raw → Progress (List Raw)
  | 0, _, args => return args
  | _+1, [], args => return args
  | fuel+1, '\\' :: r, args => do formatOnce fuel (← formatEscape false r) args
  | fuel+1, '%' :: '%' :: r, args => do
    monadLift (Routine.put ['%'])
    formatOnce fuel r args
  | fuel+1, '%' :: r, args => do
    let (rest,args) ← conversion r args
    formatOnce fuel rest args
  | fuel+1, c :: r, args => do
    monadLift (Routine.put [c])
    formatOnce fuel r args

/-- Uses a format as long as it takes arguments. -/
def formatAll (format : Raw) : Nat → List Raw → Progress Unit
  | 0, _ => return
  | fuel+1, args => do
    let rest ← formatOnce (format.length + 1) format args
    if rest.length = args.length then
      if let arg :: _ := rest then
        monadLift (Routine.complain (txt "warning: ignoring excess arguments, starting with " ++ Quoting.plain arg))
    else if !rest.isEmpty then formatAll format fuel rest

/-- The program `printf`. -/
def printf (args : List Raw) : Routine Nat := do
  match if args.head? = some ['-','-'] then args.tail else args with
  | [] => Routine.misuse 1 (txt "missing operand")
  | format :: args => return (← StateT.run (formatAll format (args.length + 1) args) 0).2

end Printing
end JobShell

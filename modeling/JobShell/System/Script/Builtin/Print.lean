import JobShell.System.Program.Format
import JobShell.System.Script.Builtin.Basic

/-!
# Printing in scripts

`echo` prints its arguments without their escapes, `printf` prints them by a
format that is used again as long as it takes some of them.
-/
namespace JobShell
namespace Script
namespace Run

/-- The command `echo`. -/
def echo (args : List Raw) : Run Nat := do
  let silent := args.head? = some ['-','n']
  let rec go : List Raw → Run Unit
    | [] => return
    | a :: r => do
      let (out,stopped) := Escapes.expand false a
      put out
      if stopped then return
      else if r.isEmpty then (if silent then return else put ['\n'])
      else
        put [' ']
        go r
  match if silent then args.tail else args with
  | [] => if !silent then put ['\n']
  | args => go args
  return 0

/-! ### Formats -/

/-- What a format has done: the arguments that are left, what it ends with, and whether nothing may follow. -/
structure Formatting where
  args : List Raw
  status : Nat
  stopped : Bool

/-- A part of a format. -/
abbrev Format (α : Type) : Type := StateT Formatting Run α

namespace Format

/-- The next argument. -/
def argument : Format (Option Raw) := do
  let f ← get
  match f.args with
  | [] => return none
  | a :: r =>
    set { f with args := r }
    return some a

/-- Says what is wrong with an argument that should be a number. -/
def judge (arg rest : Raw) (outside : Bool) : Format Unit := do
  let refuse := fun (t : String) => do
    monadLift (warn (arg ++ txt ": " ++ txt t))
    modify (fun f => { f with status := 1 })
  if !rest.isEmpty then refuse (if rest = arg then "expected numeric value" else "not completely converted")
  else if outside then refuse "Numerical result out of range"

/-- The byte after a quote. -/
def quotedByte? (arg : Raw) : Option Nat :=
  match arg with
  | '"' :: r | '\x27' :: r => some ((r.head?.map Char.toNat).getD 0)
  | _ => none

/-- The whole number that the next argument stands for, within the bounds that `clamp` sets. -/
def integer {α : Type} (clamp : Int → α × Bool) : Format α := do
  match ← argument with
  | none => return (clamp 0).1
  | some arg =>
    match quotedByte? arg with
    | some n => return (clamp n).1
    | none =>
      let w := WrittenInteger.read arg
      let (n,outside) := clamp w.value
      judge arg (if w.isThere then w.rest else arg) outside
      return n

/-- The floating-point number that the next argument stands for. -/
def floating : Format Floating := do
  match ← argument with
  | none => return .finite false 0 0
  | some arg =>
    match quotedByte? arg with
    | some n => return .finite false n 0
    | none =>
      match Floating.read .double arg with
      | some (x,outside,rest) =>
        judge arg rest outside
        return x
      | none =>
        judge arg arg false
        return .finite false 0 0

/-- Prints text. -/
def put (t : Raw) : Format Unit := monadLift (Run.put t)

/-- The size of the numbers that widths are. -/
def wordSize : Nat := 4294967296

/-- A width or a precision, which may be the next argument, and the format after it. -/
def measure (s : Raw) : Format (Option Int × Raw) := do
  match s with
  | '*' :: r => return (some (Int.bmod (← integer WrittenInteger.clampSigned) wordSize),r)
  | s =>
    let digits := s.takeWhile Char.isDigit
    return ((Numeral.readDigits digits).map Int.ofNat,s.drop digits.length)

/-- Prints a conversion of the next argument. -/
def convert (c : Conversion) : Format Unit := do
  match c.letter with
  | 's' => put (c.text ((← argument).getD []))
  | 'b' =>
    let (out,stopped) := Escapes.expand false ((← argument).getD [])
    put (c.text out)
    if stopped then modify (fun f => { f with stopped := true })
  | 'c' => put (c.pad [(((← argument).getD []).head?).getD '\x00'])
  | 'd' | 'i' => put (c.signed (← integer WrittenInteger.clampSigned))
  | 'o' | 'u' | 'x' | 'X' => put (c.unsigned (← integer WrittenInteger.clampUnsigned))
  | _ => put (c.floating .double 1 (← floating))

/-- A conversion after its percent sign: the format after it. -/
def conversion (s : Raw) : Format Raw := do
  let flags := s.takeWhile (['#','-','+',' ','0'].contains ·)
  let (width,r) ← measure (s.drop flags.length)
  let (precision,r) ← match r with
    | '.' :: r => do
      let (p,r) ← measure r
      pure (some (p.getD 0),r)
    | r => pure (none,r)
  match r with
  | [] => monadLift (fail (α := Raw) (txt "missing format character"))
  | letter :: rest =>
    if "bcsdiouxXaAeEfFgG".toList.contains letter then
      let left := width.any (· < 0)
      convert ⟨if left then '-' :: flags else flags,width.map Int.natAbs,
        precision.bind (fun p => if p < 0 then none else some p.toNat),letter⟩
      return rest
    else monadLift (fail (α := Raw) ('%' :: s.take (s.length - rest.length) ++ txt ": invalid directive"))

/-- What stands after a backslash in a format: the byte, and the format after it. -/
def escape (s : Raw) : Char × Raw :=
  match s with
  | [] => ('\\',[])
  | c :: r =>
    if (Escapes.digitIn? 8 c).isSome then
      let (n,_,rest) := Escapes.leadingDigits 8 3 s
      (Escapes.byte n,rest)
    else if c = 'e' then ('\x1b',r)
    else match Escapes.letter? c with
      | some b => (b,r)
      | none => ('\\',s)

/-- One pass through a format. -/
def once : Nat → Raw → Format Unit
  | 0, _ => return
  | _+1, [] => return
  | fuel+1, '\\' :: r => do
    let (b,rest) := escape r
    put [b]
    once fuel rest
  | fuel+1, '%' :: '%' :: r => do
    put ['%']
    once fuel r
  | fuel+1, '%' :: r => do
    let rest ← conversion r
    if !(← get).stopped then once fuel rest
  | fuel+1, c :: r => do
    let plain := (c :: r).takeWhile (fun c => c != '%' && c != '\\')
    put plain
    once fuel ((c :: r).drop plain.length)

/-- Uses a format as long as it takes arguments. -/
def all (format : Raw) : Nat → Format Unit
  | 0 => return
  | fuel+1 => do
    let before := (← get).args.length
    once (format.length + 1) format
    let f ← get
    if !f.stopped && !f.args.isEmpty && f.args.length < before then all format fuel

end Format

/-- The command `printf`. -/
def printf (args : List Raw) : Run Nat := do
  match ← operands args with
  | [] => fail (txt "usage: printf format [arg ...]")
  | format :: args =>
    let (_,f) ← StateT.run (Format.all format (args.length + 1)) ⟨args,0,false⟩
    return f.status

end Run
end Script
end JobShell

import JobShell.System.Program.Options
import JobShell.System.Program.Output
import JobShell.System.Program.Quoting
import JobShell.Text.Floating

/-!
# Programs without input

`yes` writes the same again and again, `sleep` waits, and `touch` makes files or
sets their times.
-/
namespace JobShell
namespace Simple

/-- Writes bytes again and again. -/
def writeForever (b : Bytes) : Nat → Routine Nat
  | 0 => return 0
  | fuel+1 => do
    match ← Routine.write b with
    | none => writeForever b fuel
    | some e => Routine.failWriting 1 (txt "standard output") e

/-- The names of options that every program has. -/
def commonNames : List OptionName := [.flag "help" '?',.flag "version" '?']

/-- The program `yes`. -/
def yes (args : List Raw) : Routine Nat := do
  let args := OptionTable.read ⟨[],commonNames,true⟩ args
  if let some t := Argument.complaint? args then Routine.misuse (α := Unit) 1 t
  let words := match Argument.operands args with
    | [] => [['y']]
    | l => l
  let line := Raw.toBytes (Text.join [' '] words ++ ['\n'])
  writeForever ((List.replicate (max 1 (8192 / line.length)) line).flatten) Action.rounds

/-- The microseconds of a duration, a number perhaps with a unit. A part of a microsecond counts as one. -/
def duration? (v : Raw) : Option Nat :=
  match Floating.read .extended v with
  | none => none
  | some (x,_,unit) =>
    let scale := match unit with
      | [] | ['s'] => some 1
      | ['m'] => some 60
      | ['h'] => some 3600
      | ['d'] => some 86400
      | _ => none
    match x, scale with
    | .finite negative m power, some k =>
      if negative && m ≠ 0 then none
      else
        let (a,b) := Floating.scale 2 power
        some ((m * a * k * 1000000 + b - 1) / b)
    | .infinite false, some _ => some 100000000000000
    | _, _ => none

/-- The program `sleep`. -/
def sleep (args : List Raw) : Routine Nat := do
  let args := OptionTable.read ⟨[],commonNames,false⟩ args
  if let some t := Argument.complaint? args then Routine.misuse (α := Unit) 1 t
  let words := Argument.operands args
  if words.isEmpty then Routine.misuse (α := Unit) 1 (txt "missing operand")
  let bad := words.filter (fun w => (duration? w).isNone)
  match bad.reverse with
  | [] =>
    Routine.ask (.pause ((words.filterMap duration?).foldl (· + ·) 0))
    return 0
  | last :: others =>
    let said := fun w => txt "invalid time interval " ++ Quoting.plain w
    complainAll (others.reverse.map said)
    Routine.misuse 1 (said last)
where
  /-- Says one thing after the other. -/
  complainAll : List Raw → Routine Unit
    | [] => return
    | t :: rest => do
      Routine.complain t
      complainAll rest

/-- The options of `touch`. -/
def touchTable : OptionTable where
  letters := OptionTable.flags "acfhm" ++ OptionTable.valued "drt"
  names := [.setting "time" '1',.flag "no-create" 'c',.setting "date" 'd',.setting "reference" 'r',
    .flag "no-dereference" 'h'] ++ commonNames
  inOrder := false

/-- Whether a text is a time: month, day, hour and minute, perhaps with a year before them and seconds after. -/
def isStamp (v : Raw) : Bool :=
  let whole := v.takeWhile Char.isDigit
  let rest := v.drop whole.length
  let fields := (whole.drop (whole.length - 8))
  let field := fun i => (Numeral.readDigits ((fields.drop i).take 2)).getD 0
  let seconds := match rest with
    | [] => true
    | '.' :: s => s.length = 2 && ((Numeral.readDigits s).any (· ≤ 60))
    | _ => false
  [8,10,12].contains whole.length && seconds && 1 ≤ field 0 && field 0 ≤ 12 && 1 ≤ field 2 && field 2 ≤ 31 &&
    field 4 ≤ 23 && field 6 ≤ 59

/-- Makes a file, or sets its times; whether that could be done. Nothing is made when `quiet`, which means that a
    file need not be there, or when links are not followed. -/
def touchOne (quiet follow : Bool) (file : Raw) : Routine Bool := do
  if file = ['-'] then return true
  let opening ← (if !quiet && follow then do
      match ← Routine.ask (.openFile .update file) with
      | .ok fd =>
        let _ ← Routine.ask (.close fd)
        return none
      | .error e => return some e
    else return none : Routine (Option Errno))
  -- what could not be opened may still be there, so that its times can be set
  match ← Routine.ask (.look follow file) with
  | .ok _ => return true
  | .error e =>
    match opening with
    | some o =>
      if o ≠ Errno.isDirectory then
        Routine.complain (txt "cannot touch " ++ Quoting.always file ++ txt ": " ++ o.message)
        return false
    | none => if quiet && e = Errno.noEntry then return true
    Routine.complain (txt "setting times of " ++ Quoting.always file ++ txt ": " ++ e.message)
    return false

/-- Makes files, or sets their times; whether all of that could be done. -/
def touchAll (quiet follow : Bool) : List Raw → Routine Bool
  | [] => return true
  | f :: rest => do
    let good ← touchOne quiet follow f
    let better ← touchAll quiet follow rest
    return good && better

/-- The program `touch`. -/
def touch (args : List Raw) : Routine Nat := do
  let args := touchTable.read args
  for a in args do
    match a with
    | .wrong _ t => Routine.misuse 1 t
    | .option '1' (some v) =>
      if ["access","atime","use","modify","mtime"].all (fun w => !v.isPrefixOf (txt w)) then
        Routine.complain (txt "invalid argument " ++ Quoting.plain v ++ txt " for \x27--time\x27")
        Routine.warn (txt "Valid arguments are:\n  - \x27atime\x27, \x27access\x27, \x27use\x27\n  - \x27mtime\x27, \x27modify\x27\n")
        Routine.misuse 1 []
    | .option 't' (some v) =>
      if !isStamp v then Routine.fail 1 (txt "invalid date format " ++ Quoting.plain v)
    | _ => pure ()
  let has := fun l => Argument.has l args
  for a in args do
    if let .option 'r' (some v) := a then
      if let .error e ← Routine.ask (.look (!has 'h') v) then
        Routine.fail (α := Unit) 1 (txt "failed to get attributes of " ++ Quoting.always v ++ txt ": " ++ e.message)
  let files := Argument.operands args
  if files.isEmpty then Routine.misuse (α := Unit) 1 (txt "missing file operand")
  return if ← touchAll (has 'c') (!has 'h') files then 0 else 1

end Simple
end JobShell

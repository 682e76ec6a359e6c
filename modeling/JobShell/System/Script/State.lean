import JobShell.System.Program.Call
import JobShell.System.Script.Tree
import JobShell.System.Signal

/-!
# The state of a script

What a script knows while it runs: its variables, functions and arguments, the
jobs that it has started, what it does when signals come, and the commands that
are in the middle of being run. Running commands changes this state, asks the
machine, and may be interrupted.
-/
namespace JobShell
namespace Script

/-- A variable. It may be known without having a value. -/
structure Variable where
  value : Option Raw
  exported : Bool
  readonly : Bool

/-- A function, and the line that it begins in. -/
structure Function where
  body : Tree
  line : Nat

/-- A job: processes that were started together. -/
structure ScriptJob where
  number : Nat
  /-- The processes, with what they ended with. -/
  processes : List (Pid × Option WaitStatus)
  /-- The script has asked for its end. -/
  waited : Bool

namespace ScriptJob

/-- Whether all processes have ended. -/
def isDone (j : ScriptJob) : Bool := j.processes.all (·.2.isSome)

/-- The status that the last process ended with. -/
def status (j : ScriptJob) : Nat :=
  match (j.processes.getLast?).bind Prod.snd with
  | some raw => (WaitStatus.exitCode raw).toNat
  | none => 0

end ScriptJob

/-- What is left out before something is done again. -/
inductive Skip where
  /-- Nothing. -/
  | none
  /-- The rest of some loops. -/
  | loops (count : Nat)
  /-- The rest of a pass of the last of some loops. -/
  | passes (count : Nat)
  /-- The rest of a function, whose status may have been given. -/
  | function (given : Bool)
  deriving DecidableEq, Repr

/-- What a variable was before a function made it its own. -/
inductive Saved where
  | variable (name : Raw) (before : Option Variable)
  | options (letters : List Char)

/-- The arguments of a script or a function, and how far they were gone through for options. -/
structure Arguments where
  words : List Raw
  /-- The next argument to look at. -/
  index : Nat
  /-- How many letters of the argument before it were looked at. -/
  offset : Option Nat

namespace Arguments

/-- Arguments that begin. -/
def new (words : List Raw) : Arguments := ⟨words,1,none⟩

end Arguments

/-- Where the file of a command was found. -/
structure Location where
  /-- The number of its directory in the search path. -/
  index : Nat
  /-- The current directory has changed since. -/
  stale : Bool

/-- The state of a script. -/
structure Interpreter where
  /-- What it is called by. -/
  name : Raw
  arguments : Arguments
  vars : List (Raw × Variable)
  functions : List (Raw × Function)
  aliases : Bindings
  /-- The letters of the options that are set. -/
  options : List Char
  status : Nat
  /-- The status of the last command whose output was put into a word. -/
  outputStatus : Nat
  /-- The status that is kept while something is run on a signal. -/
  keptStatus : Option Nat
  skip : Skip
  loops : Nat
  /-- What is run when a signal comes; nothing is run for an empty text. The signal zero is the end. -/
  traps : List (Nat × Raw)
  /-- Signals that were ignored when it began. -/
  ignored : List Nat
  /-- Signals whose dispositions are known. -/
  arranged : List (Nat × Disposition)
  /-- Signals that have come, and for which nothing was run yet. -/
  arrived : List Nat
  /-- The last signal that has come since it was looked whether something is to be run. -/
  pending : Option Nat
  jobs : List ScriptJob
  lastBackground : Pid
  pid : Pid
  /-- It is no copy of another one. -/
  isRoot : Bool
  line : Nat
  functionLine : Nat
  command : Option Raw
  /-- The path of the current directory as it was reached. -/
  directory : Raw
  /-- The commands that were looked up, the first one at last. -/
  known : List (Raw × Location)
  saved : List (List Saved)
  documents : Array Word
  waitingOutput : Bytes
  outputFailed : Bool
  mask : Nat
  /-- For each command that is being run, the descriptors that it has changed, with the copies that were made of them. -/
  moved : List (List (Nat × Option Nat))
  fromText : Bool

/-- Why something does not go on. -/
inductive Interruption where
  | error
  /-- The script ends. -/
  | ended
  /-- The script was told to exit. -/
  | exited
  deriving DecidableEq, Repr

/-- A part of the run of a script. -/
abbrev Run (α : Type) : Type := ExceptT Interruption (StateT Interpreter Action) α

namespace Run

/-- How often something is done again at most. -/
def rounds : Nat := 1000000000

/-- Asks something of the machine. -/
def ask (c : Call) : Run c.Answer := monadLift (Action.ask c)

/-- Ends the process at once. -/
def leave {α : Type} (code : Nat) : Run α := monadLift (Action.exit code : Action α)

/-- Interrupts the run. -/
def raise {α : Type} (i : Interruption) : Run α := throw i

/-- What is left of a run that may be interrupted. -/
def attempt {α : Type} (r : Run α) : Run (Except Interruption α) := do
  try
    return .ok (← r)
  catch i => return .error i

/-! ### Writing -/

/-- Writes bytes that were collected. -/
def flush : Run Unit := do
  let b := (← get).waitingOutput
  if !b.isEmpty then
    modify (fun s => { s with waitingOutput := [] })
    match ← ask (.write 1 b) with
    | .ok () => pure ()
    | .error _ => modify (fun s => { s with outputFailed := true })

/-- How much is collected before it is written. -/
def bufferSize : Nat := 8192

/-- Prints text. -/
def put (t : Raw) : Run Unit := do
  modify (fun s => { s with waitingOutput := s.waitingOutput ++ Raw.toBytes t })
  if (← get).waitingOutput.length > bufferSize then flush

/-- Writes text to a descriptor. -/
def say (fd : Nat) (t : Raw) : Run Unit := do
  let _ ← ask (.write fd (Raw.toBytes t))

/-- Says what went wrong, and where. -/
def warn (t : Raw) : Run Unit := do
  let s ← get
  let command := match s.command with
    | some c => c ++ txt ": "
    | none => []
  say 2 (s.name ++ txt ": " ++ Numeral.ofNat s.line ++ txt ": " ++ command ++ t ++ ['\n'])

/-- Says what went wrong, and interrupts the run. -/
def failWith {α : Type} (i : Interruption) (t : Raw) : Run α := do
  warn t
  flush
  raise i

/-- Says what went wrong, and interrupts the run with the status of an error. -/
def fail {α : Type} (t : Raw) : Run α := do
  modify (fun s => { s with status := 2 })
  failWith .error t

/-! ### Options and variables -/

/-- Whether an option is set. -/
def option (letter : Char) : Run Bool := do return (← get).options.contains letter

/-- A variable that is known. -/
def lookUp? (name : Raw) : Run (Option Variable) := do
  return ((← get).vars.find? (·.1 == name)).map Prod.snd

/-- The value of a variable. -/
def value? (name : Raw) : Run (Option Raw) := do return (← lookUp? name).bind Variable.value

/-- The variables with one changed, in the order of their names. -/
def putVariable (name : Raw) (v : Variable) : List (Raw × Variable) → List (Raw × Variable)
  | [] => [(name,v)]
  | (n,w) :: r =>
    if n = name then (name,v) :: r
    else if Text.before name n then (name,v) :: (n,w) :: r
    else (n,w) :: putVariable name v r

/-- Whether a character is blank. -/
def isBlank (c : Char) : Bool := c = ' ' || ('\t' ≤ c && c ≤ '\r')

/-- The whole number that a text is, with blanks around it or not. -/
def wholeNumber? (t : Raw) : Option Int :=
  let s := t.dropWhile isBlank
  let (negative,s) := match s with
    | '-' :: r => (true,r)
    | '+' :: r => (false,r)
    | r => (false,r)
  let digits := s.takeWhile Char.isDigit
  if (s.drop digits.length).all isBlank then
    (Numeral.readDigits digits).map (fun n => if negative then -(n : Int) else n)
  else none

/-- A number of an argument. -/
def number (t : Raw) : Run Nat := do
  match wholeNumber? t with
  | some (.ofNat n) => if n ≤ 2147483647 then return n else fail (txt "Illegal number: " ++ t)
  | _ => fail (txt "Illegal number: " ++ t)

/-- What depends on a variable follows its change. -/
def follow (name : Raw) : Run Unit := do
  if name = txt "PATH" then modify (fun s => { s with known := [] })
  else if name = txt "OPTIND" then do
    let n := ((wholeNumber? ((← value? name).getD [])).getD 1).toNat
    modify fun s => { s with arguments := { s.arguments with index := if n = 0 then 1 else n, offset := none } }

/-- Changes a variable. One that is exported stays so, and one that cannot be changed is complained of. -/
def setVariable (name : Raw) (value : Option Raw) (exported readonly : Bool) : Run Unit := do
  if !isName name then fail (name ++ txt ": bad variable name")
  let old := (← lookUp? name).getD ⟨none,false,false⟩
  let all ← option 'a'
  if old.readonly then fail (name ++ txt ": is read only")
  if let some v := value then
    if name = txt "OPTIND" then let _ ← number v
  let new := ⟨value.or old.value,old.exported || exported || (all && value.isSome),old.readonly || readonly⟩
  modify (fun s => { s with vars := putVariable name new s.vars })
  if value.isSome then follow name

/-- Gives a variable a value. -/
def assign (name value : Raw) : Run Unit := setVariable name (some value) false false

/-- Takes the value of a variable away. -/
def unassign (name : Raw) : Run Unit := do
  if !isName name then fail (name ++ txt ": bad variable name")
  match ← lookUp? name with
  | some v => if v.readonly then fail (name ++ txt ": is read only")
  | none => pure ()
  modify (fun s => { s with vars := s.vars.filter (·.1 != name) })
  follow name

/-- The characters that separate fields, as they are when nothing was said. -/
def standardSeparators : Raw := [' ','\t','\n']

/-- The characters that separate fields; none when they are not set. -/
def separators? : Run (Option Raw) := value? (txt "IFS")

/-- The directories in which commands are looked up. -/
def searchPath : Run Raw := do return (← value? (txt "PATH")).getD []

/-- The environment for other programs. -/
def environment : Run Bindings := do
  return (← get).vars.filterMap fun (n,v) =>
    match v.value with
    | some t => if v.exported then some (n,t) else none
    | none => none

/-- Makes a variable a function's own. -/
def remember (v : Saved) : Run Unit :=
  modify fun s =>
    match s.saved with
    | l :: r => { s with saved := (v :: l) :: r }
    | [] => s

end Run
end Script
end JobShell

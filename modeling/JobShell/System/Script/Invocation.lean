import JobShell.System.Script.Evaluation

/-!
# Beginning a script

A script is a text among the arguments, a file, or what comes from the input. It
begins with the variables of its environment.
-/
namespace JobShell
namespace Script

/-- What arguments ask for: whether the text of the script is among them, and what comes after the options. -/
structure Invocation where
  hasText : Bool
  args : List Raw

namespace Run

/-- Sets the options of a word. Before a script has begun, all are shown as if they were set. -/
def startWord (on : Bool) : Raw → Invocation → Run Invocation
  | [], v => return v
  | 'c' :: r, v => startWord on r { v with hasText := true }
  | 'l' :: r, v => startWord on r v
  | 'o' :: r, v => do
    match v.args with
    | name :: rest =>
      setName name on
      startWord on r { v with args := rest }
    | [] =>
      showOptions on (fun _ => true)
      startWord on r v
  | letter :: r, v => do
    let _ ← setWord on (if letter = 'i' then ['i','m'] else [letter]) []
    startWord on r v

/-- Sets the options that arguments begin with. -/
def startOptions : Nat → Invocation → Run Invocation
  | 0, v => return v
  | fuel+1, v => do
    match v.args with
    | ['-'] :: r | ['-','-'] :: r => return { v with args := r }
    | ('-' :: word) :: r => startOptions fuel (← startWord true word { v with args := r })
    | ('+' :: word) :: r => startOptions fuel (← startWord false word { v with args := r })
    | _ => return v

/-- Takes over the variables of an environment, and sets those that every script has. -/
def takeEnvironment (environment : Bindings) (parent : Pid) : Run Unit := do
  let standard := [("PATH",defaultPath),("PS1",txt "# "),("PS2",txt "> "),("PS4",txt "+ ")]
  for (name,value) in standard do assign (txt name) value
  for (name,value) in environment do
    if isName name then setVariable name (some value) true false
  assign (txt "IFS") standardSeparators
  assign (txt "OPTIND") ['1']
  assign (txt "PPID") (Numeral.ofInt parent)
  let known := (← value? (txt "PWD")).filter (fun p => p.head? = some '/')
  let reached ← (match known with
    | none => return none
    | some p => do
      match ← ask (.look true p), ← ask (.look true ['.']) with
      | .ok a, .ok b => return if a.identity == b.identity then some p else none
      | _, _ => return none : Run (Option Raw))
  setDirectory reached false

/-- Runs the script that arguments ask for. -/
def runScript (args : List Raw) (environment : Bindings) : Run Unit := do
  let (pid,parent,_) ← ask .identity
  modify (fun s => { s with pid := pid })
  takeEnvironment environment parent
  let v ← startOptions (args.length + 1) ⟨false,args⟩
  let begin := fun (name : Option Raw) (words : List Raw) => do
    modify fun s => { s with name := name.getD s.name, arguments := Arguments.new words }
    checkMonitor
  let fromInput := fun (fd : Nat) => do let _ ← runInput run fd rounds ⟨[],false,1⟩ 0
  if v.hasText then
    match v.args with
    | [] => fail (txt "-c requires an argument")
    | text :: r =>
      begin r.head? r.tail
      modify (fun s => { s with fromText := true })
      let fromInputToo ← option 's'
      let _ ← runText run text (if fromInputToo then .plain else .final)
      if fromInputToo then fromInput 0
  else
    let asked ← option 's'
    match v.args with
    | file :: r =>
      if asked then
        begin none v.args
        fromInput 0
      else
        let fd ← openFor .read file
        let own := (← ask (.copy fd firstOwn)).toOption.getD fd
        let _ ← ask (.close fd)
        begin (some file) r
        modify (fun s => { s with fromText := true })
        fromInput own
    | [] =>
      setLetter 's' true
      checkMonitor
      fromInput 0

end Run

/-- The state of a script that begins. -/
def Interpreter.start (name : Raw) : Interpreter where
  name := name
  arguments := Arguments.new []
  vars := []
  functions := []
  aliases := []
  options := []
  status := 0
  outputStatus := 0
  keptStatus := none
  skip := .none
  loops := 0
  traps := []
  ignored := []
  arranged := []
  arrived := []
  pending := none
  jobs := []
  lastBackground := 0
  pid := 0
  isRoot := true
  line := 0
  functionLine := 0
  command := none
  directory := []
  known := []
  saved := []
  documents := #[]
  waitingOutput := []
  outputFailed := false
  mask := 18
  moved := []
  fromText := false

/-- The program that runs scripts. -/
def program (args : List Raw) (environment : Bindings) : Program :=
  let whole : Run Unit := do
    match ← Run.attempt (Run.runScript args.tail environment) with
    | .ok () => Run.endProcess Run.run .ended
    | .error i => Run.endProcess Run.run i
  StateT.run (ExceptT.run whole) (Interpreter.start (args.head?.getD [])) (fun _ => .exit 0)

end Script
end JobShell

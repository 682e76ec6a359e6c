import JobShell.System.Script.Builtin.Condition
import JobShell.System.Script.Builtin.Control
import JobShell.System.Script.Builtin.Print
import JobShell.System.Script.Builtin.Surroundings
import JobShell.System.Script.Builtin.Variables
import JobShell.System.Script.Process

/-!
# Simple commands

The words of a simple command are expanded until it is known what its name
stands for, since that decides how the other words are expanded. Then its
redirections are made, its assignments are carried out, and the command is run:
in the script itself, or as another program.
-/
namespace JobShell
namespace Script
namespace Run

/-- What is known of a command when its words are expanded. -/
structure Choice where
  meaning : Meaning
  /-- Whether it is a special command of the language; none when it is none of those at all. -/
  special : Option Bool
  /-- Its assignments are its own. -/
  own : Bool
  assigns : Bool
  /-- The script is left for another program. -/
  replaces : Bool
  noFunctions : Bool
  path : Option Raw
  /-- Words that were passed over. -/
  passed : List Raw
  /-- The words that were expanded, the first one being the name. -/
  args : List Raw
  /-- The words that were not expanded yet. -/
  rest : List Word

section
/- `self` runs a command and yields its status. -/
variable (self : Option Tree → Position → Run Nat)

/-! ### Words -/

/-- Expands words until there is something, and leaves the others. -/
def expandSome : List Word → Run (List Raw × List Word)
  | [] => return ([],[])
  | w :: r => do
    match ← expandFields (capture self) w with
    | [] => expandSome r
    | l => return (l,r)

/-- The choice after the words `command` and its options; none when it only tells what a name stands for. -/
def passCommand : Nat → Choice → Run (Choice × Bool)
  | 0, c => return (c,false)
  | fuel+1, c => do
    let (more,rest) ← (match c.args.tail with
      | [] => expandSome self c.rest
      | l => return (l,c.rest) : Run (List Raw × List Word))
    let c := { c with args := c.args.take 1 ++ more, rest := rest }
    let next := { c with passed := c.passed ++ c.args.take 1, args := more }
    match more with
    | [] => return (c,false)
    | ['-','-'] :: _ =>
      let (more,rest) ← (match more.tail with
        | [] => expandSome self c.rest
        | l => return (l,c.rest) : Run (List Raw × List Word))
      if more.isEmpty then return ({ c with rest := rest },false)
      else return ({ next with passed := next.passed ++ [['-','-']], args := more, rest := rest },true)
    | ('-' :: d :: ds) :: _ =>
      if (d :: ds).all (· == 'p') then passCommand fuel { next with path := some defaultPath } else return (c,false)
    | _ => return (next,true)

/-- Finds out what a name stands for, as far as no directories are searched. -/
def choose : Nat → Choice → Run Choice
  | 0, c => return c
  | fuel+1, c => do
    let m ← meaningOf c.noFunctions (c.args.head?.getD [])
    let c := { c with meaning := m, own := true }
    match m with
    | .builtin b =>
      let c := { c with assigns := b.assigns, replaces := b.name = txt "exec" }
      let c := if c.special.isNone then { c with special := some b.special, own := !b.special } else c
      if b.name ≠ txt "command" then return c
      else
        let (d,found) ← passCommand self rounds c
        if found then choose fuel { d with noFunctions := true }
        else return { d with passed := [], args := d.passed ++ d.args }
    | _ => return c

/-- Expands the words that are left. -/
def expandRest (assigns : Bool) : List Word → Run (List Raw)
  | [] => return []
  | w :: r => do
    let l ← (if assigns && isAssignment w then return [← expandText (capture self) Aim.value w]
      else expandFields (capture self) w : Run (List Raw))
    return l ++ (← expandRest assigns r)

/-- Expands the words of a command as what its name stands for asks for it. -/
def chooseCommand (words : List Word) : Run Choice := do
  let nothing : Choice := ⟨.unknown,none,false,false,false,false,none,[],[],[]⟩
  match ← expandSome self words with
  | ([],_) => return nothing
  | (args,rest) =>
    let c ← choose self rounds { nothing with args := args, rest := rest }
    return { c with args := c.args ++ (← expandRest self c.assigns c.rest), rest := [] }

/-! ### Assignments -/

/-- Carries out assignments; what was assigned. -/
def assignAll (own exported : Bool) : List Word → Run (List Raw)
  | [] => return []
  | w :: r => do
    let text ← expandText (capture self) Aim.value w
    let (name,value) := nameAndValue text
    if own then makeOwn name value true else setVariable name value exported false
    return text :: (← assignAll own exported r)

/-- Shows a command before it is run. -/
def trace (words : List Raw) : Run Unit := do
  let s ← get
  if s.options.contains 'x' then
    let copied := (s.moved.head?.bind (·.find? (·.1 == 2))).bind Prod.snd
    modify (fun s => { s with options := s.options.filter (· != 'x') })
    let sign := (← value? (txt "PS4")).getD []
    let sign ← (match StateT.run Read.quotedText (Read.reader sign true 1 [] (← get).documents) with
      | .ok (w,reader) => do
        modify (fun s => { s with documents := reader.documents })
        expandText (capture self) Aim.document w
      | .error _ => return sign : Run Raw)
    modify (fun s => { s with options := 'x' :: s.options })
    say (copied.getD 2) (sign ++ Text.join [' '] words ++ ['\n'])

/-! ### Commands of the language -/

/-- The file of a name that holds commands. -/
def commandFile (name : Raw) : List Raw → Run Raw
  | [] => fail (name ++ txt ": not found")
  | d :: r => do
    let file := fileIn d name
    match ← ask (.look true file) with
    | .ok s => if s.type = .regular then return file else commandFile name r
    | .error _ => commandFile name r

/-- The command that runs the commands of a file. -/
def dot (args : List Raw) : Run Nat := do
  match ← operands args with
  | [] => return 0
  | name :: _ =>
    let file ← if name.contains '/' then pure name else commandFile name (Text.splitOn ':' (← searchPath))
    let fd ← openFor .read file
    let own := (← ask (.copy fd firstOwn)).toOption.getD fd
    let _ ← ask (.close fd)
    modify (fun s => { s with command := some file })
    let status ← runInput self own rounds ⟨[],false,1⟩ 0
    let _ ← ask (.close own)
    return status

/-- Runs a command of the language. -/
def runBuiltin (name : Raw) (args : List Raw) (p : Position) : Run Nat := do
  match String.ofList name with
  | "." => dot self args
  | "eval" => if args.isEmpty then return 0 else runText self (Text.join [' '] args) { p with last := false }
  | "exec" => if args.isEmpty then return 0 else execute args (← searchPath) none
  | ":" | "true" => return 0
  | "false" => return 1
  | "alias" => defineAliases args
  | "bg" | "fg" => resumeJob args
  | "break" => leaveLoops false args
  | "continue" => leaveLoops true args
  | "cd" | "chdir" => cd args
  | "command" => command args
  | "echo" => echo args
  | "exit" => exit args
  | "export" => declare name true false args
  | "getopts" => getopts args
  | "hash" => hash args
  | "jobs" => jobs args
  | "kill" => kill args
  | "local" => makeLocal args
  | "printf" => printf args
  | "pwd" => pwd args
  | "read" => read args
  | "readonly" => declare name false true args
  | "return" => returnFrom args
  | "set" => set args
  | "shift" => shift args
  | "test" | "[" => test name args
  | "times" => times
  | "trap" => trap args
  | "type" => type args
  | "ulimit" => ulimit args
  | "umask" => umask args
  | "unalias" => unalias args
  | "unset" => unset args
  | "wait" => wait args
  | _ => return 127

/-- Runs a command of the language as a command of the script. Its output is written in the end. -/
def runNamed (name : Raw) (args : List Raw) (p : Position) : Run (Except Interruption Unit) := do
  let before := (← get).command
  modify (fun s => { s with command := some name })
  let result ← attempt do
    let status ← runBuiltin self name args p
    flush
    let failed := (← get).outputFailed
    if failed then warn (name ++ txt ": I/O error")
    modify (fun s => { s with status := if failed then status ||| 1 else status })
  modify (fun s => { s with command := before, waitingOutput := [], outputFailed := false })
  return result

/-- Runs a function. -/
def runFunction (f : Function) (args : List Raw) (p : Position) : Run Unit := do
  let before ← get
  modify (fun s => { s with arguments := Arguments.new args, functionLine := f.line, loops := 0 })
  breathe
  let result ← attempt (self (some f.body) p.inside)
  modify (fun s => { s with arguments := before.arguments, functionLine := before.functionLine, loops := before.loops })
  endFunction
  if let .error i := result then raise i

/-- Runs another program, and waits for it unless nothing is to be done after it. -/
def runProgram (args : List Raw) (path : Raw) (index : Option Nat) (p : Position) : Run Unit := do
  if p.last && !(← hasTraps) then execute args path index
  else
    let child : Run Unit := do
      let _ ← attempt (execute (α := Unit) args path index)
      leave (← get).status
    let pid ← (monadLift (Action.fork (StateT.run (ExceptT.run child) (← get) (fun _ => .exit 0))) : Run Pid)
    let job ← newJob [pid]
    let status ← waitForeground job
    modify (fun s => { s with status := status })

/-- Runs what the name of a command stands for; false if it stands for nothing. -/
def runMeaning (c : Choice) (m : Meaning) (p : Position) : Run Bool := do
  let name := c.args.head?.getD []
  match m with
  | .unknown => return false
  | .file index =>
    runProgram c.args (c.path.getD (← searchPath)) index p
    return true
  | .builtin b =>
    match ← runNamed self b.name c.args.tail p with
    | .ok () => return true
    | .error .error => if c.special = some true then raise .error else return true
    | .error i => raise i
  | .function f =>
    let _ := name
    runFunction self f c.args.tail p
    return true

/-- A simple command. -/
def runSimple (line : Nat) (assignments words : List Word) (redirects : List Redirect) (p : Position) : Run Nat := do
  modify (fun s => { s with line := line, outputStatus := 0 })
  let c ← chooseCommand self words
  let owners := (← get).saved.length
  let depth := (← get).moved.length
  if c.own then beginOwn
  let changes ← expandRedirects (capture self) redirects
  beginChanges
  let finish := fun (status : Nat) => do
    undoChanges (depth + 1) rounds
    endChanges c.replaces
    endOwn owners rounds
    return status
  let failWith := fun (status : Nat) => do
    modify (fun s => { s with status := status })
    if c.special = some true then raise .error
    finish status
  match ← changeFor (capture self) changes with
  | 0 =>
    let assigned ← assignAll self c.own (c.replaces && c.args.length > 1) assignments
    trace self (assigned ++ c.passed ++ c.args)
    if c.args.isEmpty then
      let status := (← get).outputStatus
      modify (fun s => { s with status := status })
      finish status
    else
      let m ← (match c.meaning with
        | .builtin b => if b.regular then return c.meaning else look c
        | _ => look c : Run Meaning)
      if ← runMeaning self c m p then finish (← get).status else failWith 127
  | status => failWith status
where
  /-- What the name of a command stands for, directories being searched. -/
  look (c : Choice) : Run Meaning := findCommand ⟨c.noFunctions,c.path,true,false⟩ (c.args.head?.getD [])

end
end Run
end Script
end JobShell

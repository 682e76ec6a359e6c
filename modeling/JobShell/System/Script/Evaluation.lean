import JobShell.System.Script.Command

/-!
# Running commands

Compound commands run their parts; pipelines, subshells and commands in the
background run in processes of their own. The status of a command is that of the
last part that was run.
-/
namespace JobShell
namespace Script
namespace Run

section
/- `self` runs a command and yields its status. -/
variable (self : Option Tree → Position → Run Nat)

/-! ### Loops -/

/-- Ends a pass of a loop; whether the loop is left. -/
def endPass : Run Bool := do
  let s ← get
  match s.skip with
  | .none => return false
  | .loops n =>
    modify (fun s => { s with skip := if n ≤ 1 then .none else .loops (n - 1) })
    return true
  | .passes n =>
    modify (fun s => { s with skip := if n ≤ 1 then .none else .passes (n - 1) })
    return n > 1
  | .function _ => return true

/-- A loop that goes on while its test holds, or until it holds. -/
def loop (untilHolds : Bool) (test body : Tree) (p : Position) : Nat → Nat → Run Nat
  | 0, status => return status
  | fuel+1, status => do
    breathe
    let i ← self (some test) ⟨false,true⟩
    let skip := (← get).skip
    let left ← endPass
    if skip = .function true then return i
    else if left then return status
    else if skip ≠ .none then loop untilHolds test body p fuel status
    else if (i = 0) = untilHolds then return status
    else
      let status ← self (some body) p.inside
      if ← endPass then return status else loop untilHolds test body p fuel status

/-- A loop through words. -/
def loopThrough (name : Raw) (body : Tree) (p : Position) : List Raw → Nat → Run Nat
  | [], status => return status
  | w :: r, _ => do
    breathe
    assign name w
    let status ← self (some body) p.inside
    if ← endPass then return status else loopThrough name body p r status

/-- Runs a loop, which can be left. -/
def asLoop (run : Run Nat) : Run Nat := do
  modify (fun s => { s with loops := s.loops + 1 })
  let status ← run
  modify (fun s => { s with loops := s.loops - 1 })
  return status

/-! ### Choices -/

/-- Whether some pattern matches a text. -/
def matchesAny (t : Raw) : List Word → Run Bool
  | [] => return false
  | w :: r => do
    let pattern := Glyph.pattern true (← expand (capture self) Aim.matching w)
    if Pattern.isMatch pattern t then return true else matchesAny t r

/-- Runs the first case that matches a text. -/
def runCase (t : Raw) (p : Position) : List (List Word × Option Tree) → Run Nat
  | [] => return 0
  | (patterns,body) :: r => do
    if ← matchesAny self t patterns then
      if body.isSome then self body p else return 0
    else runCase t p r

/-! ### Processes -/

/-- Starts the stages of a pipeline; the processes in their order. -/
def startStages (background tested : Bool) : Option Nat → List Pid → List Tree → Run (List Pid)
  | _, pids, [] => return pids
  | input, pids, t :: r => do
    lookAhead t
    let output ← (if r.isEmpty then return none else return some (← ask .pipe) : Run (Option (Nat × Nat)))
    let pid ← start self background pids.isEmpty do
      if let some (next,_) := output then let _ ← ask (.close next)
      if let some fd := input then moveDescriptor fd 0
      if let some (_,fd) := output then moveDescriptor fd 1
      let _ ← self (some t) ⟨true,tested⟩
    if let some fd := input then let _ ← ask (.close fd)
    if let some (_,fd) := output then let _ ← ask (.close fd)
    startStages background tested (output.map Prod.fst) (pids ++ [pid]) r

/-- The job that processes are, which is waited for unless it is in the background. -/
def finishJob (background : Bool) (pids : List Pid) : Run Nat := do
  let job ← newJob pids
  if background then
    modify (fun s => { s with lastBackground := pids.getLast?.getD s.lastBackground })
    return 0
  else waitForeground job

/-- A command in a process of its own. -/
def runApart (background : Bool) (line : Nat) (body : Tree) (redirects : List Redirect) (p : Position) :
    Run Nat := do
  modify (fun s => { s with line := line })
  let changes ← expandRedirects (capture self) redirects
  let inside : Run Unit := do
    changeAll (capture self) false changes
    let _ ← self (some body) ⟨true,p.tested && !background⟩
  if !background && p.last && !(← hasTraps) then
    modify (fun s => { s with isRoot := false, moved := [], jobs := [] })
    clearTraps
    inside
    return 0
  else
    let pid ← start self background true inside
    finishJob background [pid]

/-- A compound command with redirections. -/
def runRedirected (line : Nat) (body : Tree) (redirects : List Redirect) (p : Position) : Run Nat := do
  modify (fun s => { s with line := line })
  let changes ← expandRedirects (capture self) redirects
  beginChanges
  let status ← (match ← changeFor (capture self) changes with
    | 0 => self (some body) p.inside
    | status => return status : Run Nat)
  endChanges false
  return status

/-! ### Commands -/

/-- What running a command amounts to: its status, and whether a failure may end the script. None if its status is
    that of the part that was run last. -/
abbrev Outcome := Option (Nat × Bool)

/-- Runs a command by running its parts. -/
def runParts (t : Tree) (p : Position) : Run Outcome := do
  let compound := fun (r : Run Nat) => do return some (← r,false)
  let plain := fun (r : Run Nat) => do return some (← r,true)
  let skips := do return (← get).skip ≠ .none
  match t with
  | .simple line assignments words redirects => plain (runSimple self line assignments words redirects p)
  | .pipe background stages => plain (do finishJob background (← startStages self background p.tested none [] stages))
  | .subshell line body redirects => plain (runApart self false line body redirects p)
  | .background line body redirects => plain (runApart self true line body redirects p)
  | .redirected line body redirects => compound (runRedirected self line body redirects p)
  | .not a => compound (do return if (← self (some a) ⟨false,true⟩) = 0 then 1 else 0)
  | .both a b =>
    let status ← self (some a) ⟨false,true⟩
    if status ≠ 0 || (← skips) then return none else compound (self (some b) p)
  | .either a b =>
    let status ← self (some a) ⟨false,true⟩
    if status = 0 || (← skips) then return none else compound (self (some b) p)
  | .sequence a b =>
    let _ ← self (some a) p.inside
    if ← skips then return none else compound (self (some b) p)
  | .branch test body otherwise =>
    let status ← self (some test) ⟨false,true⟩
    if ← skips then return none
    else if status = 0 then compound (self (some body) p)
    else if otherwise.isSome then compound (self otherwise p)
    else return some (0,false)
  | .loop untilHolds test body => compound (asLoop (loop self untilHolds test body p rounds 0))
  | .each line name words body =>
    modify (fun s => { s with line := line })
    let words ← expandRest self false words
    compound (asLoop (loopThrough self name body p words 0))
  | .choose line word cases =>
    modify (fun s => { s with line := line })
    compound (do runCase self (← expandText (capture self) Aim.whole word) p cases)
  | .function name line body =>
    modify (fun s => { s with functions := (name,⟨body,line⟩) :: s.functions.filter (·.1 != name) })
    return some (0,false)

/-- Runs a command. What is set for signals that have come is run before it and after it. -/
def runTree (t : Option Tree) (p : Position) : Run Nat := do
  let noExecution ← option 'n'
  let outcome ← (match t with
    | none => return none
    | some t =>
      if noExecution then return none
      else do
        runTraps self
        runParts self t p : Run Outcome)
  if let some (status,_) := outcome then modify (fun s => { s with status := status })
  runTraps self
  match outcome with
  | some (status,true) => if status ≠ 0 && !p.tested && (← option 'e') then raise .ended
  | _ => pure ()
  if p.last then raise .ended
  return (← get).status

end

/-- Runs a command whose parts are nested at most `depth` deep. -/
def runWithin : Nat → Option Tree → Position → Run Nat
  | 0, _, _ => return 0
  | depth+1, t, p => runTree (runWithin depth) t p

/-- How deep parts of commands may be nested. -/
def depthLimit : Nat := 1000000

/-- Runs a command. -/
def run (t : Option Tree) (p : Position) : Run Nat := runWithin depthLimit t p

end Run
end Script
end JobShell

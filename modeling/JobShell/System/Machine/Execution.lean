import JobShell.System.Machine.Signal
import JobShell.System.Program.Table

/-!
# Executing files

A file is executed when it is a program of the system, or a script that names
what is to run it in its first line. The new process has the descriptors of its
parent, as far as they are not bound anew.
-/
namespace JobShell
namespace Machine

/-! ### Scripts -/

/-- How much of a script is looked at. -/
def headSize : Nat := 256

/-- Whether a character separates the words in the first line of a script. -/
def isGap (c : Char) : Bool := c = ' ' || c = '\t'

/-- The interpreter and the argument that the head of a script names. The head is filled with zeros when the script
    is short. A head without the end of its first line must at least hold the end of the interpreter's name. -/
def interpreter? (content : Raw) : Option (Raw × Option Raw) :=
  let head := content.take headSize ++ List.replicate (headSize - content.length) '\x00'
  match head with
  | '#' :: '!' :: body =>
    let line := body.takeWhile (fun c => c != '\n' && c != '\x00')
    let isEnded := body[line.length]? = some '\n'
    let line := if isEnded then some line
      else if (body.dropWhile isGap).any (fun c => isGap c || c = '\x00') then some body.dropLast else none
    line.bind fun line =>
      let line := (Text.dropEndWhile isGap line).dropWhile isGap
      let name := line.takeWhile (fun c => !isGap c && c != '\x00')
      let rest := line.drop name.length
      let argument := ((rest.dropWhile isGap)).takeWhile (· != '\x00')
      if line.isEmpty then none
      else some (name,if rest.head?.any isGap then some argument else none)
  | _ => none

/-! ### What a file runs -/

/-- How many scripts may name each other as interpreters. -/
def scriptLimit : Nat := 5

/-- What runs when a path is executed: the name of a program of the system, and its arguments. `depth` more scripts
    may be met. Nobody may be writing to a file that is executed. -/
def execution (m : Machine) (here : Place) : Nat → Raw → List Raw → Except Errno (Text × List Raw)
  | depth, path, args =>
    match m.files.find here path with
    | .error e => .error e
    | .ok (place,.program name) => if m.isWritten place then .error Errno.textBusy else .ok (name,args)
    | .ok (place,.file true content) =>
      if m.isWritten place then .error Errno.textBusy
      else match interpreter? (Raw.ofBytes content) with
        | none => .error Errno.execFormat
        | some (name,argument) =>
          match depth with
          | 0 => .error Errno.tooManyLinks
          | depth+1 => execution m here depth name (name :: argument.toList ++ path :: args.tail)
    | .ok _ => .error Errno.accessDenied

/-- The longest text that a program may be given. -/
def textLimit : Nat := 131071

/-- How much room there is for all that a program is given. -/
def roomLimit : Nat := 2097152

/-- Whether a program can be given arguments and an environment. -/
def fits (path : Raw) (args : List Raw) (environment : Bindings) : Bool :=
  let lengths := args.map List.length ++ environment.map (fun b => b.1.length + 1 + b.2.length)
  lengths.all (· ≤ textLimit) &&
    (lengths.foldl (fun n l => n + l + 1) (path.length + 1)) ≤ roomLimit - 8 * lengths.length

/-- The program that a path leads to, given arguments and an environment. -/
def programOf (m : Machine) (here : Place) (path : Raw) (args : List Raw) (environment : Bindings) :
    Except Errno Program := do
  let reached ← m.files.find here path
  match reached.2 with
  | .program _ | .file true _ =>
    if !fits path args environment then .error Errno.tooMuch
    else
      let (name,args) ← m.execution here scriptLimit path args
      return Program.ofName name args environment
  | _ => .error Errno.accessDenied

/-! ### Descriptors -/

/-- A number of a descriptor. -/
def isDescriptor (fd : Int) : Bool := 0 ≤ fd && fd < 1048576

/-- Descriptors after some are bound anew. What is no number of a descriptor is passed over; a descriptor that is
    not open is a failure, or passed over as well when it is not `strict`. -/
def rebindAll (strict : Bool) : List Rebinding → List (Nat × DescriptionId) → Except Errno (List (Nat × DescriptionId))
  | [], l => .ok l
  | ⟨fd,.handle d⟩ :: r, l => rebindAll strict r (Process.bindDescriptor fd.toNat d l)
  | ⟨fd,.descriptor source⟩ :: r, l =>
    if isDescriptor fd && isDescriptor source then
      match l.find? (·.1 == source.toNat) with
      | some (_,d) => rebindAll strict r (Process.bindDescriptor fd.toNat d l)
      | none => if strict then .error Errno.badDescriptor else rebindAll strict r l
    else rebindAll strict r l

/-! ### New processes -/

/-- How long a shell takes to begin a process. -/
def launchTime : Nat := 500

/-- How long it takes until a process that has been copied goes on, and the copy. -/
def copyTime : Nat × Nat := (150,200)

/-- How long it takes until a program that was put in the place of another one does something. -/
def loadTime : Nat := 700

/-- A process that has just begun, with the surroundings of its parent. -/
def child (m : Machine) (parent : Process) (group : Pid) (descriptors : List (Nat × DescriptionId)) (task : Task) :
    Process where
  pid := m.nextPid
  parent := parent.pid
  group := if group = 0 then m.nextPid else group
  descriptors := descriptors
  held := []
  here := parent.here
  environment := parent.environment
  pending := []
  task := task
  state := .running
  news := none
  delayed := []
  ignored := parent.ignored
  caught := parent.caught
  arrived := []
  ready := m.clock

/-- The machine with a new process. -/
def add (m : Machine) (p : Process) : Machine := { m with nextPid := m.nextPid + 1, processes := m.processes ++ [p] }

/-- Starts a program in a child of a shell. -/
def launch (m : Machine) (parent : Process) (group : Pid) (descriptors : List (Nat × DescriptionId))
    (path : Text) (args : List Text) : Except Errno Pid × Machine :=
  let environment := parent.environment.map (fun b => (Raw.ofText b.1,Raw.ofText b.2))
  match m.programOf parent.here (Raw.ofText path) (args.map Raw.ofText) environment with
  | .error e => (.error e,m)
  | .ok program =>
    let p := { m.child parent group descriptors (.program program) with
      caught := [], ready := m.clock + launchTime + loadTime }
    (.ok p.pid,{ m.add p with clock := m.clock + launchTime })

/-- A process becomes two. -/
def forkProgram (m : Machine) (p : Process) (copy : Program) (next : Pid → Program) : Machine :=
  let c := { m.child p p.group p.descriptors (.program copy) with ready := m.clock + copyTime.2 }
  (m.add c).update p.pid (fun p => { p with task := .program (next c.pid), ready := m.clock + copyTime.1 })

/-- The least descriptor of those that a program keeps for itself. -/
def ownDescriptor : Nat := 10

/-- Puts another program in the place of that of a process. -/
def executeProgram (m : Machine) (p : Process) (path : Raw) (args : List Raw) (environment : Bindings)
    (next : Errno → Program) : Machine :=
  match m.programOf p.here path args environment with
  | .error e => m.update p.pid (fun p => { p with task := .program (next e) })
  | .ok program =>
    m.update p.pid fun p =>
      { p with task := .program program, caught := [], arrived := [], ready := m.clock + loadTime,
               descriptors := p.descriptors.filter (·.1 < ownDescriptor) }

end Machine
end JobShell

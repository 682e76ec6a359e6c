import JobShell.System.Kernel
import JobShell.System.Program.Call

/-!
# A machine

An operating system as a value: files, open descriptions, pipes and processes.
Processes share nothing but what they hold open and the files; a descriptor of a
process is bound to a description, and several descriptors may be bound to the
same one.
-/
namespace JobShell

/-- The number of a description. -/
abbrev DescriptionId := Nat

/-- What is open. -/
inductive Description where
  /-- A file at a position. With `append` all writing goes to its end. -/
  | file (place : Place) (position : Nat) (append readable writable : Bool)
  | directory (place : Place)
  /-- The device that takes everything and holds nothing. -/
  | sink (readable writable : Bool)
  /-- A device that holds nothing but zeros. It takes everything, or nothing for want of space. -/
  | zeros (takes readable writable : Bool)
  | pipeReader (pipe : Nat)
  | pipeWriter (pipe : Nat)
  /-- What is written is kept. -/
  | keeper (n : Nat)
  /-- The terminal of the machine. -/
  | terminal
  deriving DecidableEq, Repr

/-- Whether a process goes on. -/
inductive RunState where
  | running
  | stopped
  | ended (status : WaitStatus)
  deriving DecidableEq, Repr

/-- What a process does. -/
inductive Task where
  /-- It is a shell, whose doings come from outside. -/
  | shell
  | program (p : Program)

/-- A process. -/
structure Process where
  pid : Pid
  parent : Pid
  group : Pid
  descriptors : List (Nat × DescriptionId)
  /-- Descriptions that it holds besides those of its descriptors. -/
  held : List DescriptionId
  here : Place
  /-- The environment of a shell. -/
  environment : Bindings
  /-- What a shell has still to write before it ends. -/
  pending : List (DescriptionId × Bytes)
  task : Task
  state : RunState
  /-- A stop, or an end of a stop, that nobody was told of. -/
  news : Option WaitStatus
  /-- Signals that arrive once it is no longer stopped. -/
  delayed : List Nat
  /-- Signals that do nothing. -/
  ignored : List Nat
  /-- Signals that it is told of. -/
  caught : List Nat
  /-- Signals that it was not told of yet. -/
  arrived : List Nat
  /-- The time before which it does nothing. -/
  ready : Nat

namespace Process

/-- Whether a process has ended. -/
def hasEnded (p : Process) : Bool :=
  match p.state with
  | .ended _ => true
  | _ => false

/-- Whether a process does something by itself: a shell only writes what it has still to write. -/
def isActive (p : Process) : Bool :=
  match p.task with
  | .shell => !p.pending.isEmpty
  | .program _ => true

/-- The description of a descriptor. -/
def description? (p : Process) (fd : Nat) : Option DescriptionId :=
  (p.descriptors.find? (·.1 == fd)).map Prod.snd

/-- Descriptors with one bound anew. -/
def bindDescriptor (fd : Nat) (d : DescriptionId) (l : List (Nat × DescriptionId)) : List (Nat × DescriptionId) :=
  (fd,d) :: l.filter (·.1 != fd)

/-- The least descriptor from some number on that is free. -/
def freeDescriptor (p : Process) (least : Nat) : Nat :=
  ((List.range (p.descriptors.length + 1)).map (least + ·)).find? (fun fd => (p.description? fd).isNone) |>.getD least

/-- Whether a process holds a description with some property. -/
def holdsAny (p : Process) (q : DescriptionId → Bool) : Bool :=
  !p.hasEnded && (p.descriptors.any (fun b => q b.2) || p.held.any q)

/-- Whether a process holds a description. -/
def holds (p : Process) (d : DescriptionId) : Bool := p.holdsAny (· == d)

end Process

/-- A process of a shell that waits while a copy of it acts. -/
structure Caller where
  pid : Pid
  /-- What the copy writes to, when that is kept. -/
  output : Option DescriptionId
  deriving DecidableEq, Repr

/-- A machine. -/
structure Machine where
  files : FileSystem
  /-- The home directories of users. -/
  homes : Bindings
  descriptions : Array Description
  /-- What is in the pipes. -/
  pipes : Array Bytes
  /-- What was kept, the last piece first. -/
  kept : Array (List Bytes)
  /-- In the order in which they began. -/
  processes : List Process
  nextPid : Pid
  /-- The process that acts as the shell. -/
  current : Pid
  /-- Those that wait for it, the last one first. -/
  callers : List Caller
  /-- Microseconds since the machine began. -/
  clock : Nat
  /-- How many changes of processes can still be seen. -/
  budget : Nat
  /-- The group that an interrupt of the shell is passed on to. -/
  foreground : Pid
  /-- The group that may read from the terminal. -/
  terminalGroup : Pid
  /-- Groups with stopped processes that nobody looks after any more. -/
  abandoned : List Pid
  /-- A signal came to the shell while it waited. -/
  interrupted : Bool
  hasTerminal : Bool
  keys : Keystrokes
  /-- What is logged, and to which file. -/
  logging : Option (Nat × Place)
  /-- Seconds of the clock when the machine began. -/
  epoch : Nat

namespace Machine

/-- The process of a number. -/
def process? (m : Machine) (pid : Pid) : Option Process := m.processes.find? (·.pid == pid)

/-- The machine with a process changed. -/
def update (m : Machine) (pid : Pid) (f : Process → Process) : Machine :=
  { m with processes := m.processes.map (fun p => if p.pid == pid then f p else p) }

/-- A description. -/
def description? (m : Machine) (d : DescriptionId) : Option Description := m.descriptions[d]?

/-- A new description. -/
def describe (m : Machine) (d : Description) : DescriptionId × Machine :=
  (m.descriptions.size,{ m with descriptions := m.descriptions.push d })

/-- The current directory of the shell. -/
def here (m : Machine) : Place := ((m.process? m.current).map (·.here)).getD []

/-- Whether some process holds a description. -/
def isHeld (m : Machine) (d : DescriptionId) : Bool := m.processes.any (·.holds d)

/-- Whether some process holds a description that is an end of a pipe. -/
def hasEnd (m : Machine) (e : Description) : Bool :=
  m.processes.any (·.holdsAny (fun d => m.description? d == some e))

/-- Whether some process may write to the file at a place. -/
def isWritten (m : Machine) (place : Place) : Bool :=
  m.processes.any (·.holdsAny fun d =>
    match m.description? d with
    | some (.file p _ _ _ writable) => writable && p == place
    | _ => false)

/-- Adds to what a keeper has. -/
def keep (m : Machine) (n : Nat) (b : Bytes) : Machine := { m with kept := m.kept.modify n (b :: ·) }

/-- What a keeper has. -/
def keptBy (m : Machine) (n : Nat) : Bytes := ((m.kept[n]?).getD []).reverse.flatten

/-- A new pipe: the description that is read and the one that is written. -/
def openPipe (m : Machine) : DescriptionId × DescriptionId × Machine :=
  let n := m.pipes.size
  let (r,m) := { m with pipes := m.pipes.push [] }.describe (.pipeReader n)
  let (w,m) := m.describe (.pipeWriter n)
  (r,w,m)

/-- A new keeper, with its description. -/
def openKeeper (m : Machine) : Nat × DescriptionId × Machine :=
  let n := m.kept.size
  let (d,m) := { m with kept := m.kept.push [] }.describe (.keeper n)
  (n,d,m)

end Machine
end JobShell

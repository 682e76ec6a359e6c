import JobShell.System.Machine.Execution
import JobShell.System.Machine.Transfer

/-!
# Answers to programs

What a machine answers to a program that asks something of it. A call may have
to wait; a caught signal ends the waiting.
-/
namespace JobShell
namespace Machine

/-- What comes of a call. -/
inductive Reply (c : Call) where
  | answered (a : c.Answer) (m : Machine)
  /-- A part of it is done, and what is left has the same answer. -/
  | partly (left : Call) (same : left.Answer = c.Answer) (m : Machine)
  | waiting

/-- The call must wait, unless a signal has come. -/
def Reply.blocked {α : Type} (m : Machine) (p : Process) {c : Call} (same : c.Answer = Except Errno α) : Reply c :=
  if p.arrived.isEmpty then .waiting else .answered (same ▸ .error Errno.interrupted) m

/-- The machine with the descriptors of a process changed. -/
def rebind (m : Machine) (pid : Pid) (f : List (Nat × DescriptionId) → List (Nat × DescriptionId)) : Machine :=
  m.update pid (fun p => { p with descriptors := f p.descriptors })

/-- Reads for a process. A process in the background that reads from the terminal has its group stopped, and reads
    once it goes on; that is not possible in a group that nobody looks after. -/
def answerRead (m : Machine) (p : Process) (fd limit : Nat) : Reply (.read fd limit) :=
  match p.description? fd with
  | none => .answered (.error Errno.badDescriptor) m
  | some d =>
    if m.description? d = some .terminal && p.group != m.terminalGroup then
      if p.ignored.contains Signal.terminalInput || m.isOrphaned p.group then .answered (.error Errno.inputOutput) m
      else if !p.arrived.isEmpty then .answered (.error Errno.interrupted) m
      else .partly (.read fd limit) rfl (m.signalPrograms p.group Signal.terminalInput).2
    else match m.read d limit with
      | .data b m => .answered (.ok b) m
      | .atEnd => .answered (.ok []) m
      | .failed e => .answered (.error e) m
      | .wait => .blocked (α := Bytes) m p rfl

/-- Writes for a process. A process that writes to a pipe which nobody reads is sent a signal. -/
def answerWrite (m : Machine) (p : Process) (fd : Nat) (b : Bytes) : Reply (.write fd b) :=
  match p.description? fd with
  | none => .answered (.error Errno.badDescriptor) m
  | some d =>
    match m.write d b with
    | .written [] m => .answered (.ok ()) m
    | .written left m => .partly (.write fd left) rfl m
    | .wait => .blocked (α := Unit) m p rfl
    | .failed e => .answered (.error e) (if e = Errno.brokenPipe then m.deliver p Signal.brokenPipe else m)

/-- Moves the position of a description. -/
def answerSeek (m : Machine) (p : Process) (fd position : Nat) : Except Errno Machine :=
  match p.description? fd with
  | none => .error Errno.badDescriptor
  | some d =>
    match m.description? d with
    | some (.file place _ append readable writable) =>
      .ok { m with descriptions := m.descriptions.set! d (.file place position append readable writable) }
    | some (.sink _ _) | some (.zeros _ _ _) | some (.directory _) => .ok m
    | _ => .error Errno.illegalSeek

/-- The status of what a path leads to. -/
def answerLook (m : Machine) (p : Process) (follow : Bool) (path : Raw) : Except Errno FileStatus :=
  let found := if follow then m.files.find p.here path else m.files.findItself p.here path
  found.map (fun (place,n) => statusOfNode place n)

/-- Waits for a child of a process. -/
def answerWait (m : Machine) (p : Process) (child : Option Pid) (patient : Bool) : Reply (.wait child patient) :=
  let children := m.processes.filter (fun c => c.parent == p.pid && child.all (· == c.pid))
  let ended := children.findSome? fun c =>
    match c.state with
    | .ended status => some (c.pid,status)
    | _ => none
  match ended with
  | some (pid,status) => .answered (.changed pid status) (m.forget pid)
  | none =>
    if children.isEmpty then .answered .noChild m
    else if !patient then .answered .unchanged m
    else if p.arrived.isEmpty then .waiting
    else .answered .interrupted m

/-- What a process arranges for a signal, as far as it can be arranged. -/
def arrange (p : Process) (n : Nat) (d : Disposition) : Process :=
  if !Signal.canArrange n then p
  else
    let without := fun (l : List Nat) => l.filter (· != n)
    match d with
    | .standard => { p with ignored := without p.ignored, caught := without p.caught }
    | .ignored => { p with ignored := n :: without p.ignored, caught := without p.caught }
    | .caught => { p with ignored := without p.ignored, caught := n :: without p.caught }

/-- What a process has arranged for a signal. -/
def dispositionOf (p : Process) (n : Nat) : Disposition :=
  if p.caught.contains n then .caught else if p.ignored.contains n then .ignored else .standard

/-- The answer to a call of a process. -/
def answer (m : Machine) (p : Process) : (c : Call) → Reply c
  | .read fd limit => m.answerRead p fd limit
  | .write fd b => m.answerWrite p fd b
  | .openFile access path =>
    match m.openFor p access path with
    | .error e => .answered (.error e) m
    | .ok (d,m) =>
      let fd := p.freeDescriptor 0
      .answered (.ok fd) (m.rebind p.pid (Process.bindDescriptor fd d))
  | .close fd =>
    match p.description? fd with
    | none => .answered (.error Errno.badDescriptor) m
    | some _ => .answered (.ok ()) (m.rebind p.pid (fun l => l.filter (·.1 != fd)))
  | .copy fd least =>
    match p.description? fd with
    | none => .answered (.error Errno.badDescriptor) m
    | some d =>
      let new := p.freeDescriptor least
      .answered (.ok new) (m.rebind p.pid (Process.bindDescriptor new d))
  | .bind source fd =>
    match p.description? source with
    | none => .answered (.error Errno.badDescriptor) m
    | some d => .answered (.ok ()) (m.rebind p.pid (Process.bindDescriptor fd d))
  | .pipe =>
    let (r,w,m) := m.openPipe
    let fd := p.freeDescriptor 0
    let bound := { p with descriptors := Process.bindDescriptor fd r p.descriptors }
    let other := bound.freeDescriptor 0
    .answered (fd,other) (m.rebind p.pid (fun _ => Process.bindDescriptor other w bound.descriptors))
  | .seek fd position =>
    match m.answerSeek p fd position with
    | .error e => .answered (.error e) m
    | .ok m => .answered (.ok ()) m
  | .statusOf fd =>
    match p.description? fd with
    | none => .answered (.error Errno.badDescriptor) m
    | some d => .answered (m.statusOfDescription d) m
  | .look follow path => .answered (m.answerLook p follow path) m
  | .namesIn path =>
    match m.files.find p.here path with
    | .error e => .answered (.error e) m
    | .ok (place,.directory) => .answered (.ok (m.files.names place)) m
    | .ok _ => .answered (.error Errno.notDirectory) m
  | .enter path =>
    match m.files.find p.here path with
    | .error e => .answered (.error e) m
    | .ok (place,.directory) => .answered (.ok ()) (m.update p.pid (fun p => { p with here := place }))
    | .ok _ => .answered (.error Errno.notDirectory) m
  | .directory => .answered (FileSystem.pathOf p.here) m
  | .wait child patient => m.answerWait p child patient
  | .signal target signo =>
    let (e,m) := m.signal p target signo
    .answered e m
  | .arrange n d => .answered (dispositionOf p n) (m.update p.pid (fun p => arrange p n d))
  | .caught => .answered p.arrived (m.update p.pid (fun p => { p with arrived := [] }))
  | .pause microseconds => .answered () (m.update p.pid (fun p => { p with ready := m.clock + microseconds }))
  | .identity => .answered (p.pid,p.parent,p.group) m
  | .home user => .answered ((m.homes.get? (Raw.toText user)).map Raw.ofText) m

end Machine
end JobShell

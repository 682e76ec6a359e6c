import JobShell.System.Machine.Basic
import JobShell.System.Signal

/-!
# Signals and the ends of processes

A signal ends a process, stops it, lets it go on, or does nothing, unless the
process wants to be told of it. A process that has ended is kept until its parent
was told, and forgotten at once when it has none.

A group is looked after as long as one of its processes has a parent in another
group. A group that is not is hung up when some of it is stopped, as nobody else
would let it go on.
-/
namespace JobShell
namespace Machine

/-- Forgets a process that has ended. -/
def forget (m : Machine) (pid : Pid) : Machine := { m with processes := m.processes.filter (·.pid != pid) }

/-- Tells a process of a signal. What it waits for is interrupted. -/
def tell (m : Machine) (pid : Pid) (n : Nat) : Machine :=
  m.update pid fun p =>
    { p with arrived := if p.arrived.contains n then p.arrived else p.arrived ++ [n], ready := min p.ready m.clock }

/-- Tells the parent of a process that the process has changed, if it wants to know. -/
def tellParent (m : Machine) (pid : Pid) : Machine :=
  match (m.process? pid).bind (fun p => m.process? p.parent) with
  | some parent => if parent.caught.contains Signal.child then m.tell parent.pid Signal.child else m
  | none => m

/-- The process whose children have no parent. -/
def firstPid : Pid := 1

/-- Whether a process connects its group with another one, that of its parent. -/
def connects (m : Machine) (p : Process) : Bool :=
  !p.hasEnded && (m.process? p.parent).any (fun q => !q.hasEnded && q.group != p.group)

/-- Whether nobody looks after a group. -/
def isOrphaned (m : Machine) (group : Pid) : Bool := !m.processes.any (fun p => p.group == group && m.connects p)

/-- The groups that a process looks after or belongs to, as far as they are looked after. -/
def caredFor (m : Machine) (pid : Pid) : List Pid :=
  ((m.processes.filter (fun p => (p.pid == pid || p.parent == pid) && m.connects p)).map (·.group)).eraseDups

/-- Ends a process. Its children have no parent from then on, and groups may be left alone. -/
def finish (m : Machine) (pid : Pid) (status : WaitStatus) : Machine :=
  let ended := (m.tellParent pid).update pid fun p =>
    { p with state := .ended status, descriptors := [], held := [], pending := [], news := none, delayed := [],
             task := .program (.exit 0) }
  let parent := ((m.process? pid).map (·.parent)).getD 0
  let alone := (m.process? parent).all (·.hasEnded)
  let kept := ended.processes.filter (fun p => !((p.parent == pid && p.hasEnded) || (p.pid == pid && alone)))
  let processes := kept.map (fun (p : Process) => if p.parent == pid then { p with parent := firstPid } else p)
  let after := { ended with processes := processes }
  let left := (m.caredFor pid).filter fun g =>
    after.isOrphaned g && processes.any (fun p => p.group == g && p.state == RunState.stopped)
  { after with abandoned := after.abandoned ++ left }

/-- A signal comes to a process that is not stopped. Only one signal stops a process of a group that nobody looks
    after. -/
def deliver (m : Machine) (p : Process) (n : Nat) : Machine :=
  if p.caught.contains n then m.tell p.pid n
  else if p.ignored.contains n then m
  else match Signal.effect n with
    | .ends => m.finish p.pid (WaitStatus.signaled n)
    | .stops =>
      if n != Signal.stop && m.isOrphaned p.group then m
      else
        (m.update p.pid (fun p => { p with state := .stopped, news := some (WaitStatus.stopped n) })).tellParent p.pid
    | .continues | .nothing => m

/-- Lets a stopped process go on. The signals that came meanwhile come now. -/
def resume (m : Machine) (p : Process) : Machine :=
  let m := (m.update p.pid (fun p => { p with state := .running, news := some 0xffff, delayed := [] })).tellParent p.pid
  p.delayed.foldl (fun m n =>
    match m.process? p.pid with
    | some p => if p.hasEnded then m else m.deliver p n
    | none => m) m

/-- A signal to a process that is not the shell. -/
def signalProgram (m : Machine) (p : Process) (n : Nat) : Machine :=
  if n = 0 then m
  else match p.state with
    | .ended _ => m
    | .running => m.deliver p n
    | .stopped =>
      if n = Signal.resume then
        let m := m.resume p
        match m.process? p.pid with
        | some p => if p.caught.contains n then m.tell p.pid n else m
        | none => m
      else if n = Signal.kill then m.finish p.pid (WaitStatus.signaled n)
      else if Signal.effect n = .stops || p.ignored.contains n || p.delayed.contains n then m
      else m.update p.pid (fun p => { p with delayed := p.delayed ++ [n] })

/-- Whether a process is the shell, or a copy of it that acts for it. -/
def actsAsShell (m : Machine) (pid : Pid) : Bool := m.callers.any (·.pid == pid) || m.current == pid

/-- Whether a process is the shell, but no copy of it. -/
def isShell (m : Machine) (pid : Pid) : Bool := ((m.callers.getLast?).map (·.pid)).getD m.current == pid

/-- A signal to the processes of a group but the shell; an error when there is none. -/
def signalPrograms (m : Machine) (group : Pid) (n : Nat) : Option Errno × Machine :=
  let members := m.processes.filter (·.group == group)
  if members.isEmpty then (some Errno.noProcess,m)
  else if n > Signal.greatest then (some Errno.invalid,m)
  else (none,members.foldl (fun m p =>
    if m.actsAsShell p.pid then m
    else match m.process? p.pid with
      | some p => m.signalProgram p n
      | none => m) m)

/-- A signal to a copy of the shell. A signal that it has caught is let pass once. -/
def signalCopy (m : Machine) (p : Process) (n : Nat) : Machine :=
  if p.caught.contains n then m.update p.pid (fun p => { p with caught := p.caught.erase n })
  else m.signalProgram p n

/-- A signal to the shell: an interrupt is passed on to the group in the foreground, unless a copy of the shell acts. -/
def signalShell (m : Machine) (p : Process) (n : Nat) : Machine :=
  if n = Signal.interrupt then
    if m.current != p.pid then m
    else
      let m := { m with interrupted := true }
      if m.foreground > 0 then (m.signalPrograms m.foreground n).2 else m
  else if (Signal.effect n = .stops && n != Signal.stop) || n = Signal.quit || n = Signal.brokenPipe then m
  else m.signalCopy p n

/-- A signal to a process, whatever it is. -/
def signalAny (m : Machine) (p : Process) (n : Nat) : Machine :=
  if m.isShell p.pid then m.signalShell p n
  else if m.actsAsShell p.pid then m.signalCopy p n
  else m.signalProgram p n

/-- A signal to a process of some number. -/
def signalOne (m : Machine) (pid : Pid) (n : Nat) : Option Errno × Machine :=
  match m.process? pid with
  | none => (some Errno.noProcess,m)
  | some p => if n > Signal.greatest then (some Errno.invalid,m) else (none,m.signalAny p n)

/-- A signal to all processes of a group, the shell among them; an error when there is none. -/
def signalGroup (m : Machine) (group : Pid) (n : Nat) : Option Errno × Machine :=
  let members := m.processes.filter (·.group == group)
  if members.isEmpty then (some Errno.noProcess,m)
  else if n > Signal.greatest then (some Errno.invalid,m)
  else (none,members.foldl (fun m p => ((m.process? p.pid).map (fun p => m.signalAny p n)).getD m) m)

/-- A signal that a process sends: to a process, to the group of a negative number, or to its own group. -/
def signal (m : Machine) (sender : Process) (target : Pid) (n : Int) : Option Errno × Machine :=
  if n < 0 then (some Errno.invalid,m)
  else if target = 0 then m.signalGroup sender.group n.toNat
  else if target < 0 then m.signalGroup (-target) n.toNat
  else m.signalOne target n.toNat

/-- Hangs up the groups that nobody looks after, and lets their processes go on. -/
def hangUp (m : Machine) : Machine :=
  m.abandoned.foldl (fun m g => ((m.signalPrograms g Signal.hangup).2.signalPrograms g Signal.resume).2)
    { m with abandoned := [] }

end Machine
end JobShell

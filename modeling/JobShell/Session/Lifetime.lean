import JobShell.Session.Interactive
import JobShell.Text.Cluster
import JobShell.System.Machine.Start

/-!
# From the beginning of a shell to its end

A shell on a machine ends by itself, or a signal ends it. The processes that it
leaves behind go on without it; on a terminal they cannot, as it goes with the
shell.
-/
namespace JobShell
namespace Machine

/-- How long the processes that a shell leaves behind are watched. -/
def watchTime : Nat := 5000000

/-- How many rounds of them are watched. -/
def watchRounds : Nat := 5000

/-- Lets the processes go on until all have ended, but not for long. -/
def settle (m : Machine) : Machine :=
  if m.hasTerminal then m
  else runUntil (fun m => m.processes.all (·.hasEnded)) (some (m.clock + watchTime)) watchRounds m

/-- Runs a shell from its beginning to its end, and then what it leaves behind: the status that it ends with, none when
    a signal ends it, and the machine after that. -/
def runShell (m : Machine) : Option Int × Machine :=
  let (status,after) := Console.runShell m
  match after.shell? with
  | none => (none,after.settle)
  | some p => (some status,(after.finish p.pid (WaitStatus.exited status.toNat)).settle)

end Machine
end JobShell

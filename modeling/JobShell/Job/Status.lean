import JobShell.Text.Numeral

/-!
# The status that a wait reports

The kernel reports the end of a process, or a stop, as one integer. Its low
seven bits tell how the process ended; all of them set stand for a stop.
-/
namespace JobShell

/-- What the kernel reports of a process, as a 32-bit integer. -/
abbrev WaitStatus := Int

namespace WaitStatus

/-- A field of the report: what is left of it modulo `range` after its lower bits, worth `unit`, are gone. -/
def field (raw : WaitStatus) (unit range : Nat) : Nat := (raw / unit % range).toNat

/-- The signal that ended the process, zero when it exited. -/
def signal (raw : WaitStatus) : Nat := field raw 1 128

/-- The process exited. -/
def hasExited (raw : WaitStatus) : Bool := signal raw == 0

/-- The process was ended by a signal. -/
def isSignaled (raw : WaitStatus) : Bool := 1 ≤ signal raw && signal raw ≤ 126

/-- The process was stopped. -/
def isStopped (raw : WaitStatus) : Bool := field raw 1 256 == 0x7f

/-- The process was continued. -/
def isContinued (raw : WaitStatus) : Bool := raw == 0xffff

/-- The status of a command: what it exited with, or 128 more than its signal. -/
def exitCode (raw : WaitStatus) : Int :=
  if hasExited raw then field raw 256 256
  else if isSignaled raw then 128 + signal raw
  else 1

/-- The report of a process that exited. -/
def exited (code : Nat) : WaitStatus := (code % 256 : Nat) * 256

/-- The report of a process that a signal ended. -/
def signaled (signo : Nat) : WaitStatus := (signo % 128 : Nat)

/-- The report of a process that a signal stopped. -/
def stopped (signo : Nat) : WaitStatus := (signo % 256 : Nat) * 256 + 0x7f

end WaitStatus
end JobShell

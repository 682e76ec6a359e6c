import JobShell.System.Kernel
import JobShell.Text.Blank

/-!
# Log levels

What is logged is settled by a level: messages of that level and of the more
important ones are, or none at all when the log is off. The environment has the
first word on the level and the settings the second.
-/
namespace JobShell

/-- How much is logged: the messages from a level up, or none. -/
inductive LogThreshold where
  | off
  | from (l : LogLevel)
  deriving DecidableEq, Repr

namespace LogLevel

/-- The place among the levels, the most important first. -/
def rank : LogLevel → Nat
  | .error => 1
  | .warn => 2
  | .info => 3
  | .debug => 4
  | .trace => 5

/-- The name in the log. -/
def label : LogLevel → Text
  | .error => txt "ERROR"
  | .warn => txt "WARN"
  | .info => txt "INFO"
  | .debug => txt "DEBUG"
  | .trace => txt "TRACE"

end LogLevel

namespace LogThreshold

/-- All thresholds. -/
def all : List LogThreshold := [.off,.from .error,.from .warn,.from .info,.from .debug,.from .trace]

/-- The name of a threshold. -/
def label : LogThreshold → Text
  | .off => txt "OFF"
  | .from l => l.label

/-- The threshold of a name, without regard to the case of ASCII letters and to blanks around it. -/
def ofText? (s : Text) : Option LogThreshold :=
  let name := (Text.trim s).map Char.toUpper
  all.find? (·.label == name)

/-- The threshold that the environment and the settings ask for. -/
def choose (environment : Bindings) (configured : Text) : LogThreshold :=
  (((environment.get? (txt "KAZE_LOG")).bind ofText?).or (ofText? configured)).getD (.from .warn)

end LogThreshold

/-- The file of the log, if there is a place for it. -/
def logPath? (environment : Bindings) : Option Text :=
  let below := fun directory => FileSystem.inside (FileSystem.inside directory (txt "kaze")) (txt "kaze.log")
  match (environment.get? (txt "XDG_STATE_HOME")).filter (!·.isEmpty) with
  | some directory => some (below directory)
  | none => (environment.get? (txt "HOME")).map fun home =>
      below (FileSystem.inside home (txt ".local/state"))

end JobShell

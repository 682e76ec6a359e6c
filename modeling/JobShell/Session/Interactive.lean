import JobShell.Line.View
import JobShell.Session.Prompt
import JobShell.Session.Run
import JobShell.Session.Vocabulary
import JobShell.Settings.Basic
import JobShell.Settings.LogLevel

/-!
# A shell that reads commands

The shell reads its settings and the commands of its start-up file, and then one
command after the other until its input ends or it is told to exit. Before each
command the user is told which jobs are done. A command goes on over several
lines as long as a quote is open or a line ends with a backslash.
-/
namespace JobShell

section
variable {σ : Type} [Console σ] [Segmentation]

/-! ### Beginning -/

/-- Tells the user what is wrong. The shell breaks down in this state of the system when that is not possible. -/
def Kernel.complain (t : Text) (s : σ) : Except σ σ :=
  match Kernel.write .errors (Utf8.encode (Act.message t)) s with
  | .ok s => .ok s
  | .error _ => .error s

/-- The settings of the file that the environment names; those without a file when it has none. -/
def Settings.load (s : σ) : Except σ (Settings × σ) :=
  match Settings.defaultPath? (Kernel.environment s) with
  | none => return (.standard,s)
  | some path =>
    match Settings.ofFile s path with
    | .ok t => return (t.getD .standard,s)
    | .error e => return (.standard,← Kernel.complain (txt "config: " ++ path ++ txt ": " ++ e.message) s)

/-- Begins the log. Without one the shell goes on all the same. -/
def Settings.beginLog (t : Settings) (s : σ) : Except σ σ :=
  match LogThreshold.choose (Kernel.environment s) t.logLevel with
  | .off => return s
  | .from level =>
    match logPath? (Kernel.environment s) with
    | none => Kernel.complain (txt "log: HOME not set, logging disabled") s
    | some path =>
      let s := Kernel.createDirectories (FileSystem.parent path) s
      match Console.openLog level path s with
      | .ok s => return s
      | .error e => Kernel.complain (txt "log: " ++ path ++ txt ": " ++ (Settings.Failure.unreadable e).message) s

/-- The history that the settings ask for. -/
def Settings.openHistory (t : Settings) (s : σ) : History :=
  let path := t.historyFile ⟨0,(Kernel.environment s).get?,Kernel.homeOf s⟩
  History.load path (Kernel.contentOf s path).toOption t.historySize t.dedup

/-- A shell at its beginning, with the settings that it has still to take over. -/
def Session.begin (s : σ) : Except σ (Settings × Session σ) := do
  let (t,s) ← Settings.load s
  let s ← t.beginLog s
  let s := Kernel.log .info (txt "starting") s
  let h := t.openHistory s
  let s := Kernel.log .debug (txt "history: " ++ Numeral.ofNat h.entries.length ++ txt " entries") s
  return (t,⟨Shell.start h s,s⟩)

namespace Act

/-- Runs the lines of a text. Blank lines and those that begin with a number sign are skipped. -/
def runScript : List Text → Act σ Unit
  | [] => return ()
  | line :: r => do
    let line := Text.trim line
    if line.isEmpty || line.head? = some '#' then runScript r
    else
      let _ ← runLine line
      if (← shell).shouldExit then return () else runScript r

/-- Runs the start-up file in the home directory, if there is one. -/
def runStartup : Act σ Unit := do
  let s ← system
  match (Kernel.environment s).get? (txt "HOME") with
  | none => return ()
  | some home =>
    let path := FileSystem.inside home (txt ".kazerc")
    match ((Kernel.contentOf s path).toOption).bind Utf8.decode? with
    | none => return ()
    | some content =>
      log .info (txt "loading " ++ path)
      runScript (Text.lines content)

/-! ### Reading commands -/

/-- How many bytes are read at once. -/
def blockSize : Nat := 8192

/-- Reads on until the bytes hold a line feed or the input ends. -/
def readAhead : Nat → Bytes → Act σ Bytes
  | 0, seen => return seen
  | fuel+1, seen => do
    if seen.contains 10 then return seen
    else
      let more ← operate (Console.readInput blockSize)
      if more.isEmpty then return seen else readAhead fuel (seen ++ more)

/-- The next line of a file, and the bytes that were read after it. No line is there at the end of the
    file, or when the line is not UTF-8. -/
def readPlain (seen : Bytes) : Act σ (Option Text × Bytes) := do
  let seen ← readAhead (Console.inputLeft (← system) + 1) seen
  let line := seen.takeWhile (· != 10)
  if seen.isEmpty then return (none,[])
  else return (Utf8.decode? line,seen.drop (line.length + 1))

/-- The next line of the terminal: the prompt is there before the user types. What was typed after the line is lost. -/
def readTyped (prompt : Text) (v : Vocabulary) : Act σ (Option Text) := do
  let (e,h) := Editor.reset (← shell).history
  let _ ← writeText .output (e.render prompt h)
  modifySystem Console.awaitTyping
  let s ← get
  let r := e.readKeys prompt h (v.outlook s.shell.lastStatus s.system) (Console.typed s.system)
  let _ ← writeText .output r.screen
  modifyShell (fun shell => { shell with history := r.history })
  modifySystem (Console.setTyped { r.input with ready := [] })
  return r.line

/-- The next line, and the bytes that were read after it. -/
def readLine (prompt : Text) (v : Vocabulary) (seen : Bytes) : Act σ (Option Text × Bytes) := do
  if Console.isTerminal (← system) then return (← readTyped prompt v,seen)
  else
    modifyShell (fun s => { s with history := s.history.leave })
    readPlain seen

/-- A line to which another one is to be added: a backslash at its end is dropped, and otherwise the
    lines are joined by a line feed. -/
def continued (line : Text) : Text :=
  if (Text.trimEnd line).getLast? = some backslash then (Text.trimEnd line).dropLast else line ++ ['\n']

/-- Adds lines to a command until it is complete or the input ends. -/
def readRest (v : Vocabulary) : Nat → Text → Bytes → Act σ (Text × Bytes)
  | 0, line, seen => return (line,seen)
  | fuel+1, line, seen => do
    if Pipeline.needsMore (← surroundings) (← shell).aliases.get? line then
      match ← readLine (txt "> ") v seen with
      | (none,seen) => return (continued line,seen)
      | (some next,seen) => readRest v fuel (continued line ++ next) seen
    else return (line,seen)

/-- Reads a command; none at the end of the input. -/
def readCommand (v : Vocabulary) (seen : Bytes) : Act σ (Option Text × Bytes) := do
  match ← readLine (Prompt.ofSession (← get)) v seen with
  | (none,seen) => return (none,seen)
  | (some line,seen) =>
    let (command,seen) ← readRest v (Console.inputLeft (← system) + seen.length + 1) line seen
    return (some command,seen)

/-- Tells the user which jobs are done. -/
def notifyJobs : Act σ Unit := do
  let (notices,jobs) := (← shell).jobs.notify
  let _ ← writeText .errors notices
  modifyShell (fun s => { s with jobs := jobs })

/-- Reads and runs commands. Each goes into the history with its status. -/
def runCommands : Nat → Vocabulary → Bytes → Act σ Unit
  | 0, _, _ => return ()
  | fuel+1, v, seen => do
    if (← shell).shouldExit then return ()
    else
      collectJobs
      notifyJobs
      let v ← refresh v
      match ← readCommand v seen with
      | (none,_) => return ()
      | (some line,seen) =>
        if (Text.trim line).isEmpty then runCommands fuel v seen
        else
          let outcome ← runLine line
          let _ ← remember line outcome.status (Console.now (← system))
          runCommands fuel v seen

/-- Takes control of the terminal, if there is one. -/
def controlTerminal : Act σ Unit := do
  if Console.isTerminal (← system) then
    modifyShell (fun s => { s with interactive := true })
    log .info (txt "job control enabled")

/-- All that a shell does after its beginning, up to the status that it ends with. -/
def runSession (t : Settings) : Act σ Int := do
  takeSettings t.aliases t.environment
  controlTerminal
  runStartup
  let v ← refresh ⟨.empty,[]⟩
  runCommands (Console.inputLeft (← system) + 1) v []
  match ← saveHistory with
  | .ok () => pure ()
  | .error e => log .warn (txt "history not saved: " ++ e.message)
  let status := (← shell).lastStatus
  log .info (txt "exiting with status " ++ Numeral.ofInt status)
  return status % 256

end Act

/-- Runs a shell from its beginning to its end: the status it ends with, and the operating system after it. -/
def Console.runShell (s : σ) : Int × σ :=
  match Session.begin s with
  | .error after => (Act.crashStatus,after)
  | .ok (t,session) =>
    match (Act.runSession t).run session with
    | (.ok status,after) => (status,after.system)
    | (.error _,after) => (Act.crashStatus,after.system)

end
end JobShell

import JobShell.Session.Stage

/-!
# Running command lines

A command line is read, its words are expanded, and its commands are run. One
built-in command in the foreground is run by the shell itself; everything else
becomes a job, which is waited for unless it is put into the background.
-/
namespace JobShell

/-- What a command line ends with: its status, and the number of its job if it is one of the table now. -/
structure CommandOutcome where
  status : Int
  job : Option Nat
  deriving DecidableEq, Repr

/-- A command line as a job is shown: without blanks around it and an ampersand at its end. -/
def displayed (line : Text) : Text :=
  let t := Text.trim line
  if t.getLast? = some '&' then Text.trimEnd t.dropLast else t

/-- An output in a word: line feeds at its end are dropped. -/
def capturedText (output : Bytes) : Text := Text.dropEndWhile (· == '\n') (Utf8.decode output)

section
variable {σ : Type} [Kernel σ]

/-- How the output of a command is had. -/
abbrev Capture (σ : Type) := Text → Act σ Text

namespace Act

/-- The part of a text from byte position `m` to byte position `n`, which breaks down when there is none. -/
def part (t : Text) (m n : Nat) : Act σ Text :=
  match t.between? m n with
  | some p => return p
  | none => throw (.noPart (m,n))

/-- The text from byte position `start` on, with the output of its command in the place of each of the byte ranges. -/
def expandFrom (capture : Capture σ) (t : Text) (start : Nat) : List (Nat × Nat) → Act σ Text
  | [] => part t start (Text.width t)
  | range :: r => do
    let literal ← part t start range.1
    let output ← capture (Substitution.command (← part t range.1 range.2))
    return literal ++ output ++ (← expandFrom capture t range.2 r)

/-- The text of a word, every command being run in its turn. -/
def expandWord (capture : Capture σ) (w : Word) : Act σ Text := expandFrom capture w.text 0 w.spans

/-- The texts of words. -/
def expandWords (capture : Capture σ) : List Word → Act σ (List Text)
  | [] => return []
  | w :: r => do
    let t ← expandWord capture w
    return t :: (← expandWords capture r)

/-- Redirections with their words expanded. -/
def expandRedirects (capture : Capture σ) : List Redirect → Act σ (List Redirection)
  | [] => return []
  | .duplicate d source :: r => do return .duplicate d source :: (← expandRedirects capture r)
  | .file mode w :: r => do
    let path ← expandWord capture w
    return .file mode path :: (← expandRedirects capture r)

/-- Commands with their words expanded: from left to right, and the redirections of each after its words. -/
def expandCommands (capture : Capture σ) : List Command → Act σ (List Invocation)
  | [] => return []
  | c :: r => do
    let args ← expandWords capture c.args
    let redirects ← expandRedirects capture c.redirects
    return ⟨args,redirects⟩ :: (← expandCommands capture r)

/-- The invocation that the shell runs itself: one built-in command in the foreground, no descriptor of
    which is duplicated. -/
def ownCommand? (background : Bool) : List Invocation → Option Invocation
  | [i] => if !background && isBuiltin i.name && !i.duplicates then some i else none
  | _ => none

/-- Runs a built-in command in the shell itself, with its files open meanwhile. -/
def runOwn (i : Invocation) : Act σ Int := do
  match ← openRedirects i.redirects .inherited with
  | .error e => refuse e
  | .ok w =>
    let channels := ⟨(w.output.map Channel.handle).getD .output,(w.errors.map Channel.handle).getD .errors⟩
    let status ← Builtin.run? channels i.args
    closeAll w.handles
    return status.getD 1

/-- Runs the stages of a pipeline as a job. -/
def runStages (stages : List Stage) (background : Bool) (display : Text) : Act σ CommandOutcome := do
  match ← openPipes (stages.length - 1) with
  | .error e =>
    closeAll (stages.flatMap (·.wiring.handles))
    return ⟨← refuse (.notStarted e (txt "pipe")),none⟩
  | .ok pipes =>
    match ← startStages 0 [] none pipes stages with
    | (some e,group,pids) =>
      abandon group pids
      return ⟨← refuse e,none⟩
    | (none,group,pids) =>
      let job := Job.start group display pids
      if background then
        let id ← adopt job
        tell ('[' :: Numeral.ofNat id ++ txt "] " ++ Numeral.ofInt group ++ ['\n'])
        return ⟨0,some id⟩
      else
        let ((status,stopped),job) ← awaitForeground job
        if stopped then
          let id ← adopt job
          tell (txt "\n[" ++ Numeral.ofNat id ++ txt "]+  Stopped   " ++ display ++ ['\n'])
          return ⟨status,some id⟩
        else
          log .info (txt "exit " ++ Numeral.ofInt status ++ txt ": " ++ display)
          return ⟨status,none⟩

/-- Runs the commands of a line. -/
def runPipeline (capture : Capture σ) (p : Pipeline) (line : Text) : Act σ CommandOutcome := do
  let commands ← expandCommands capture p.commands
  match ownCommand? p.background commands with
  | some i => return ⟨← runOwn i,none⟩
  | none =>
    log .info (txt "exec: " ++ displayed line)
    match ← prepare commands with
    | .error e => return ⟨← refuse e,none⟩
    | .ok stages => runStages stages p.background (displayed line)

/-- The status of a line that is not well formed. -/
def syntaxStatus : Int := 2

/-- Runs a command line. A blank one changes nothing. -/
def runWith (capture : Capture σ) (line : Text) : Act σ CommandOutcome := do
  let shell ← shell
  match Pipeline.parse (← surroundings) shell.aliases.get? line with
  | .ok none => return ⟨shell.lastStatus,none⟩
  | .ok (some p) =>
    let outcome ← runPipeline capture p line
    modifyShell (fun s => { s with lastStatus := outcome.status })
    return outcome
  | .error e =>
    complain e.message
    modifyShell (fun s => { s with lastStatus := syntaxStatus })
    return ⟨syntaxStatus,none⟩

/-- The output of a command that a copy of the shell runs. -/
def captureWith (run : Text → Act σ CommandOutcome) (command : Text) : Act σ Text := do
  match Kernel.beginCapture (← system) with
  | .error message =>
    log .warn (txt "command substitution: " ++ message)
    return []
  | .ok system =>
    modifySystem (fun _ => system)
    let status ← inCopy (do return (← run command).status)
    let output ← operate (Kernel.endCapture status)
    return capturedText output

/-- What is put in the place of a command when commands are nested too deeply. -/
def refuseCapture : Capture σ := fun _ => do
  log .warn (txt "command substitution: nested too deeply")
  return []

/-- Runs a command line in which commands are nested at most `depth` deep. -/
def runWithin : Nat → Text → Act σ CommandOutcome
  | 0, line => runWith refuseCapture line
  | depth+1, line => runWith (captureWith (runWithin depth)) line

/-- How deep commands in a line can be nested when aliases do not lead to themselves: every command is shorter than the
    line or the alias that it stands in. -/
def captureDepth (aliases : Bindings) (line : Text) : Nat :=
  aliases.foldl (fun n b => n + b.2.length) line.length

/-- Runs a command line. -/
def runLine (line : Text) : Act σ CommandOutcome := do runWithin (captureDepth (← shell).aliases line) line

/-- Runs a built-in command by its name. -/
def runBuiltin (name : Text) (args : List Text) : Act σ CommandOutcome := do
  match ← Builtin.run? .standard (name :: args) with
  | some status => return ⟨status,none⟩
  | none => return ⟨← refuse (.notFound name),none⟩

end Act
end
end JobShell

import JobShell.Line.Completion
import JobShell.Session.Waiting

/-!
# Built-in commands

The commands that a shell runs itself. Each writes to a channel for its output
and to one for its complaints, and ends with a status.
-/
namespace JobShell
namespace Builtin

section
variable {σ : Type} [Kernel σ]

/-- The channels of a command. -/
structure Channels where
  output : Channel
  errors : Channel

/-- The channels of the shell itself. -/
def Channels.standard : Channels := ⟨.output,.errors⟩

/-- Writes a line of output. -/
def say (c : Channels) (t : Text) : Writing σ Unit := Writing.print c.output (t ++ ['\n'])

/-- Writes a complaint of a command. -/
def fail (c : Channels) (t : Text) : Writing σ Unit := Writing.print c.errors (txt "kaze: " ++ t ++ ['\n'])

/-- `exit [status]` ends the shell, with the last status when none is given. -/
def exit (c : Channels) (args : List Text) : Writing σ Int := do
  Writing.act (Act.modifyShell (fun s => { s with shouldExit := true }))
  match args with
  | [] => return (← Writing.act Act.shell).lastStatus
  | arg :: _ =>
    match Numeral.readInt Numeral.maxInt32 arg with
    | some n => return n % 256
    | none =>
      fail c (txt "exit: " ++ arg ++ txt ": numeric argument required")
      return 2

/-- `cd [directory]` goes to a directory, `cd -` to the one before and `cd` home. -/
def cd (c : Channels) (args : List Text) : Writing σ Int := do
  let env := (← Writing.act Act.shell).environment
  let back := args.head? = some ['-']
  let target := match args with
    | [] => env.get? (txt "HOME")
    | arg :: _ => if back then env.get? (txt "OLDPWD") else some arg
  match target with
  | none =>
    fail c (txt "cd: " ++ (if back then txt "OLDPWD" else txt "HOME") ++ txt " not set")
    return 1
  | some target =>
    match ← Writing.act (Act.changeDirectory target) with
    | .error e =>
      fail c (txt "cd: " ++ target ++ txt ": " ++ e.message)
      return 1
    | .ok () =>
      if back then say c (← Writing.act Act.shell).directory
      return 0

/-- `pwd` shows the current directory. -/
def pwd (c : Channels) : Writing σ Int := do
  say c (← Writing.act Act.shell).directory
  return 0

/-- Whether a text is a name that `export` takes. -/
def isName (name : Text) : Bool :=
  match name with
  | [] => false
  | c :: r => Expansion.isNameStart c && r.all Expansion.isNameChar

/-- A text before its first equals sign, and the text after it if there is one. -/
def assignment (arg : Text) : Text × Option Text :=
  match Text.splitAt? '=' arg with
  | some (name,value) => (name,some value)
  | none => (arg,none)

/-- Binds the variables of assignments; the status tells whether all were names. -/
def exportAll (c : Channels) : List Text → Int → Writing σ Int
  | [], status => return status
  | arg :: r, status => do
    let (name,value) := assignment arg
    if isName name then
      match value with
      | some value => Writing.act (Act.setVariable name value)
      | none => pure ()
      exportAll c r status
    else
      fail c (txt "export: \x60" ++ arg ++ txt "\x27: not a valid identifier")
      exportAll c r 1

/-- `export [name[=value] ...]` binds variables, or shows all of them. -/
def exportVariables (c : Channels) (args : List Text) : Writing σ Int := do
  if args.isEmpty then
    for (name,value) in (← Writing.act Act.shell).environment do
      say c (txt "export " ++ name ++ txt "=\x22" ++ value ++ txt "\x22")
    return 0
  else exportAll c args 0

/-- `unset name ...` unbinds variables. -/
def unset (args : List Text) : Writing σ Int := do
  for name in args do
    Writing.act (Act.unsetVariable name)
  return 0

/-- An alias as `alias` shows it. -/
def aliasLine (name value : Text) : Text := txt "alias " ++ name ++ txt "=\x27" ++ value ++ txt "\x27"

/-- Binds or shows aliases; the status tells whether all could be. -/
def aliasAll (c : Channels) : List Text → Int → Writing σ Int
  | [], status => return status
  | arg :: r, status => do
    match assignment arg with
    | ([],some _) =>
      fail c (txt "alias: \x60" ++ arg ++ txt "\x27: invalid alias name")
      aliasAll c r 1
    | (name,some value) =>
      Writing.act (Act.modifyShell (fun s => { s with aliases := s.aliases.set name value }))
      aliasAll c r status
    | (name,none) =>
      match (← Writing.act Act.shell).aliases.get? name with
      | some value =>
        say c (aliasLine name value)
        aliasAll c r status
      | none =>
        fail c (txt "alias: " ++ name ++ txt ": not found")
        aliasAll c r 1

/-- `alias [name[=value] ...]` binds aliases, or shows them. -/
def defineAliases (c : Channels) (args : List Text) : Writing σ Int := do
  if args.isEmpty then
    for (name,value) in (← Writing.act Act.shell).aliases do
      say c (aliasLine name value)
    return 0
  else aliasAll c args 0

/-- Unbinds aliases; the status tells whether all were bound. -/
def unaliasAll (c : Channels) : List Text → Int → Writing σ Int
  | [], status => return status
  | name :: r, status => do
    if name = txt "-a" then
      Writing.act (Act.modifyShell (fun s => { s with aliases := [] }))
      unaliasAll c r status
    else if ((← Writing.act Act.shell).aliases.get? name).isSome then
      Writing.act (Act.modifyShell (fun s => { s with aliases := s.aliases.unset name }))
      unaliasAll c r status
    else
      fail c (txt "unalias: " ++ name ++ txt ": not found")
      unaliasAll c r 1

/-- `unalias [-a] name ...` unbinds aliases. -/
def unalias (c : Channels) (args : List Text) : Writing σ Int := do
  if args.isEmpty then
    fail c (txt "unalias: usage: unalias [-a] name [name ...]")
    return 2
  else unaliasAll c args 0

/-- `jobs` lists the jobs. -/
def jobs (c : Channels) : Writing σ Int := do
  Writing.act Act.collectJobs
  let (listing,rest) := (← Writing.act Act.shell).jobs.list
  Writing.print c.output listing
  Writing.act (Act.modifyShell (fun s => { s with jobs := rest }))
  return 0

/-- The job that an argument names. -/
def chosenJob (args : List Text) : Act σ (Except JobError Job) := do
  Act.collectJobs
  let jobs := (← Act.shell).jobs
  match jobs.resolve args.head? with
  | .error e => return .error e
  | .ok id =>
    match jobs.job? id with
    | some j => return .ok j
    | none => return .error (.noSuchJob (Numeral.ofNat id))

/-- Changes a job of the table. -/
def modifyJob (id : Nat) (f : Job → Job) : Act σ Unit :=
  Act.modifyShell (fun s => { s with jobs := s.jobs.modify id f })

/-- `fg [job]` lets a job go on in the foreground. -/
def fg (c : Channels) (args : List Text) : Writing σ Int := do
  match ← Writing.act (chosenJob args) with
  | .error e =>
    fail c (txt "fg: " ++ e.message)
    return 1
  | .ok j =>
    say c j.command
    if j.state = .stopped then Writing.act (Act.continueGroup j.group)
    let ((status,stopped),j) ← Writing.act (Act.awaitForeground j.markRunning)
    if stopped then
      Writing.act (modifyJob j.id (fun _ => j))
      Writing.print c.errors (txt "\n[" ++ Numeral.ofNat j.id ++ txt "]+  Stopped   " ++ j.command ++ ['\n'])
    else
      Writing.act (Act.modifyShell (fun s => { s with jobs := s.jobs.remove j.id }))
      Writing.act (Act.log .info (txt "job [" ++ Numeral.ofNat j.id ++ txt "] removed"))
    return status

/-- `bg [job]` lets a stopped job go on in the background. -/
def bg (c : Channels) (args : List Text) : Writing σ Int := do
  match ← Writing.act (chosenJob args) with
  | .error e =>
    fail c (txt "bg: " ++ e.message)
    return 1
  | .ok j =>
    match j.state with
    | .running =>
      fail c (txt "bg: " ++ (JobError.alreadyRunning j.id).message)
      return 1
    | .done _ =>
      fail c (txt "bg: " ++ (JobError.terminated j.id).message)
      return 1
    | .stopped =>
      Writing.act (Act.continueGroup j.group)
      Writing.act (modifyJob j.id Job.markRunning)
      say c ('[' :: Numeral.ofNat j.id ++ txt "] continued  " ++ j.command)
      return 0

/-- Shows commands with their numbers. -/
def showEntries (c : Channels) : Nat → List HistoryEntry → Writing σ Unit
  | _, [] => return ()
  | n, e :: r => do
    say c (Text.padStart 5 (Numeral.ofNat n) ++ txt "  " ++ e.command)
    showEntries c (n+1) r

/-- `history [count]` shows the last commands, `history -c` forgets all. -/
def history (c : Channels) (args : List Text) : Writing σ Int := do
  let entries := (← Writing.act Act.shell).history.entries
  let last := fun n => do
    showEntries c (entries.length - n + 1) (entries.drop (entries.length - n))
    return 0
  match args with
  | [] => last entries.length
  | arg :: _ =>
    if arg = txt "-c" then
      Writing.act (Act.modifyShell (fun s => { s with history := s.history.clear }))
      return 0
    else match Numeral.readNat Numeral.maxNat64 arg with
      | some n => last n
      | none =>
        fail c (txt "history: " ++ arg ++ txt ": numeric argument required")
        return 2

/-- The command of a name; `none` when it is not a built-in one. -/
def command? (c : Channels) (name : Text) (args : List Text) : Option (Writing σ Int) :=
  if name = txt "exit" then some (exit c args)
  else if name = txt "cd" then some (cd c args)
  else if name = txt "pwd" then some (pwd c)
  else if name = txt "export" then some (exportVariables c args)
  else if name = txt "unset" then some (unset args)
  else if name = txt "alias" then some (defineAliases c args)
  else if name = txt "unalias" then some (unalias c args)
  else if name = txt "jobs" then some (jobs c)
  else if name = txt "fg" then some (fg c args)
  else if name = txt "bg" then some (bg c args)
  else if name = txt "history" then some (history c args)
  else none

/-- Runs a built-in command; `none` when there is none of that name. What cannot be written ends the
    command with status 1, and the shell when even this cannot be told. -/
def run? (c : Channels) (argv : List Text) : Act σ (Option Int) := do
  match argv with
  | [] => return none
  | name :: args =>
    match command? c name args with
    | none => return none
    | some command =>
      match ← command.run with
      | .ok status => return some status
      | .error e =>
        Act.complain (name ++ txt ": write error: " ++ e.message)
        return some 1

end
end Builtin
end JobShell

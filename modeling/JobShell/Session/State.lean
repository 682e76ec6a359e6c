import JobShell.History.Window
import JobShell.Job.Table
import JobShell.Syntax.Pipeline
import JobShell.System.Kernel
import JobShell.Text.Bindings

/-!
# The state of a shell

What a shell remembers between two commands, and the actions that change it
together with the operating system. The environment and the directory are kept
by both, and every action here changes both.
-/
namespace JobShell

/-- What a shell remembers. -/
structure Shell where
  lastStatus : Int
  shouldExit : Bool
  jobs : JobTable
  aliases : Bindings
  environment : Bindings
  directory : Text
  history : History
  /-- The shell controls its terminal. -/
  interactive : Bool
  deriving DecidableEq, Repr

/-- A shell and the operating system under it. -/
structure Session (σ : Type) where
  shell : Shell
  system : σ

/-- Why a shell breaks down. -/
inductive Crash where
  /-- The operating system has no such variable. -/
  | badVariable (name : Text)
  /-- What the shell tells the user cannot be written. -/
  | untold (e : SystemError)
  /-- A text has no part from the first to the second byte position. -/
  | noPart (range : Nat × Nat)
  deriving DecidableEq, Repr

/-- An action of a shell. -/
abbrev Act (σ : Type) := ExceptT Crash (StateM (Session σ))

/-- An action that writes, and ends when that fails. -/
abbrev Writing (σ : Type) := ExceptT SystemError (Act σ)

section
variable {σ : Type} [Kernel σ]

namespace Shell

/-- The state of a shell that begins. -/
def start (history : History) (s : σ) : Shell where
  lastStatus := 0
  shouldExit := false
  jobs := []
  aliases := []
  environment := Kernel.environment s
  directory := Kernel.directory s
  history := history
  interactive := false

end Shell

namespace Act

/-- The state of the shell. -/
def shell : Act σ Shell := do return (← get).shell

/-- The state of the operating system. -/
def system : Act σ σ := do return (← get).system

/-- Changes the state of the shell. -/
def modifyShell (f : Shell → Shell) : Act σ Unit := modify (fun s => { s with shell := f s.shell })

/-- Changes the state of the operating system. -/
def modifySystem (f : σ → σ) : Act σ Unit := modify (fun s => { s with system := f s.system })

/-- An operation that yields something and changes the operating system. -/
def operate {α : Type} (f : σ → α × σ) : Act σ α := do
  let (a,system) := f (← system)
  modifySystem (fun _ => system)
  return a

/-- An operation that changes the operating system unless it fails. -/
def attempt {ε α : Type} (f : σ → Except ε (α × σ)) : Act σ (Except ε α) := do
  match f (← system) with
  | .error e => return .error e
  | .ok (a,system) =>
    modifySystem (fun _ => system)
    return .ok a

/-- Puts a message into the log. -/
def log (l : LogLevel) (message : Text) : Act σ Unit := modifySystem (Kernel.log l message)

/-- Writes a text, if that is possible. -/
def writeText (c : Channel) (t : Text) : Act σ (Except SystemError Unit) :=
  attempt (fun s => (Kernel.write c (Utf8.encode t) s).map (fun s => ((),s)))

/-- Tells the user something; the shell breaks down when that is not possible. -/
def tell (t : Text) : Act σ Unit := do
  match ← writeText .errors t with
  | .ok () => return ()
  | .error e => throw (.untold e)

/-- What is told as a message of the shell, which begins with its name. -/
def message (t : Text) : Text := txt "kaze: " ++ t ++ ['\n']

/-- Tells the user what is wrong. -/
def complain (t : Text) : Act σ Unit := tell (message t)

/-- What words are expanded with. -/
def surroundings : Act σ Surroundings := do
  let s ← get
  return ⟨s.shell.lastStatus,(Kernel.environment s.system).get?,Kernel.homeOf s.system⟩

/-- Whether a text can be the name of a variable of a process. -/
def isVariableName (name : Text) : Bool := !name.isEmpty && !name.contains '=' && !name.contains '\x00'

/-- Binds a variable, for the shell and for its process. -/
def setVariable (name value : Text) : Act σ Unit := do
  if isVariableName name && !value.contains '\x00' then
    modifySystem (fun s => Kernel.setEnvironment ((Kernel.environment s).set name value) s)
    modifyShell (fun s => { s with environment := s.environment.set name value })
  else throw (.badVariable name)

/-- Unbinds a variable, for the shell and for its process. -/
def unsetVariable (name : Text) : Act σ Unit := do
  if isVariableName name then
    modifySystem (fun s => Kernel.setEnvironment ((Kernel.environment s).unset name) s)
    modifyShell (fun s => { s with environment := s.environment.unset name })
  else throw (.badVariable name)

/-- Goes to a directory and tells so in the environment; nothing changes when that fails. -/
def changeDirectory (target : Text) : Act σ (Except SystemError Unit) := do
  match Kernel.changeDirectory target (← system) with
  | .error e => return .error e
  | .ok system =>
    let old := (← shell).directory
    let new := Kernel.directory system
    modifySystem (fun _ => system)
    modifyShell (fun s => { s with directory := new })
    setVariable (txt "OLDPWD") old
    setVariable (txt "PWD") new
    return .ok ()

/-- Takes over aliases and variables. -/
def takeSettings (aliases environment : Bindings) : Act σ Unit := do
  modifyShell (fun s => { s with aliases := s.aliases.setAll aliases })
  for (name,value) in environment do
    setVariable name value

/-- Adds a command to the history, and to its file. -/
def remember (command : Text) (status : Int) (time : Nat) : Act σ Bool := do
  let h := (← shell).history
  match h.entry? command status time with
  | none => return false
  | some e =>
    match h.file with
    | none => pure ()
    | some f =>
      match ← attempt (fun s => (Kernel.appendFile f e.bytes s).map (fun s => ((),s))) with
      | .ok _ => pure ()
      | .error err =>
        log .warn (txt "history append to " ++ f ++ txt " failed: " ++ err.message)
    modifyShell (fun s => { s with history := h.push e })
    return true

/-- Replaces the file of the history when it holds more than the history. -/
def saveHistory : Act σ (Except SystemError Unit) := do
  let h := (← shell).history
  match h.replacement? with
  | none => return .ok ()
  | some (f,content) =>
    match ← attempt (fun s => (Kernel.replaceFile f content s).map (fun s => ((),s))) with
    | .ok _ =>
      modifyShell (fun s => { s with history := h.written })
      return .ok ()
    | .error e => return .error e

end Act

/-- An action that cannot fail to write. -/
def Writing.act {α : Type} (a : Act σ α) : Writing σ α := ExceptT.lift a

/-- Writes a text in an action that ends when that fails. -/
def Writing.print (c : Channel) (t : Text) : Writing σ Unit := ExceptT.mk (Act.writeText c t)

end
end JobShell

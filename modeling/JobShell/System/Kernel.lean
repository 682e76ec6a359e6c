import JobShell.Job.Basic
import JobShell.Line.Key
import JobShell.Syntax.Lexeme
import JobShell.System.FileSystem
import JobShell.Text.Bindings

/-!
# What a shell asks of its operating system

The operations that a shell is written against. Whatever has these operations
can run the shell; nothing else of the operating system is visible to it.

Waiting uses up events. `events` bounds the number of those that can still
come, so a shell that waits for its processes comes to an end.
-/
namespace JobShell

/-- An open file, or an end of a pipe, that a shell holds. -/
abbrev Handle := Nat

/-- Where a shell writes to. -/
inductive Channel where
  | output
  | errors
  | handle (h : Handle)
  deriving DecidableEq, Repr

/-- What a descriptor of a new process is bound to. -/
inductive Source where
  /-- What a handle of the shell stands for. -/
  | handle (h : Handle)
  /-- What another descriptor of the process is bound to. -/
  | descriptor (d : Int)
  deriving DecidableEq, Repr

/-- A descriptor of a new process that is bound anew. -/
structure Rebinding where
  descriptor : Int
  source : Source
  deriving DecidableEq, Repr

/-- A program to be started in a process of its own. -/
structure Launch where
  program : Text
  args : List Text
  /-- The group to join, zero for a new one. -/
  group : Pid
  /-- What is bound anew, one after another. All other descriptors are those of the shell. -/
  rebindings : List Rebinding
  deriving DecidableEq, Repr

/-- What waiting for a process, or for one of a group, ends with. -/
inductive Waited where
  | changed (pid : Pid) (status : WaitStatus)
  /-- A signal came to the shell. -/
  | interrupted
  | noChild
  deriving DecidableEq, Repr

/-- How important a message of the log is. -/
inductive LogLevel where
  | error | warn | info | debug | trace
  deriving DecidableEq, Repr

/-- The operations of an operating system, whose states are of the type `σ`. -/
class Kernel (σ : Type) where
  /-- The environment of the shell's process. -/
  environment : σ → Bindings
  setEnvironment : Bindings → σ → σ
  /-- The home directory of a user. -/
  homeOf : σ → Text → Option Text
  /-- The current directory of the shell's process. -/
  directory : σ → Text
  changeDirectory : Text → σ → Except SystemError σ
  kindOf : σ → Text → Except SystemError FileKind
  /-- The names in a directory. -/
  namesIn : σ → Text → Except SystemError (List Text)
  contentOf : σ → Text → Except SystemError Bytes
  /-- Adds to the end of a file, which is made when it is missing. -/
  appendFile : Text → Bytes → σ → Except SystemError σ
  /-- Replaces the content of a file, which is made when it is missing. -/
  replaceFile : Text → Bytes → σ → Except SystemError σ
  createDirectories : Text → σ → σ
  openFile : FileMode → Text → σ → Except SystemError (Handle × σ)
  /-- A pipe: the end that is read and the end that is written. -/
  pipe : σ → Except Errno ((Handle × Handle) × σ)
  close : Handle → σ → σ
  /-- Writes to a channel. What goes to the output or the errors of a shell is lost when these are not open for
      writing. -/
  write : Channel → Bytes → σ → Except SystemError σ
  /-- Starts a program in a new process. -/
  spawn : Launch → σ → Except Errno Pid × σ
  /-- Makes a copy of the shell's process, whose doings are those of the shell from here on until it ends. -/
  fork : Pid → List Rebinding → σ → Except Errno Pid × σ
  /-- Ends the copy; the shell itself goes on. -/
  endFork : Int → σ → σ
  /-- Makes a copy of the shell's process whose standard output is kept; none when there is no copy. -/
  beginCapture : σ → Except Text σ
  /-- Ends the copy with a status. What it and its processes wrote is there once none of them can write. -/
  endCapture : Int → σ → Bytes × σ
  signalGroup : Pid → Nat → σ → Option Errno × σ
  /-- Waits for a change of a process of a group. -/
  waitGroup : Pid → σ → Waited × σ
  /-- Waits for the end of a process. -/
  waitProcess : Pid → σ → Waited × σ
  /-- A change of a process of a group that has happened already. -/
  poll : Pid → σ → Option (Pid × WaitStatus) × σ
  /-- The group that interrupts are passed on to. -/
  foreground : σ → Pid
  setForeground : Pid → σ → σ
  /-- Lets a group read from the terminal, zero being that of the shell. -/
  giveTerminal : Pid → σ → σ
  log : LogLevel → Text → σ → σ
  /-- A bound for the changes of processes that can still be waited for. -/
  events : σ → Nat
  /-- Writing to the log changes nothing that is waited for. -/
  log_events : ∀ l t s, events (log l t s) = events s
  /-- A change that was waited for is used up. -/
  waitGroup_events : ∀ g s, (waitGroup g s).1 ≠ .noChild → events (waitGroup g s).2 < events s
  /-- A signal that ended the waiting for a process is used up. -/
  waitProcess_events : ∀ p s, (waitProcess p s).1 = .interrupted → events (waitProcess p s).2 < events s
  /-- A change that was seen is used up. -/
  poll_events : ∀ g s, (poll g s).1.isSome → events (poll g s).2 < events s

/-- The operations of a system with a terminal or a file to read commands from. -/
class Console (σ : Type) extends Kernel σ where
  /-- The standard input is a terminal. -/
  isTerminal : σ → Bool
  /-- The next bytes of the standard input, at most as many as asked for; none at its end. -/
  readInput : Nat → σ → Bytes × σ
  /-- Waits until the user begins to type. -/
  awaitTyping : σ → σ
  /-- What is typed at the terminal. -/
  typed : σ → Keystrokes
  setTyped : Keystrokes → σ → σ
  /-- A bound for the number of bytes that can still be read. -/
  inputLeft : σ → Nat
  /-- Messages from a level on go to the end of a file. -/
  openLog : LogLevel → Text → σ → Except SystemError σ
  /-- Seconds of the clock. -/
  now : σ → Nat

end JobShell

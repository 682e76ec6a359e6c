import JobShell.Job.Basic
import JobShell.System.Errno
import JobShell.Text.Bindings
import JobShell.Text.Raw

/-!
# Programs

A program asks something of the machine, goes on as the answer tells it, and
exits in the end. It sees nothing else of the machine, and may be held up for
any time between a question and its answer.

Programs are written as actions: an action is a part of a program that yields a
value, given the rest of the program as a function of that value.
-/
namespace JobShell

/-- How a file is opened. -/
inductive Access where
  | read
  /-- For writing; it is made when it is missing, and loses its content. -/
  | write
  /-- For writing at its end; it is made when it is missing. -/
  | append
  /-- For reading and writing; it is made when it is missing. -/
  | update
  /-- For writing; it must be there. -/
  | overwrite
  deriving DecidableEq, Repr

/-- The types of files. -/
inductive FileType where
  | regular
  | directory
  | device
  | pipe
  | link
  deriving DecidableEq, Repr

/-- What can be told of a file without opening it. -/
structure FileStatus where
  type : FileType
  runnable : Bool
  size : Nat
  /-- What no other file has. -/
  identity : List Raw
  deriving DecidableEq, Repr

/-- What can be told of an open file. -/
structure OpenStatus where
  file : FileStatus
  /-- Where it is read or written next, if it has positions. -/
  position : Option Nat
  /-- All writing goes to its end. -/
  append : Bool
  deriving Repr

/-- What a process does when a signal comes. -/
inductive Disposition where
  /-- What the signal is for. -/
  | standard
  | ignored
  /-- It is told of the signal. -/
  | caught
  deriving DecidableEq, Repr

/-- What waiting for a child ends with. -/
inductive ChildReport where
  | changed (pid : Pid) (status : WaitStatus)
  /-- Nothing has changed, and the program does not want to wait. -/
  | unchanged
  | noChild
  /-- A signal was caught. -/
  | interrupted
  deriving DecidableEq, Repr

/-- What a program asks of the machine. -/
inductive Call where
  /-- The next bytes, no more than `limit`; none at the end. -/
  | read (fd limit : Nat)
  /-- Writes all of the bytes. -/
  | write (fd : Nat) (b : Bytes)
  /-- Opens a file with the least descriptor that is free. -/
  | openFile (access : Access) (path : Raw)
  | close (fd : Nat)
  /-- Copies a descriptor to the least one that is free, not below `least`. -/
  | copy (fd least : Nat)
  /-- Makes a descriptor a copy of another one. -/
  | bind (source fd : Nat)
  /-- A pipe: a descriptor to read from it, and one to write into it. -/
  | pipe
  /-- Moves to a position. -/
  | seek (fd position : Nat)
  | statusOf (fd : Nat)
  /-- The status of what a path leads to; of a link itself when links are not followed. -/
  | look (follow : Bool) (path : Raw)
  | namesIn (path : Raw)
  | enter (path : Raw)
  /-- The path of the current directory. -/
  | directory
  /-- Waits for a child, any when none is named. -/
  | wait (child : Option Pid) (patient : Bool)
  | signal (target : Pid) (signo : Int)
  /-- Sets what happens when a signal comes, and tells what would have happened. -/
  | arrange (signo : Nat) (d : Disposition)
  /-- The caught signals that came, the earliest first. -/
  | caught
  | pause (microseconds : Nat)
  /-- The numbers of the process, of its parent and of its group. -/
  | identity
  /-- The home directory of a user. -/
  | home (user : Raw)
  deriving Repr

/-- What the machine answers. -/
abbrev Call.Answer : Call → Type
  | .read _ _ => Except Errno Bytes
  | .write _ _ => Except Errno Unit
  | .openFile _ _ => Except Errno Nat
  | .close _ => Except Errno Unit
  | .copy _ _ => Except Errno Nat
  | .bind _ _ => Except Errno Unit
  | .pipe => Nat × Nat
  | .seek _ _ => Except Errno Unit
  | .statusOf _ => Except Errno OpenStatus
  | .look _ _ => Except Errno FileStatus
  | .namesIn _ => Except Errno (List Raw)
  | .enter _ => Except Errno Unit
  | .directory => Raw
  | .wait _ _ => ChildReport
  | .signal _ _ => Option Errno
  | .arrange _ _ => Disposition
  | .caught => List Nat
  | .pause _ => Unit
  | .identity => Pid × Pid × Pid
  | .home _ => Option Raw

/-- What a process does. -/
inductive Program where
  | exit (code : Nat)
  | ask (c : Call) (next : c.Answer → Program)
  /-- Starts a copy of the process that does something else. -/
  | fork (child : Program) (next : Pid → Program)
  /-- Puts another program in its place; it goes on only if that fails. -/
  | execute (path : Raw) (args : List Raw) (environment : Bindings) (next : Errno → Program)

/-- A part of a program that yields a value. -/
def Action (α : Type) : Type := (α → Program) → Program

namespace Action

instance : Monad Action where
  pure a := fun rest => rest a
  bind x f := fun rest => x (fun a => f a rest)

/-- Ends the program. -/
def exit {α : Type} (code : Nat) : Action α := fun _ => .exit code

/-- Asks something of the machine. -/
def ask (c : Call) : Action c.Answer := fun rest => .ask c rest

/-- Starts a copy of the process that does something else. -/
def fork (child : Program) : Action Pid := fun rest => .fork child rest

/-- Puts another program in the place of this one. -/
def execute (path : Raw) (args : List Raw) (environment : Bindings) : Action Errno :=
  fun rest => .execute path args environment rest

/-- The program that an action amounts to when its value is the status that it exits with. -/
def toProgram (a : Action Nat) : Program := a .exit

/-- How often a program does again what it does until its input or its work ends. -/
def rounds : Nat := 1000000000

end Action
end JobShell

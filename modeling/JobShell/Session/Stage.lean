import JobShell.Session.Builtin
import JobShell.Session.Lookup

/-!
# Stages of a pipeline

A stage is a command whose words are expanded, whose file is known and whose
redirections are open. The stages of a pipeline are started from left to right,
each with its ends of the pipes; a redirection takes the place of a pipe.
-/
namespace JobShell

/-- A change of descriptors with its words expanded. -/
inductive Redirection where
  | file (mode : FileMode) (path : Text)
  | duplicate (descriptor source : Int)
  deriving DecidableEq, Repr

/-- A command with its words expanded. -/
structure Invocation where
  args : List Text
  redirects : List Redirection
  deriving DecidableEq, Repr

namespace Invocation

/-- The name of the command. -/
def name (i : Invocation) : Text := i.args.head?.getD []

/-- Whether a descriptor is duplicated. -/
def duplicates (i : Invocation) : Bool := i.redirects.any fun
  | .duplicate _ _ => true
  | .file _ _ => false

end Invocation

/-- How the descriptors of a new process are bound. -/
structure Wiring where
  input : Option Handle
  output : Option Handle
  errors : Option Handle
  /-- Descriptors with the descriptors that they become duplicates of, in order, after the others are bound. -/
  duplicates : List (Int × Int)
  deriving DecidableEq, Repr

namespace Wiring

/-- A wiring that leaves all descriptors as they are. -/
def inherited : Wiring := ⟨none,none,none,[]⟩

/-- The handle that a redirection of a mode replaces. -/
def bound (w : Wiring) : FileMode → Option Handle
  | .input => w.input
  | .error => w.errors
  | .output | .append => w.output

/-- The wiring with an open file for a redirection. -/
def bind (w : Wiring) (h : Handle) : FileMode → Wiring
  | .input => { w with input := some h }
  | .error => { w with errors := some h }
  | .output | .append => { w with output := some h }

/-- The handles of a wiring. -/
def handles (w : Wiring) : List Handle := w.input.toList ++ w.output.toList ++ w.errors.toList

/-- The wiring with the ends of pipes where nothing else is bound. -/
def between (w : Wiring) (input output : Option Handle) : Wiring :=
  { w with input := w.input.or input, output := w.output.or output }

/-- What a new process binds anew: the handles one after another, and only then the duplicates. -/
def rebindings (w : Wiring) : List Rebinding :=
  w.input.toList.map (fun h => ⟨0,.handle h⟩) ++ w.output.toList.map (fun h => ⟨1,.handle h⟩) ++
    w.errors.toList.map (fun h => ⟨2,.handle h⟩) ++ w.duplicates.map (fun d => ⟨d.1,.descriptor d.2⟩)

end Wiring

/-- A command that can be started. -/
structure Stage where
  args : List Text
  /-- The file to run; none for a built-in command. -/
  program : Option Text
  wiring : Wiring
  deriving DecidableEq, Repr

section
variable {σ : Type} [Kernel σ]

namespace Act

/-- Closes handles. -/
def closeAll (handles : List Handle) : Act σ Unit :=
  modifySystem (fun s => handles.foldl (fun s h => Kernel.close h s) s)

/-- Opens the files of redirections, from left to right. The last one for a descriptor counts, but all
    are opened. When one cannot be, all are closed again. -/
def openRedirects : List Redirection → Wiring → Act σ (Except CommandError Wiring)
  | [], w => return .ok w
  | .duplicate d source :: r, w => openRedirects r { w with duplicates := w.duplicates ++ [(d,source)] }
  | .file mode path :: r, w => do
    match ← attempt (Kernel.openFile mode path) with
    | .ok h =>
      closeAll (w.bound mode).toList
      openRedirects r (w.bind h mode)
    | .error e =>
      closeAll w.handles
      return .error (if mode = .input && e = .os Errno.noEntry then .noFile path else .notOpened path e)

/-- The files that commands run. -/
def lookUpAll : List Invocation → Act σ (Except CommandError (List (Option Text)))
  | [] => return .ok []
  | i :: r => do
    if isBuiltin i.name then return (← lookUpAll r).map (none :: ·)
    else match Lookup.command (← system) i.name with
      | .error e => return .error e
      | .ok file => return (← lookUpAll r).map (some file :: ·)

/-- Opens the redirections of commands. -/
def openAll : List Invocation → Act σ (Except CommandError (List Wiring))
  | [] => return .ok []
  | i :: r => do
    match ← openRedirects i.redirects .inherited with
    | .error e => return .error e
    | .ok w =>
      match ← openAll r with
      | .error e =>
        closeAll w.handles
        return .error e
      | .ok ws => return .ok (w :: ws)

/-- Makes commands ready to be started. All files to run are found before any file is opened. -/
def prepare (commands : List Invocation) : Act σ (Except CommandError (List Stage)) := do
  match ← lookUpAll commands with
  | .error e => return .error e
  | .ok files =>
    match ← openAll commands with
    | .error e => return .error e
    | .ok wirings =>
      return .ok ((commands.zip (files.zip wirings)).map fun (c,file,w) => ⟨c.args,file,w⟩)

/-- As many pipes as asked for. -/
def openPipes : Nat → Act σ (Except Errno (List (Handle × Handle)))
  | 0 => return .ok []
  | n+1 => do
    match ← attempt Kernel.pipe with
    | .error e => return .error e
    | .ok p =>
      match ← openPipes n with
      | .error e =>
        closeAll [p.1,p.2]
        return .error e
      | .ok ps => return .ok (p :: ps)

/-- The status of a process that broke down. -/
def crashStatus : Int := 101

/-- What a copy of the shell does. The shell itself does not change, and the copy has no terminal. -/
def inCopy (a : Act σ Int) : Act σ Int := fun s =>
  match a { s with shell := { s.shell with interactive := false } } with
  | (.ok status,after) => (.ok status,⟨s.shell,after.system⟩)
  | (.error _,after) => (.ok crashStatus,⟨s.shell,after.system⟩)

/-- Starts a program in a process of its own. No argument can hold the character that ends arguments. -/
def startProgram (program : Text) (args : List Text) (group : Pid) (w : Wiring) :
    Act σ (Except CommandError Pid) := do
  let name := args.head?.getD []
  if (program :: args).any (·.contains '\x00') then return .error (.notStarted Errno.invalid name)
  else match ← operate (Kernel.spawn ⟨program,args,group,w.rebindings⟩) with
    | .error e => return .error (.notStarted e name)
    | .ok pid =>
      log .debug (txt "started " ++ program ++ txt " as process " ++ Numeral.ofInt pid)
      return .ok pid

/-- Runs a built-in command in a copy of the shell. -/
def startBuiltin (args : List Text) (group : Pid) (w : Wiring) : Act σ (Except CommandError Pid) := do
  match ← operate (Kernel.fork group w.rebindings) with
  | .error e => return .error (.notStarted e (args.head?.getD []))
  | .ok pid =>
    let status ← inCopy (do return (← Builtin.run? .standard args).getD 127)
    modifySystem (Kernel.endFork status)
    log .debug (txt "copied for " ++ args.head?.getD [] ++ txt " as process " ++ Numeral.ofInt pid)
    return .ok pid

/-- Starts a stage. -/
def startStage (stage : Stage) (group : Pid) (w : Wiring) : Act σ (Except CommandError Pid) :=
  match stage.program with
  | some program => startProgram program stage.args group w
  | none => startBuiltin stage.args group w

/-- Starts stages from left to right in one group, whose number is that of its first process. `input` is
    the end of the pipe from the stage before. What a stage was given is closed after its start. The result
    also tells which processes were started, in the case of a failure as well. -/
def startStages (group : Pid) (pids : List Pid) (input : Option Handle) (pipes : List (Handle × Handle)) :
    List Stage → Act σ (Option CommandError × Pid × List Pid)
  | [] => return (none,group,pids)
  | stage :: r => do
    let output := pipes.head?.map Prod.snd
    let next := pipes.head?.map Prod.fst
    let started ← startStage stage group (stage.wiring.between input output)
    closeAll (stage.wiring.handles ++ input.toList ++ output.toList)
    match started with
    | .ok pid => startStages (if group = 0 then pid else group) (pids ++ [pid]) next pipes.tail r
    | .error e =>
      closeAll (next.toList ++ pipes.tail.flatMap (fun p => [p.1,p.2]) ++ r.flatMap (·.wiring.handles))
      return (some e,group,pids)

/-- The number of the signal that asks a process to end. -/
def terminateSignal : Nat := 15

/-- Ends the processes of a pipeline that could not be started as a whole. -/
def abandon (group : Pid) (pids : List Pid) : Act σ Unit := do
  if group > 0 then
    match ← operate (Kernel.signalGroup group terminateSignal) with
    | none => pure ()
    | some e => log .debug (txt "not ended: " ++ undelivered group e)
  for pid in pids do
    let _ ← operate (awaitEnd pid)

end Act
end
end JobShell

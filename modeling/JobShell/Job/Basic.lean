import JobShell.Job.Status

/-!
# Jobs

A job is a pipeline that was started: one process group with a process for each
command. Its state follows from its processes. As long as one is stopped the job
is stopped; once all have ended it is done, with the status of the last command.
-/
namespace JobShell

/-- A number of a process or of a process group. -/
abbrev Pid := Int

/-- What a shell knows of a process that it started. -/
structure JobProcess where
  pid : Pid
  group : Pid
  completed : Bool
  stopped : Bool
  /-- The last report of an end, zero before. -/
  status : WaitStatus
  deriving DecidableEq, Repr

/-- The state of a job. -/
inductive JobState where
  | running
  | stopped
  /-- All processes have ended; the status is that of the last command. -/
  | done (status : Int)
  deriving DecidableEq, Repr

/-- The word for a state in a listing. -/
def JobState.label : JobState → Text
  | .running => txt "Running"
  | .stopped => txt "Stopped"
  | .done _ => txt "Done"

/-- A pipeline that was started. -/
structure Job where
  /-- The number in the table, zero outside of it. -/
  id : Nat
  group : Pid
  /-- The command line as it is shown. -/
  command : Text
  processes : List JobProcess
  /-- The user was told that the job is done. -/
  notified : Bool
  deriving DecidableEq, Repr

/-- A process after a report on it. -/
def JobProcess.report (p : JobProcess) (raw : WaitStatus) : JobProcess :=
  if WaitStatus.isStopped raw then { p with stopped := true }
  else if WaitStatus.isContinued raw then { p with stopped := false }
  else { p with status := raw, completed := true, stopped := false }

namespace Job

/-- A job that has just been started. -/
def start (group : Pid) (command : Text) (pids : List Pid) : Job where
  id := 0
  group := group
  command := command
  processes := pids.map (fun pid => ⟨pid,group,false,false,0⟩)
  notified := false

/-- The state of a job. -/
def state (j : Job) : JobState :=
  if j.processes.any (·.stopped) then .stopped
  else if j.processes.all (·.completed) then
    .done ((j.processes.getLast?.map (fun p => WaitStatus.exitCode p.status)).getD 0)
  else .running

/-- Whether all processes have ended. -/
def isDone (j : Job) : Bool :=
  match j.state with
  | .done _ => true
  | _ => false

/-- Whether a process of the job has the number. -/
def hasPid (j : Job) (pid : Pid) : Bool := j.processes.any (·.pid == pid)

/-- The processes after a report on the first one with the number. -/
def markProcess (pid : Pid) (raw : WaitStatus) : List JobProcess → List JobProcess
  | [] => []
  | p :: r => if p.pid == pid then p.report raw :: r else p :: markProcess pid raw r

/-- The job after a report on a process. -/
def mark (j : Job) (pid : Pid) (raw : WaitStatus) : Job :=
  { j with processes := markProcess pid raw j.processes }

/-- The job with every process that has not ended stopped. -/
def markStopped (j : Job) : Job :=
  { j with processes := j.processes.map (fun p => if p.completed then p else { p with stopped := true }) }

/-- The job with no process stopped. -/
def markRunning (j : Job) : Job :=
  { j with processes := j.processes.map (fun p => { p with stopped := false }) }

/-- The job when there is nothing left to wait for: what has not ended counts as ended. -/
def markVanished (j : Job) : Job :=
  { j with processes :=
      j.processes.map (fun p => if p.completed then p else { p with completed := true, stopped := false }) }

end Job

/-- What the table of jobs refuses. -/
inductive JobError where
  | noSuchJob (name : Text)
  | alreadyRunning (id : Nat)
  | terminated (id : Nat)
  | noCurrentJob
  deriving DecidableEq, Repr

/-- What a refused request is answered with. -/
def JobError.message : JobError → Text
  | .noSuchJob name => name ++ txt ": no such job"
  | .alreadyRunning id => txt "job " ++ Numeral.ofNat id ++ txt " already in background"
  | .terminated id => txt "job " ++ Numeral.ofNat id ++ txt " has terminated"
  | .noCurrentJob => txt "current: no such job"

end JobShell

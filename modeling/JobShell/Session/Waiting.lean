import JobShell.Session.State

/-!
# Waiting for jobs

A shell waits for a job in the foreground until all of its processes have ended
or one is stopped. Changes of other jobs are collected without waiting.
-/
namespace JobShell

/-- The status of a command whose job was stopped. -/
def stoppedStatus : Int := 148

section
variable {σ : Type} [Kernel σ]

namespace Job

/-- A message of the log about a change of a process. -/
def changeMessage (j : Job) (pid : Pid) (raw : WaitStatus) : Text :=
  txt "job " ++ Numeral.ofNat j.id ++ txt " pid " ++ Numeral.ofInt pid ++ txt " -> " ++ j.state.label ++
    txt " (raw " ++ Numeral.ofInt raw ++ [')']

/-- The job after a change of a process, which is put into the log. -/
def note (j : Job) (pid : Pid) (raw : WaitStatus) (s : σ) : Job × σ :=
  let after := j.mark pid raw
  (after,if j.hasPid pid then Kernel.log .debug (after.changeMessage pid raw) s else s)

theorem note_events (j : Job) (pid : Pid) (raw : WaitStatus) (s : σ) :
    Kernel.events (j.note pid raw s).2 = Kernel.events s := by
  unfold note
  dsimp only
  split
  · exact Kernel.log_events _ _ s
  · rfl

/-- The verdict on a job that is waited for: its status, and whether it is stopped. -/
def verdict? (j : Job) : Option (Int × Bool) :=
  match j.state with
  | .done status => some (status,false)
  | .stopped => some (stoppedStatus,true)
  | .running => none

/-- Waits until all processes of a job have ended or one is stopped. When there is nothing left to
    wait for, what has not ended counts as ended. -/
def await (j : Job) (s : σ) : (Int × Bool) × Job × σ :=
  match j.verdict? with
  | some v => (v,j,s)
  | none =>
    match h : Kernel.waitGroup j.group s with
    | (.changed pid raw,s') =>
      have : Kernel.events (j.note pid raw s').2 < Kernel.events s := by
        rw [note_events]
        have := Kernel.waitGroup_events j.group s
        rw [h] at this
        exact this (by simp)
      (j.note pid raw s').1.await (j.note pid raw s').2
    | (.interrupted,s') =>
      have : Kernel.events s' < Kernel.events s := by
        have := Kernel.waitGroup_events j.group s
        rw [h] at this
        exact this (by simp)
      j.await s'
    | (.noChild,s') => ((j.markVanished.verdict?).getD (stoppedStatus,true),j.markVanished,s')
  termination_by Kernel.events s

end Job

/-- Waits for the end of a process, again when a signal comes to the shell in the meantime. -/
def awaitEnd (pid : Pid) (s : σ) : Option WaitStatus × σ :=
  match h : Kernel.waitProcess pid s with
  | (.changed _ raw,s') => (some raw,s')
  | (.interrupted,s') =>
    have : Kernel.events s' < Kernel.events s := by
      have := Kernel.waitProcess_events pid s
      rw [h] at this
      exact this rfl
    awaitEnd pid s'
  | (.noChild,s') => (none,s')
  termination_by Kernel.events s

namespace JobTable

/-- The table after a change of a process, which is put into the log. -/
def note (pid : Pid) (raw : WaitStatus) (t : JobTable) (s : σ) : JobTable × σ :=
  match t with
  | [] => ([],s)
  | j :: r =>
    if j.hasPid pid then ((j.note pid raw s).1 :: r,(j.note pid raw s).2)
    else (j :: (note pid raw r s).1,(note pid raw r s).2)

theorem note_events (pid : Pid) (raw : WaitStatus) (t : JobTable) (s : σ) :
    Kernel.events (note pid raw t s).2 = Kernel.events s := by
  induction t with
  | nil => rfl
  | cons j r ih =>
    unfold note
    split
    · exact Job.note_events j pid raw s
    · exact ih

/-- Collects the changes of the processes of a group. -/
def collectGroup (group : Pid) (t : JobTable) (s : σ) : JobTable × σ :=
  match h : Kernel.poll group s with
  | (none,s') => (t,s')
  | (some (pid,raw),s') =>
    have : Kernel.events (note pid raw t s').2 < Kernel.events s := by
      rw [note_events]
      have := Kernel.poll_events group s
      rw [h] at this
      exact this rfl
    collectGroup group (note pid raw t s').1 (note pid raw t s').2
  termination_by Kernel.events s

/-- Collects the changes of the processes of several groups. -/
def collectGroups : List Pid → JobTable → σ → JobTable × σ
  | [], t, s => (t,s)
  | g :: r, t, s => collectGroups r (collectGroup g t s).1 (collectGroup g t s).2

/-- Collects the changes of the processes of all jobs that are not done. -/
def collect (t : JobTable) (s : σ) : JobTable × σ := collectGroups t.liveGroups t s

end JobTable

namespace Act

/-- Collects what has happened to the jobs. -/
def collectJobs : Act σ Unit := do
  let jobs := (← shell).jobs
  let jobs ← operate (fun s => jobs.collect s)
  modifyShell (fun s => { s with jobs := jobs })

/-- Waits for a job in the foreground; interrupts and the terminal are its own meanwhile. A job that
    is stopped is stopped as a whole. -/
def awaitForeground (j : Job) : Act σ ((Int × Bool) × Job) := do
  let interactive := (← shell).interactive
  operate fun s =>
    let before := Kernel.foreground s
    let s := Kernel.setForeground j.group s
    let s := if interactive then Kernel.giveTerminal j.group s else s
    let (v,j,s) := j.await s
    let s := if interactive then Kernel.giveTerminal 0 s else s
    let s := Kernel.setForeground before s
    ((v,if v.2 then j.markStopped else j),s)

/-- Adds a job to the table. -/
def adopt (j : Job) : Act σ Nat := do
  let (jobs,id) := (← shell).jobs.adopt j
  modifyShell (fun s => { s with jobs := jobs })
  log .info (txt "job [" ++ Numeral.ofNat id ++ txt "] pgid " ++ Numeral.ofInt j.group ++ txt " added: " ++ j.command)
  return id

/-- What is said of a signal that does not reach a group. -/
def undelivered (group : Pid) (e : Errno) : Text :=
  txt "process group " ++ Numeral.ofInt group ++ txt ": " ++ e.report

/-- The number of the signal that lets a stopped process go on. -/
def continueSignal : Nat := 18

/-- Lets the processes of a group go on. -/
def continueGroup (group : Pid) : Act σ Unit := do
  match ← operate (Kernel.signalGroup group continueSignal) with
  | none => pure ()
  | some e => log .debug (txt "not continued: " ++ undelivered group e)

end Act
end
end JobShell

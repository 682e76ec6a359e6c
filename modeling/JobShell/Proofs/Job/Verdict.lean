import JobShell.Session.Waiting
import Mathlib.Tactic.SplitIfs

/-!
# A job that is waited for

A job follows the answers to what is waited for. These never change which
processes it has. Waiting comes to an end with a verdict: all processes have
ended, or one is stopped, and then the job is stopped as a whole.
-/
namespace JobShell
namespace Job

/-- A job after answers to what was waited for. -/
def follow (j : Job) : List Waited → Job
  | [] => j
  | .changed pid raw :: r => (j.mark pid raw).follow r
  | .interrupted :: r => j.follow r
  | .noChild :: r => j.markVanished.follow r

/-! ### The processes -/

/-- The numbers of the processes of a job. -/
def pids (j : Job) : List Pid := j.processes.map (·.pid)

theorem pids_start (group : Pid) (command : Text) (l : List Pid) : (start group command l).pids = l := by
  rw [pids,start,List.map_map]
  exact List.map_id l

theorem pids_mark (j : Job) (pid : Pid) (raw : WaitStatus) : (j.mark pid raw).pids = j.pids := by
  have report : ∀ p : JobProcess, (p.report raw).pid = p.pid := by
    intro p
    unfold JobProcess.report
    split
    · rfl
    · split <;> rfl
  have all : ∀ l, (markProcess pid raw l).map (·.pid) = l.map (·.pid) := by
    intro l
    induction l with
    | nil => rfl
    | cons p r ih =>
      rw [markProcess]
      split
      · rw [List.map_cons,List.map_cons,report]
      · rw [List.map_cons,List.map_cons,ih]
  exact all j.processes

theorem pids_markVanished (j : Job) : j.markVanished.pids = j.pids := by
  simp only [pids,markVanished,List.map_map]
  apply List.map_congr_left
  intro p _
  simp only [Function.comp_apply]
  split <;> rfl

theorem pids_markStopped (j : Job) : j.markStopped.pids = j.pids := by
  simp only [pids,markStopped,List.map_map]
  apply List.map_congr_left
  intro p _
  simp only [Function.comp_apply]
  split <;> rfl

theorem pids_markRunning (j : Job) : j.markRunning.pids = j.pids := by
  simp only [pids,markRunning,List.map_map,Function.comp_def]

theorem pids_follow (j : Job) (l : List Waited) : (j.follow l).pids = j.pids := by
  induction l generalizing j with
  | nil => rfl
  | cons answer r ih =>
    cases answer with
    | changed pid raw => exact (ih _).trans (pids_mark j pid raw)
    | interrupted => exact ih j
    | noChild => exact (ih _).trans (pids_markVanished j)

/-! ### The verdict -/

theorem verdict?_eq (j : Job) : j.verdict? =
    if j.processes.any (·.stopped) then some (stoppedStatus,true)
    else if j.processes.all (·.completed) then
      some ((j.processes.getLast?.map (fun p => WaitStatus.exitCode p.status)).getD 0,false)
    else none := by
  rw [verdict?,state]
  by_cases stopped : j.processes.any (·.stopped) = true
  · simp only [if_pos stopped]
  · by_cases ended : j.processes.all (·.completed) = true
    · simp only [if_neg stopped,if_pos ended]
    · simp only [if_neg stopped,if_neg ended]

/-- A job without a verdict on it has ended when its processes are gone. -/
theorem verdict?_markVanished {j : Job} (running : j.verdict? = none) :
    ∃ status, j.markVanished.verdict? = some (status,false) := by
  have unstopped : ¬j.markVanished.processes.any (·.stopped) = true := by
    rw [List.any_eq_true]
    rintro ⟨q,mem,stopped⟩
    obtain ⟨p,inside,rfl⟩ := List.mem_map.mp mem
    by_cases ended : p.completed = true
    · rw [if_pos ended] at stopped
      rw [verdict?_eq,if_pos (List.any_eq_true.mpr ⟨p,inside,stopped⟩)] at running
      cases running
    · simp [ended] at stopped
  have ended : j.markVanished.processes.all (·.completed) = true := by
    rw [List.all_eq_true]
    intro q mem
    obtain ⟨p,inside,rfl⟩ := List.mem_map.mp mem
    by_cases ended : p.completed = true
    · rw [if_pos ended]
      exact ended
    · rw [if_neg ended]
  rw [verdict?_eq,if_neg unstopped,if_pos ended]
  exact ⟨_,rfl⟩

/-- A job that has ended has only processes that have ended. -/
theorem completed_of_verdict {j : Job} {status : Int} (verdict : j.verdict? = some (status,false)) :
    ∀ p ∈ j.processes, p.completed = true := by
  rw [verdict?_eq] at verdict
  by_cases stopped : j.processes.any (·.stopped) = true
  · rw [if_pos stopped] at verdict
    cases verdict
  · by_cases ended : j.processes.all (·.completed) = true
    · exact List.all_eq_true.mp ended
    · rw [if_neg stopped,if_neg ended] at verdict
      cases verdict

/-- The status of a job that has ended is that of its last process. -/
theorem status_of_verdict {j : Job} {status : Int} (verdict : j.verdict? = some (status,false)) :
    status = (j.processes.getLast?.map fun p => WaitStatus.exitCode p.status).getD 0 := by
  rw [verdict?_eq] at verdict
  split_ifs at verdict
  · cases verdict
  · exact (congrArg Prod.fst (Option.some.inj verdict)).symm

theorem state_of_verdict {j : Job} {status : Int} (verdict : j.verdict? = some (status,false)) : j.state = .done status := by
  rw [verdict?] at verdict
  split at verdict
  · next status' state =>
    cases verdict
    exact state
  · cases verdict
  · cases verdict

theorem stopped_of_verdict {j : Job} {status : Int} (verdict : j.verdict? = some (status,true)) :
    j.state = .stopped ∧ status = stoppedStatus := by
  rw [verdict?] at verdict
  split at verdict
  · cases verdict
  · next state =>
    cases verdict
    exact ⟨state,rfl⟩
  · cases verdict

/-- A job with a process that was stopped is stopped as a whole. -/
theorem state_markStopped {j : Job} {status : Int} (verdict : j.verdict? = some (status,true)) :
    j.markStopped.state = .stopped := by
  rw [verdict?_eq] at verdict
  by_cases stopped : j.processes.any (·.stopped) = true
  · obtain ⟨p,mem,this⟩ := List.any_eq_true.mp stopped
    have still : j.markStopped.processes.any (·.stopped) = true := by
      rw [List.any_eq_true]
      refine ⟨_,List.mem_map_of_mem mem,?_⟩
      split
      · exact this
      · rfl
    rw [state,if_pos still]
  · rw [if_neg stopped] at verdict
    by_cases ended : j.processes.all (·.completed) = true
    · rw [if_pos ended] at verdict
      cases verdict
    · rw [if_neg ended] at verdict
      cases verdict

end Job
end JobShell

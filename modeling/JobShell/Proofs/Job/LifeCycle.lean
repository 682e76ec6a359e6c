import JobShell.Proofs.Job.Foreground

/-!
# The life of a job

A job is begun, and then reports come on its processes, and it is stopped and let
go on as a whole, in any order. No report comes on a process that has ended. What
is known of each process follows from these events (`JobProcess.Lives`), and a
process that has ended is never changed again. So a job that is stopped can always
be let go on, and one that is done stays so with its status (`Job.life_cycle`).
-/
namespace JobShell

/-- The report is on the end of a process. -/
def WaitStatus.Ends (raw : WaitStatus) : Prop := isStopped raw = false ∧ isContinued raw = false

instance (raw : WaitStatus) : Decidable raw.Ends := inferInstanceAs (Decidable (_ ∧ _))

namespace Job

/-- What happens to a job. -/
inductive Event where
  /-- A report comes on a process. -/
  | reported (pid : Pid) (raw : WaitStatus)
  /-- The job is stopped as a whole. -/
  | halted
  /-- The job is let go on. -/
  | resumed
  deriving DecidableEq, Repr

namespace Event

/-- The job after an event. -/
def apply (j : Job) : Event → Job
  | reported pid raw => j.mark pid raw
  | halted => j.markStopped
  | resumed => j.markRunning

/-- No report comes on a process that has ended. -/
def Allowed (j : Job) : Event → Prop
  | reported pid _ => ∀ p ∈ j.processes, p.pid = pid → p.completed = false
  | halted | resumed => True

instance (j : Job) : (e : Event) → Decidable (e.Allowed j)
  | reported pid _ => inferInstanceAs (Decidable (∀ p ∈ j.processes, p.pid = pid → p.completed = false))
  | halted | resumed => isTrue trivial

/-- A process after an event. -/
def change : Event → JobProcess → JobProcess
  | reported pid raw, p => if p.pid = pid then p.report raw else p
  | halted, p => if p.completed then p else { p with stopped := true }
  | resumed, p => { p with stopped := false }

end Event

/-- The job after events. -/
def live (j : Job) (events : List Event) : Job := events.foldl Event.apply j

/-- No report among the events comes on a process that has ended before. -/
def Admits (j : Job) : List Event → Prop
  | [] => True
  | e :: later => e.Allowed j ∧ (e.apply j).Admits later

instance decidableAdmits : (j : Job) → (events : List Event) → Decidable (j.Admits events)
  | _, [] => isTrue trivial
  | j, e :: later =>
    have := decidableAdmits (e.apply j) later
    inferInstanceAs (Decidable (_ ∧ _))

end Job

open Job (Event)

/-! ### The life of a process -/

namespace JobProcess

/-- What is known of a process agrees with the events: it is not stopped when it has ended, and it has ended with a status
    exactly when this was reported. -/
structure Lives (events : List Event) (p : JobProcess) : Prop where
  unstopped : p.completed = true → p.stopped = false
  ended : ∀ raw, (p.completed = true ∧ p.status = raw) ↔ raw.Ends ∧ .reported p.pid raw ∈ events

theorem pid_report (p : JobProcess) (raw : WaitStatus) : (p.report raw).pid = p.pid := by
  rw [report]
  split_ifs <;> rfl

theorem report_ends (p : JobProcess) {raw : WaitStatus} (ends : raw.Ends) :
    p.report raw = { p with status := raw, completed := true, stopped := false } := by
  rw [report,if_neg (by simp [ends.1]),if_neg (by simp [ends.2])]

/-- A report that is not on an end changes at most whether the process is stopped. -/
theorem report_of_not_ends (p : JobProcess) {raw : WaitStatus} (goes : ¬raw.Ends) :
    ∃ stopped, p.report raw = { p with stopped := stopped } := by
  rw [report]
  split_ifs with stops continues
  · exact ⟨true,rfl⟩
  · exact ⟨false,rfl⟩
  · exact absurd ⟨by simpa using stops,by simpa using continues⟩ goes

theorem pid_change (e : Event) (p : JobProcess) : (e.change p).pid = p.pid := by
  cases e with
  | reported pid raw =>
    rw [Event.change]
    split_ifs
    · exact p.pid_report raw
    · rfl
  | halted =>
    rw [Event.change]
    split_ifs <;> rfl
  | resumed => rfl

variable {events : List Event} {p : JobProcess}

/-- A process that has ended is not changed by an event that is not a report on it. -/
theorem Lives.change_of_completed (lives : p.Lives events) (completed : p.completed = true) {e : Event}
    (other : ∀ raw, e ≠ .reported p.pid raw) : e.change p = p := by
  cases e with
  | reported pid raw => exact if_neg fun same => other raw (by rw [same])
  | halted => exact if_pos completed
  | resumed => rw [Event.change,← lives.unstopped completed]

/-- An event that is no report on the end of the process leaves it with the end that it had. -/
theorem Lives.more (lives : p.Lives events) {e : Event} (other : ∀ raw, raw.Ends → e ≠ .reported p.pid raw) {stopped : Bool}
    (apart : p.completed = true → stopped = false) : { p with stopped := stopped }.Lives (events ++ [e]) := by
  refine ⟨apart,fun raw => (lives.ended raw).trans ?_⟩
  refine and_congr_right fun ends => ?_
  simp [Ne.symm (other raw ends)]

/-- One event. -/
theorem Lives.change (lives : p.Lives events) {e : Event} (allowed : ∀ raw, e = .reported p.pid raw → p.completed = false) :
    (e.change p).Lives (events ++ [e]) := by
  cases e with
  | reported pid raw =>
    rw [Event.change]
    split_ifs with mine
    · subst mine
      have going := allowed raw rfl
      by_cases ends : raw.Ends
      · rw [p.report_ends ends]
        refine ⟨fun _ => rfl,fun status => ?_⟩
        -- There was no end before, so this report is on the only one.
        have first : ¬(status.Ends ∧ .reported p.pid status ∈ events) := by
          rw [← lives.ended status,going]
          simp
        constructor
        · rintro ⟨-,rfl⟩
          exact ⟨ends,by simp⟩
        · rintro ⟨ends',mem⟩
          rcases List.mem_append.mp mem with before | now
          · exact absurd ⟨ends',before⟩ first
          · cases List.mem_singleton.mp now
            exact ⟨rfl,rfl⟩
      · obtain ⟨stopped,same⟩ := p.report_of_not_ends ends
        rw [same]
        refine lives.more (fun status ends' equal => ?_) fun completed => ?_
        · cases equal
          exact ends ends'
        · rw [going] at completed
          cases completed
    · exact lives.more (fun _ _ equal => mine (by cases equal; rfl)) lives.unstopped
  | halted =>
    rw [Event.change]
    split_ifs with completed
    · exact lives.more (fun _ _ equal => by cases equal) lives.unstopped
    · exact lives.more (fun _ _ equal => by cases equal) fun contra => absurd contra completed
  | resumed => exact lives.more (fun _ _ equal => by cases equal) fun _ => rfl

end JobProcess

namespace Job

/-! ### The life of all processes -/

variable {j : Job} {before : List Event}

/-- An event changes the processes, each by itself. -/
theorem processes_apply (distinct : j.pids.Nodup) (e : Event) : (e.apply j).processes = j.processes.map e.change := by
  cases e with
  | reported pid raw => exact markProcess_eq_map distinct pid raw
  | halted => rfl
  | resumed => rfl

theorem pids_apply (distinct : j.pids.Nodup) (e : Event) : (e.apply j).pids = j.pids := by
  rw [pids,processes_apply distinct,List.map_map]
  exact List.map_congr_left fun p _ => p.pid_change e

/-- All processes of a job agree with the events. -/
structure Lives (j : Job) (before : List Event) : Prop where
  distinct : j.pids.Nodup
  processes : ∀ p ∈ j.processes, p.Lives before

theorem lives_start (group : Pid) (command : Text) {pids : List Pid} (distinct : pids.Nodup) :
    (start group command pids).Lives [] := by
  refine ⟨by rwa [pids_start],fun p mem => ?_⟩
  obtain ⟨pid,-,rfl⟩ := List.mem_map.mp mem
  refine ⟨fun _ => rfl,fun raw => ?_⟩
  simp

/-- One event. -/
theorem Lives.apply (lives : j.Lives before) {e : Event} (allowed : e.Allowed j) : (e.apply j).Lives (before ++ [e]) := by
  refine ⟨by rw [pids_apply lives.distinct]; exact lives.distinct,fun p mem => ?_⟩
  rw [processes_apply lives.distinct] at mem
  obtain ⟨q,inside,rfl⟩ := List.mem_map.mp mem
  refine (lives.processes q inside).change fun raw equal => ?_
  subst equal
  exact allowed q inside rfl

/-- Many events. -/
theorem Lives.live (lives : j.Lives before) {events : List Event} (admits : j.Admits events) :
    (j.live events).Lives (before ++ events) := by
  induction events generalizing j before with
  | nil => rwa [List.append_nil]
  | cons e later ih =>
    have now := ih (lives.apply admits.1) admits.2
    rwa [List.append_assoc] at now

/-- The numbers stay the same. -/
theorem Lives.pids_live (lives : j.Lives before) {events : List Event} (admits : j.Admits events) :
    (j.live events).pids = j.pids := by
  induction events generalizing j before with
  | nil => rfl
  | cons e later ih => exact (ih (lives.apply admits.1) admits.2).trans (pids_apply lives.distinct e)

/-- A process that has ended stays as it is. -/
theorem Lives.ended_stays (lives : j.Lives before) {events : List Event} (admits : j.Admits events) {k : Nat}
    {p : JobProcess} (here : j.processes[k]? = some p) (completed : p.completed = true) :
    (j.live events).processes[k]? = some p := by
  induction events generalizing j before with
  | nil => exact here
  | cons e later ih =>
    refine ih (lives.apply admits.1) admits.2 ?_
    have mem := List.mem_of_getElem? here
    have kept : e.change p = p := by
      refine (lives.processes p mem).change_of_completed completed fun raw equal => ?_
      have allowed := admits.1
      rw [equal] at allowed
      rw [allowed p mem rfl] at completed
      cases completed
    rw [processes_apply lives.distinct,List.getElem?_map,here,Option.map_some,kept]

/-! ### The state of the job -/

theorem Lives.state_eq_stopped_iff (lives : j.Lives before) :
    j.state = .stopped ↔ ∃ p ∈ j.processes, p.completed = false ∧ p.stopped = true := by
  have either : j.state = .stopped ↔ j.processes.any (·.stopped) = true := by
    rw [state]
    split_ifs with halted ended
    · exact iff_of_true rfl halted
    · exact iff_of_false (by simp) halted
    · exact iff_of_false (by simp) halted
  rw [either,List.any_eq_true]
  refine exists_congr fun p => and_congr_right fun mem => ⟨fun stopped => ⟨?_,stopped⟩,And.right⟩
  by_contra completed
  rw [(lives.processes p mem).unstopped (by simpa using completed)] at stopped
  cases stopped

/-- A job is done when all processes have ended, with the status of the last one. -/
theorem Lives.state_eq_done_iff (lives : j.Lives before) (nonempty : j.processes ≠ []) (c : Int) :
    j.state = .done c ↔ (∀ p ∈ j.processes, p.completed = true) ∧
      c = WaitStatus.exitCode (j.processes.getLast nonempty).status := by
  by_cases ended : ∀ p ∈ j.processes, p.completed = true
  · have unstopped : ¬j.processes.any (·.stopped) = true := by
      rw [List.any_eq_true]
      rintro ⟨p,mem,stopped⟩
      rw [(lives.processes p mem).unstopped (ended p mem)] at stopped
      cases stopped
    rw [state,if_neg unstopped,if_pos (List.all_eq_true.mpr ended),List.getLast?_eq_some_getLast nonempty,
      Option.map_some,Option.getD_some,JobState.done.injEq,and_iff_right ended,eq_comm]
  · have going : ¬j.processes.all (·.completed) = true := fun all => ended (List.all_eq_true.mp all)
    refine iff_of_false (fun done => ?_) fun both => ended both.1
    rw [state,if_neg going] at done
    split_ifs at done

/-- A job is running when it is neither stopped nor done. -/
theorem Lives.state_eq_running_iff (lives : j.Lives before) :
    j.state = .running ↔ (¬∃ p ∈ j.processes, p.completed = false ∧ p.stopped = true) ∧
      ¬∀ p ∈ j.processes, p.completed = true := by
  rw [← lives.state_eq_stopped_iff,← List.all_eq_true (p := JobProcess.completed),state]
  split_ifs with halted ended
  · exact iff_of_false (by simp) fun both => both.1 rfl
  · exact iff_of_false (by simp) fun both => both.2 ended
  · exact iff_of_true rfl ⟨by simp,ended⟩

/-- A job that is stopped can be let go on, and does not seem to be done then. -/
theorem Lives.state_markRunning (lives : j.Lives before) (stopped : j.state = .stopped) :
    j.markRunning.state = .running := by
  obtain ⟨p,mem,going,-⟩ := lives.state_eq_stopped_iff.mp stopped
  have resumed := lives.apply (e := .resumed) trivial
  refine resumed.state_eq_running_iff.mpr ⟨?_,fun all => ?_⟩
  · rintro ⟨q,inside,-,still⟩
    obtain ⟨_,-,rfl⟩ := List.mem_map.mp inside
    cases still
  · have ended := all { p with stopped := false } (List.mem_map.mpr ⟨p,mem,rfl⟩)
    rw [going] at ended
    cases ended

/-- When all processes have ended nothing is changed any more. -/
theorem Lives.processes_live (lives : j.Lives before) (ended : ∀ p ∈ j.processes, p.completed = true)
    {events : List Event} (admits : j.Admits events) : (j.live events).processes = j.processes := by
  have length := congrArg List.length (lives.pids_live admits)
  rw [pids,pids,List.length_map,List.length_map] at length
  refine List.ext_getElem? fun k => ?_
  cases here : j.processes[k]? with
  | none =>
    rw [List.getElem?_eq_none_iff] at here ⊢
    rwa [length]
  | some p => exact lives.ended_stays admits here (ended p (List.mem_of_getElem? here))

/-- **The life of a job.** Let a job be begun with processes of different numbers, and let any events happen to it, but no
    report on a process that has ended. A process has ended exactly when its end was reported, with the status of that
    report, and it is not stopped then. The job is stopped exactly when a process is that has not ended; it is done exactly
    when all have ended, with the status that the end of the last one was reported with; it is running otherwise. Whatever
    happens further, a process that has ended stays as it is, and so does a job that is done keep its status. A job that
    is stopped goes on as soon as it is let. -/
theorem life_cycle (group : Pid) (command : Text) {pids : List Pid} (nonempty : pids ≠ []) (distinct : pids.Nodup)
    {events : List Event} (admits : (start group command pids).Admits events) :
    let j := (start group command pids).live events
    j.pids = pids ∧
    (∀ p ∈ j.processes, ¬(p.completed = true ∧ p.stopped = true) ∧
      ∀ raw, (p.completed = true ∧ p.status = raw) ↔ raw.Ends ∧ .reported p.pid raw ∈ events) ∧
    (j.state = .stopped ↔ ∃ p ∈ j.processes, p.completed = false ∧ p.stopped = true) ∧
    (∀ c, j.state = .done c ↔ (∀ p ∈ j.processes, p.completed = true) ∧
      ∃ raw, raw.Ends ∧ .reported (pids.getLast nonempty) raw ∈ events ∧ c = WaitStatus.exitCode raw) ∧
    (j.state = .running ↔ (¬∃ p ∈ j.processes, p.completed = false ∧ p.stopped = true) ∧
      ¬∀ p ∈ j.processes, p.completed = true) ∧
    (∀ later, j.Admits later →
      (∀ (k : Nat) (p : JobProcess), j.processes[k]? = some p → p.completed = true → (j.live later).processes[k]? = some p) ∧
      ∀ c, j.state = .done c → (j.live later).state = .done c) ∧
    (j.state = .stopped → j.markRunning.state = .running) := by
  intro j
  have begun := lives_start group command distinct
  have lives : j.Lives events := begun.live admits
  have numbers : j.pids = pids := (begun.pids_live admits).trans (pids_start group command pids)
  have inhabited : j.processes ≠ [] := by
    rintro none
    rw [Job.pids,none] at numbers
    exact nonempty numbers.symm
  have last : (j.processes.getLast inhabited).pid = pids.getLast nonempty := by
    simp only [← numbers,Job.pids,List.getLast_map]
  have done : ∀ c, j.state = .done c ↔ (∀ p ∈ j.processes, p.completed = true) ∧
      ∃ raw, raw.Ends ∧ .reported (pids.getLast nonempty) raw ∈ events ∧ c = WaitStatus.exitCode raw := by
    intro c
    rw [lives.state_eq_done_iff inhabited c]
    refine and_congr_right fun all => ?_
    have mem := List.getLast_mem inhabited
    have ended := (lives.processes _ mem).ended
    rw [last] at ended
    constructor
    · rintro rfl
      obtain ⟨ends,told⟩ := (ended _).mp ⟨all _ mem,rfl⟩
      exact ⟨_,ends,told,rfl⟩
    · rintro ⟨raw,ends,told,rfl⟩
      rw [((ended raw).mpr ⟨ends,told⟩).2]
  refine ⟨numbers,?_,lives.state_eq_stopped_iff,done,lives.state_eq_running_iff,?_,lives.state_markRunning⟩
  · intro p mem
    refine ⟨?_,(lives.processes p mem).ended⟩
    rintro ⟨completed,stopped⟩
    rw [(lives.processes p mem).unstopped completed] at stopped
    cases stopped
  · intro later admits'
    refine ⟨fun k p => lives.ended_stays admits',fun c ended => ?_⟩
    have all := ((lives.state_eq_done_iff inhabited c).mp ended).1
    rw [← ended,state,state,lives.processes_live all admits']

/-- The second process of a pipeline ends while the job is stopped, and the first one after it was let go on; then it is
    stopped and let go on once more. -/
theorem life_cycle_resumed :
    let j := start 100 (txt "a | b") [100,101]
    let events : List Event := [.halted,.reported 101 (.signaled 9),.resumed,.reported 100 (.stopped 20),
      .reported 100 0xffff,.reported 100 (.exited 0)]
    j.Admits events ∧ (j.live events).state = .done 137 ∧ (j.live (events ++ [.halted,.resumed])).state = .done 137 ∧
      (j.live (events.take 2)).state = .stopped ∧ (j.live (events.take 2)).markRunning.state = .running := by
  intro j events
  have distinct : [(100 : Pid),101].Nodup := by decide
  have whole : j.Admits events := by decide
  have front : j.Admits (events.take 2) := by decide
  obtain ⟨-,-,-,done,-,later,-⟩ := life_cycle 100 (txt "a | b") (by decide) distinct whole
  obtain ⟨-,-,-,-,-,-,goes⟩ := life_cycle 100 (txt "a | b") (by decide) distinct front
  have ended : (j.live events).state = .done 137 :=
    (done 137).mpr ⟨by decide,.signaled 9,by decide,by decide,by decide⟩
  have still := (later [.halted,.resumed] (by decide)).2 137 ended
  refine ⟨whole,ended,?_,by decide,goes (by decide)⟩
  rw [live,List.foldl_append]
  exact still

end Job
end JobShell

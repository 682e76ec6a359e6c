import JobShell.Proofs.Session.Starting
import Mathlib.Logic.ExistsUnique

/-!
# Who answers for a process

A process that was started must be waited for by somebody. When the stages of a
pipeline have been run, each of their processes has exactly one owner
(`Act.stages_owned`): the shell that gave the pipeline up and waited for it, the
job in the foreground that has ended, or the job that is now in the table.
-/
namespace JobShell

/-! ### What a record tells -/

namespace Deed

/-- What an attempt to start a process is answered with. -/
def start? : Deed → Option (Except Errno Pid)
  | .started answer => some answer
  | _ => none

/-- The process that was started. -/
def pid? : Deed → Option Pid
  | .started (.ok pid) => some pid
  | _ => none

/-- What waiting for a process of a group is answered with. -/
def answer? (group : Pid) : Deed → Option Waited
  | .awaited g answer => if g = group then some answer else none
  | _ => none

theorem answers_awaited (group : Pid) (l : List Waited) : (l.map (.awaited group)).filterMap (answer? group) = l := by
  induction l with
  | nil => rfl
  | cons answer r ih =>
    rw [List.map_cons,List.filterMap_cons,ih]
    simp [answer?]

theorem starts_begun (pids : List Pid) : (begun pids).filterMap start? = pids.map .ok := by
  induction pids with
  | nil => rfl
  | cons pid r ih => exact congrArg (.ok pid :: ·) ih

theorem pids_begun (pids : List Pid) : (begun pids).filterMap pid? = pids := by
  induction pids with
  | nil => rfl
  | cons pid r ih => exact congrArg (pid :: ·) ih

end Deed

/-- A run of the stages of a pipeline: what it began with and what it came to. -/
structure StagesRun (σ : Type) where
  stages : List Stage
  background : Bool
  display : Text
  before : Session σ
  outcome : CommandOutcome
  after : Session (Watched σ)

namespace StagesRun
variable {σ : Type}

/-- What was done about processes. -/
def deeds (r : StagesRun σ) : List Deed := r.after.system.deeds

/-- The answers to all attempts to start a process. -/
def starts (r : StagesRun σ) : List (Except Errno Pid) := r.deeds.filterMap Deed.start?

/-- The processes that were started. -/
def pids (r : StagesRun σ) : List Pid := r.deeds.filterMap Deed.pid?

/-- The group of the processes: the number of the first. -/
def group (r : StagesRun σ) : Pid := r.pids.head?.getD 0

/-- The processes as a job, after what was waited for. -/
def job (r : StagesRun σ) : Job :=
  (Job.start r.group r.display r.pids).follow (r.deeds.filterMap (Deed.answer? r.group))

/-- Why not all stages were started. Either there were no pipes and nothing was tried, or a stage after as many as were
    started could not be, and nothing was tried after that. -/
inductive Fails [Kernel σ] (r : StagesRun σ) : CommandError → Prop where
  | pipes (e : Errno) (nothing : r.starts = [])
      (refused : ∃ t, Act.Yields (Act.openPipes (r.stages.length-1)) ⟨r.before.shell,Watched.begin r.before.system⟩
        (.error e) t) :
      Fails r (.notStarted e (txt "pipe"))
  | stage (stage : Stage) (e : CommandError) (last : List Deed) (here : r.stages[r.pids.length]? = some stage)
      (attempt : stage.Attempt (.error e) last) (tried : r.starts = r.pids.map .ok ++ last.filterMap Deed.start?) :
      Fails r e

end StagesRun

/-- Who answers for a process in the end. -/
inductive Owner where
  /-- The shell has asked the group to end, since a later stage could not be started, and then waited for the process. -/
  | abandoned
  /-- The process has ended, in a job in the foreground that is not kept. -/
  | finished
  /-- The job that was added to the table, in the background or stopped in the foreground. -/
  | stored
  deriving DecidableEq, Repr

/-- What makes an owner answer for a process. -/
def Owner.Owns {σ : Type} (r : StagesRun σ) (pid : Pid) : Owner → Prop
  | .abandoned => r.pids.length < r.stages.length ∧ ∃ answer, answer ≠ .interrupted ∧
      [.started (.ok pid),.signaled r.group Act.terminateSignal,.reaped pid answer].Sublist r.deeds
  | .finished => r.background = false ∧ r.after.shell.jobs = r.before.shell.jobs ∧ pid ∈ r.job.pids ∧
      ∀ p ∈ r.job.processes, p.completed = true
  | .stored => ∃ j, r.after.shell.jobs = r.before.shell.jobs ++ [j] ∧ r.outcome.job = some j.id ∧ pid ∈ j.pids ∧
      (r.background = true ∨ j.state = .stopped)

/-! ### How a run ends -/

namespace StagesRun
open Act (Yields groupAfter terminateSignal Reaps)
variable {σ : Type} [Kernel σ]

/-- The ways in which a run of stages ends, with all that was done about processes. -/
inductive Ends (r : StagesRun σ) : Prop where
  | pipes (e : Errno)
      (refused : ∃ t, Yields (Act.openPipes (r.stages.length-1)) ⟨r.before.shell,Watched.begin r.before.system⟩
        (.error e) t)
      (deeds : r.deeds = []) (outcome : r.outcome = ⟨(CommandError.notStarted e (txt "pipe")).status,none⟩)
      (same : r.after.shell = r.before.shell)
  | stage (pids : List Pid) (stage : Stage) (e : CommandError) (last reaps : List Deed)
      (here : r.stages[pids.length]? = some stage) (attempt : stage.Attempt (.error e) last) (reaped : Reaps pids reaps)
      (deeds : r.deeds = Deed.begun pids ++ last ++ (Act.asked (groupAfter 0 pids) ++ reaps))
      (outcome : r.outcome = ⟨e.status,none⟩) (same : r.after.shell = r.before.shell)
  | background (pids : List Pid) (all : pids.length = r.stages.length) (background : r.background = true)
      (deeds : r.deeds = Deed.begun pids)
      (jobs : r.after.shell.jobs = (r.before.shell.jobs.adopt (.start (groupAfter 0 pids) r.display pids)).1)
      (outcome : r.outcome.job = some r.before.shell.jobs.freeId)
  | stopped (pids : List Pid) (answers : List Waited) (status : Int) (all : pids.length = r.stages.length)
      (deeds : r.deeds = Deed.begun pids ++ answers.map (.awaited (groupAfter 0 pids)))
      (verdict : ((Job.start (groupAfter 0 pids) r.display pids).follow answers).verdict? = some (status,true))
      (jobs : r.after.shell.jobs =
        (r.before.shell.jobs.adopt ((Job.start (groupAfter 0 pids) r.display pids).follow answers).markStopped).1)
      (outcome : r.outcome.job = some r.before.shell.jobs.freeId)
  | done (pids : List Pid) (answers : List Waited) (status : Int) (all : pids.length = r.stages.length)
      (foreground : r.background = false)
      (deeds : r.deeds = Deed.begun pids ++ answers.map (.awaited (groupAfter 0 pids)))
      (verdict : ((Job.start (groupAfter 0 pids) r.display pids).follow answers).verdict? = some (status,false))
      (same : r.after.shell = r.before.shell)

end StagesRun

namespace Act
variable {σ : Type} [Kernel σ]

/-- A run of stages ends in one of these ways, or the shell breaks down since the user cannot be told something. -/
theorem runStages_ends (stages : List Stage) (background : Bool) (display : Text) (s : Session σ) :
    (∃ outcome after, Yields (runStages stages background display) ⟨s.shell,Watched.begin s.system⟩ outcome after ∧
      StagesRun.Ends ⟨stages,background,display,s,outcome,after⟩) ∨
    ∃ after, Untold (runStages stages background display) ⟨s.shell,Watched.begin s.system⟩ after := by
  obtain ⟨pipes,t,_,opened,same,does,rfl⟩ := quiet_openPipes (stages.length-1) ⟨s.shell,Watched.begin s.system⟩
  cases pipes with
  | error e =>
    obtain ⟨_,u,_,closed,same₁,closing,rfl⟩ := quiet_closeAll (stages.flatMap (·.wiring.handles)) t
    rcases quiet_refuse_or_untold (.notStarted e (txt "pipe")) u with ⟨v,told,same₂,telling⟩ | untold
    · have deeds : v.system.deeds = [] := (does.trans (closing.trans telling)).deeds
      refine .inl ⟨_,v,opened.bind (closed.bind (told.bind (yields_pure _ v))),.pipes e ⟨t,opened⟩ deeds rfl ?_⟩
      exact same₂.trans (same₁.trans same)
    · exact .inr ⟨u,opened.untold (closed.untold (untold.bind _))⟩
  | ok pipes =>
    obtain ⟨⟨failure,group,pids⟩,u,l,begun,same',starting,new,pair,rest⟩ := performs_startStages 0 [] none pipes stages t
    obtain ⟨rfl,rfl⟩ := Prod.mk.inj pair
    have before := same'.trans same
    have started := does.trans starting
    cases failure with
    | some e =>
      obtain ⟨stage,last,here,attempt,rfl⟩ := rest
      obtain ⟨_,v,_,gave,same₁,ending,reaps,reaped,rfl⟩ := performs_abandon (groupAfter 0 pids) pids u
      rcases quiet_refuse_or_untold e v with ⟨w,told,same₂,telling⟩ | untold
      · have deeds := (started.trans (ending.trans telling)).deeds
        refine .inl ⟨_,w,opened.bind (begun.bind (gave.bind (told.bind (yields_pure _ w)))),
          .stage pids stage e last reaps here attempt reaped ?_ rfl (same₂.trans (same₁.trans before))⟩
        simpa [Watched.begin,StagesRun.deeds] using deeds
      · exact .inr ⟨v,opened.untold (begun.untold (gave.untold (untold.bind _)))⟩
    | none =>
      obtain ⟨all,rfl⟩ := rest
      cases background with
      | true =>
        rcases added_or_untold (.start (groupAfter 0 pids) display pids)
          (fun id => '[' :: Numeral.ofNat id ++ txt "] " ++ Numeral.ofInt (groupAfter 0 pids) ++ ['\n']) 0 u with
          ⟨v,added,jobs,adding⟩ | ⟨v,untold⟩
        · have deeds := (started.trans adding).deeds
          rw [before] at added jobs
          refine .inl ⟨_,v,opened.bind (begun.bind added),.background pids all rfl ?_ jobs rfl⟩
          simpa [Watched.begin,StagesRun.deeds] using deeds
        · exact .inr ⟨v,opened.untold (begun.untold untold)⟩
      | false =>
        obtain ⟨⟨⟨status,stopped⟩,j⟩,v,_,waited,same₁,waiting,answers,rfl,verdict,result⟩ :=
          performs_awaitForeground (.start (groupAfter 0 pids) display pids) u
        cases stopped with
        | true =>
          rcases added_or_untold j
            (fun id => txt "\n[" ++ Numeral.ofNat id ++ txt "]+  Stopped   " ++ display ++ ['\n']) status v with
            ⟨w,added,jobs,adding⟩ | ⟨w,untold⟩
          · have deeds := (started.trans (waiting.trans adding)).deeds
            rw [same₁.trans before] at added jobs
            have whole : j = ((Job.start (groupAfter 0 pids) display pids).follow answers).markStopped := result
            rw [whole] at jobs
            refine .inl ⟨_,w,opened.bind (begun.bind (waited.bind added)),
              .stopped pids answers status all ?_ verdict jobs rfl⟩
            simpa [Watched.begin,StagesRun.deeds,Job.start] using deeds
          · exact .inr ⟨w,opened.untold (begun.untold (waited.untold untold))⟩
        | false =>
          obtain ⟨_,w,_,told,same₂,telling,rfl⟩ := quiet_log .info (txt "exit " ++ Numeral.ofInt status ++ txt ": " ++
            display) v
          have deeds := (started.trans (waiting.trans telling)).deeds
          refine .inl ⟨_,w,opened.bind (begun.bind (waited.bind (told.bind (yields_pure _ w)))),
            .done pids answers status all rfl ?_ verdict (same₂.trans (same₁.trans before))⟩
          simpa [Watched.begin,StagesRun.deeds,Job.start] using deeds

end Act

/-! ### What a record says and what not -/

theorem Stage.Attempt.silent {stage : Stage} {e : CommandError} {l : List Deed} (attempt : stage.Attempt (.error e) l) :
    ∀ d ∈ l, d.pid? = none ∧ ∀ group, d.answer? group = none := by
  intro d mem
  cases attempt with
  | refused e =>
    rw [List.mem_singleton.mp mem]
    exact ⟨rfl,fun _ => rfl⟩
  | unfit program file zero => cases mem

namespace Act

theorem Reaps.reaped {pids : List Pid} {l : List Deed} (reaps : Reaps pids l) :
    ∀ d ∈ l, ∃ pid answer, d = .reaped pid answer := by
  induction reaps with
  | nil => simp
  | @cons pid answer r l interrupted last rest ih =>
    intro d mem
    rcases List.mem_append.mp mem with first | later
    · rcases List.mem_append.mp first with again | once
      · exact ⟨pid,.interrupted,List.eq_of_mem_replicate again⟩
      · exact ⟨pid,answer,List.mem_singleton.mp once⟩
    · exact ih d later

theorem Reaps.silent {pids : List Pid} {l : List Deed} (reaps : Reaps pids l) (group : Pid) :
    ∀ d ∈ asked group ++ l, d.start? = none ∧ d.pid? = none ∧ ∀ group, d.answer? group = none := by
  intro d mem
  rcases List.mem_append.mp mem with first | later
  · rw [asked] at first
    split at first
    · rw [List.mem_singleton.mp first]
      exact ⟨rfl,rfl,fun _ => rfl⟩
    · cases first
  · obtain ⟨pid,answer,rfl⟩ := reaps.reaped d later
    exact ⟨rfl,rfl,fun _ => rfl⟩

theorem Reaps.exists_mem {pids : List Pid} {l : List Deed} (reaps : Reaps pids l) :
    ∀ pid ∈ pids, ∃ answer, answer ≠ .interrupted ∧ Deed.reaped pid answer ∈ l := by
  induction reaps with
  | nil => simp
  | @cons pid answer r l interrupted last rest ih =>
    intro p mem
    rcases List.mem_cons.mp mem with rfl | later
    · exact ⟨answer,last,by simp⟩
    · obtain ⟨a,ended,here⟩ := ih p later
      exact ⟨a,ended,by simp [here]⟩

theorem groupAfter_of_ne_zero {group : Pid} (set : group ≠ 0) (pids : List Pid) : groupAfter group pids = group := by
  induction pids with
  | nil => rfl
  | cons pid r ih =>
    rw [groupAfter,List.foldl_cons,if_neg set]
    exact ih

theorem groupAfter_pos {pids : List Pid} (positive : ∀ pid ∈ pids, 0 < pid) {pid : Pid} (mem : pid ∈ pids) :
    groupAfter 0 pids > 0 := by
  cases pids with
  | nil => cases mem
  | cons first r =>
    have here : 0 < first := positive first (by simp)
    show groupAfter first r > 0
    rw [groupAfter_of_ne_zero (Int.ne_of_gt here)]
    exact here

/-- Processes have positive numbers, and the first gives its number to the group. -/
theorem groupAfter_zero {pids : List Pid} (positive : ∀ pid ∈ pids, 0 < pid) :
    groupAfter 0 pids = pids.head?.getD 0 := by
  cases pids with
  | nil => rfl
  | cons pid r =>
    have first : pid ≠ 0 := Int.ne_of_gt (positive pid (by simp))
    exact groupAfter_of_ne_zero first r

end Act

namespace StagesRun
variable {σ : Type} {r : StagesRun σ}

/-- What follows the starts says nothing of other starts. -/
theorem pids_of_deeds {pids : List Pid} {rest : List Deed} (deeds : r.deeds = Deed.begun pids ++ rest)
    (silent : ∀ d ∈ rest, d.pid? = none) : r.pids = pids := by
  have none_ : rest.filterMap Deed.pid? = [] := List.filterMap_eq_nil_iff.mpr silent
  rw [StagesRun.pids,deeds,List.filterMap_append,Deed.pids_begun,none_,List.append_nil]

theorem starts_of_deeds {pids : List Pid} {rest : List Deed} (deeds : r.deeds = Deed.begun pids ++ rest) :
    r.starts = pids.map .ok ++ rest.filterMap Deed.start? := by
  rw [starts,deeds,List.filterMap_append,Deed.starts_begun]

/-- After a stage that could not be started nothing is started, and no job is waited for. -/
theorem silent_of_stage {stage : Stage} {e : CommandError} {pids : List Pid} {last reaps : List Deed}
    (attempt : stage.Attempt (.error e) last) (reaped : Act.Reaps pids reaps) (group : Pid) :
    ∀ d ∈ last ++ (Act.asked group ++ reaps), d.pid? = none ∧ ∀ group, d.answer? group = none := by
  intro d mem
  rcases List.mem_append.mp mem with tried | after
  · exact attempt.silent d tried
  · exact (reaped.silent group d after).2

theorem job_of_deeds {pids : List Pid} {rest : List Deed} (deeds : r.deeds = Deed.begun pids ++ rest) :
    r.job = (Job.start r.group r.display r.pids).follow (rest.filterMap (Deed.answer? r.group)) := by
  have none_ : (Deed.begun pids).filterMap (Deed.answer? r.group) = [] := by
    rw [List.filterMap_eq_nil_iff]
    intro d mem
    obtain ⟨pid,-,rfl⟩ := List.mem_map.mp mem
    rfl
  rw [job,deeds,List.filterMap_append,none_,List.nil_append]

section
variable {stage : Stage} {e : CommandError} {pids : List Pid} {last reaps : List Deed} {group : Pid}

theorem pids_of_stage (attempt : stage.Attempt (.error e) last) (reaped : Act.Reaps pids reaps)
    (deeds : r.deeds = Deed.begun pids ++ last ++ (Act.asked group ++ reaps)) : r.pids = pids := by
  rw [List.append_assoc] at deeds
  exact pids_of_deeds deeds fun d mem => (silent_of_stage attempt reaped group d mem).1

/-- No job was waited for, so the processes stand as they were started. -/
theorem job_of_stage (attempt : stage.Attempt (.error e) last) (reaped : Act.Reaps pids reaps)
    (deeds : r.deeds = Deed.begun pids ++ last ++ (Act.asked group ++ reaps)) :
    r.job = Job.start r.group r.display r.pids := by
  rw [List.append_assoc] at deeds
  rw [job_of_deeds deeds,List.filterMap_eq_nil_iff.mpr fun d mem => (silent_of_stage attempt reaped group d mem).2 _]
  rfl

/-- Stopping what was started starts nothing. -/
theorem starts_of_stage (reaped : Act.Reaps pids reaps)
    (deeds : r.deeds = Deed.begun pids ++ last ++ (Act.asked group ++ reaps)) :
    r.starts = pids.map .ok ++ last.filterMap Deed.start? := by
  have ending : (Act.asked group ++ reaps).filterMap Deed.start? = [] :=
    List.filterMap_eq_nil_iff.mpr fun d mem => (reaped.silent group d mem).1
  rw [List.append_assoc] at deeds
  rw [starts_of_deeds deeds,List.filterMap_append,ending,List.append_nil]

end

/-! ### Exactly one owner -/

theorem group_eq (positive : ∀ pid ∈ r.pids, 0 < pid) : r.group = Act.groupAfter 0 r.pids :=
  (Act.groupAfter_zero positive).symm

theorem not_abandoned {pid : Pid} (all : r.pids.length = r.stages.length) : ¬Owner.Owns r pid .abandoned := by
  rintro ⟨fewer,-⟩
  omega

theorem not_stored {pid : Pid} (same : r.after.shell.jobs = r.before.shell.jobs) : ¬Owner.Owns r pid .stored := by
  rintro ⟨j,jobs,-,-,-⟩
  rw [same] at jobs
  exact absurd (congrArg List.length jobs) (by simp)

/-- An owner, when the others are none. -/
theorem exists_unique_owner {pid : Pid} {o : Owner} (owns : o.Owns r pid) (others : ∀ x, x ≠ o → ¬x.Owns r pid) :
    ∃! o : Owner, o.Owns r pid := by
  refine ⟨o,owns,?_⟩
  intro x owns'
  by_cases same : x = o
  · exact same
  · exact absurd owns' (others x same)

/-- A process of a job that was given up. No job was waited for, so that none has ended. -/
theorem owned_of_abandoned {pid : Pid} {last reaps : List Deed} (started : pid ∈ r.pids)
    (fewer : r.pids.length < r.stages.length)
    (deeds : r.deeds = Deed.begun r.pids ++ (last ++ ([.signaled r.group Act.terminateSignal] ++ reaps)))
    (reaped : ∃ answer, answer ≠ .interrupted ∧ Deed.reaped pid answer ∈ reaps)
    (waits : r.job = Job.start r.group r.display r.pids) (same : r.after.shell = r.before.shell) :
    ∃! o : Owner, o.Owns r pid := by
  obtain ⟨answer,ended,mem⟩ := reaped
  have first : [Deed.started (.ok pid)].Sublist (Deed.begun r.pids) :=
    List.singleton_sublist.mpr (List.mem_map_of_mem started)
  have rest : [.signaled r.group Act.terminateSignal,.reaped pid answer].Sublist
      ([.signaled r.group Act.terminateSignal] ++ reaps) := (List.singleton_sublist.mpr mem).cons_cons _
  have owns : Owner.Owns r pid .abandoned := by
    refine ⟨fewer,answer,ended,?_⟩
    rw [deeds]
    exact first.append (rest.trans (List.sublist_append_right _ _))
  apply exists_unique_owner owns
  rintro (_ | _ | _) other
  · exact absurd rfl other
  · rintro ⟨-,-,-,all⟩
    rw [waits] at all
    cases all _ (List.mem_map_of_mem started)
  · exact not_stored (by rw [same])

/-- A process of a job that was added to the table. -/
theorem owned_of_stored {pid : Pid} {j : Job} (all : r.pids.length = r.stages.length)
    (jobs : r.after.shell.jobs = (r.before.shell.jobs.adopt j).1)
    (outcome : r.outcome.job = some r.before.shell.jobs.freeId) (belongs : pid ∈ j.pids)
    (kind : r.background = true ∨ j.state = .stopped) : ∃! o : Owner, o.Owns r pid := by
  have owns : Owner.Owns r pid .stored :=
    ⟨{ j with id := r.before.shell.jobs.freeId },jobs,outcome,belongs,kind⟩
  apply exists_unique_owner owns
  rintro (_ | _ | _) other
  · exact not_abandoned all
  · rintro ⟨-,same,-,-⟩
    rw [same,JobTable.adopt] at jobs
    exact absurd (congrArg List.length jobs) (by simp)
  · exact absurd rfl other

/-- A process of a job that has ended in the foreground. -/
theorem owned_of_finished {pid : Pid} (all : r.pids.length = r.stages.length) (foreground : r.background = false)
    (same : r.after.shell = r.before.shell) (belongs : pid ∈ r.job.pids)
    (ended : ∀ p ∈ r.job.processes, p.completed = true) : ∃! o : Owner, o.Owns r pid := by
  have owns : Owner.Owns r pid .finished := ⟨foreground,by rw [same],belongs,ended⟩
  apply exists_unique_owner owns
  rintro (_ | _ | _) other
  · exact not_abandoned all
  · exact absurd rfl other
  · exact not_stored (by rw [same])

section
variable [Kernel σ]

theorem Ends.owned (ends : r.Ends) (positive : ∀ pid ∈ r.pids, 0 < pid) {pid : Pid} (started : pid ∈ r.pids) :
    ∃! o : Owner, o.Owns r pid := by
  cases ends with
  | pipes e refused deeds outcome same =>
    have none_ : r.pids = [] := by
      rw [StagesRun.pids,deeds]
      rfl
    rw [none_] at started
    cases started
  | stage pids stage e last reaps here attempt reaped deeds outcome same =>
    obtain rfl := pids_of_stage attempt reaped deeds
    have waits := job_of_stage attempt reaped deeds
    have asked : Act.asked (Act.groupAfter 0 r.pids) = [.signaled r.group Act.terminateSignal] := by
      rw [group_eq positive]
      exact if_pos (Act.groupAfter_pos positive started)
    obtain ⟨fewer,-⟩ := List.getElem?_eq_some_iff.mp here
    rw [asked,List.append_assoc] at deeds
    exact owned_of_abandoned started fewer deeds (reaped.exists_mem pid started) waits same
  | background pids all background deeds jobs outcome =>
    rw [← List.append_nil (Deed.begun pids)] at deeds
    obtain rfl := pids_of_deeds deeds (by simp)
    exact owned_of_stored all jobs outcome (by rwa [Job.pids_start]) (.inl background)
  | stopped pids answers status all deeds verdict jobs outcome =>
    obtain rfl := pids_of_deeds deeds (by simp [Deed.pid?])
    refine owned_of_stored all jobs outcome ?_ (.inr (Job.state_markStopped verdict))
    rwa [Job.pids_markStopped,Job.pids_follow,Job.pids_start]
  | done pids answers status all foreground deeds verdict same =>
    obtain rfl := pids_of_deeds deeds (by simp [Deed.pid?])
    have job : r.job = (Job.start r.group r.display r.pids).follow answers := by
      rw [job_of_deeds deeds,group_eq positive,Deed.answers_awaited]
    rw [← group_eq positive,← job] at verdict
    refine owned_of_finished all foreground same ?_ (Job.completed_of_verdict verdict)
    rwa [job,Job.pids_follow,Job.pids_start]

/-- When not all stages were started the shell is as before, and the status tells why. -/
theorem Ends.fails (ends : r.Ends) (fewer : r.pids.length ≠ r.stages.length) :
    r.outcome.job = none ∧ r.after.shell = r.before.shell ∧ ∃ e, r.Fails e ∧ r.outcome.status = e.status := by
  cases ends with
  | pipes e refused deeds outcome same =>
    have nothing : r.starts = [] := by
      rw [starts,deeds]
      rfl
    rw [outcome]
    exact ⟨rfl,same,_,.pipes e nothing refused,rfl⟩
  | stage pids stage e last reaps here attempt reaped deeds outcome same =>
    have tried := starts_of_stage reaped deeds
    obtain rfl := pids_of_stage attempt reaped deeds
    rw [outcome]
    exact ⟨rfl,same,e,.stage stage e last here attempt tried,rfl⟩
  | background pids all background deeds jobs outcome =>
    rw [← List.append_nil (Deed.begun pids)] at deeds
    obtain rfl := pids_of_deeds deeds (by simp)
    exact absurd all fewer
  | stopped pids answers status all deeds verdict jobs outcome =>
    obtain rfl := pids_of_deeds deeds (by simp [Deed.pid?])
    exact absurd all fewer
  | done pids answers status all foreground deeds verdict same =>
    obtain rfl := pids_of_deeds deeds (by simp [Deed.pid?])
    exact absurd all fewer

end
end StagesRun

/-- **Who answers for processes.** The stages of a pipeline are run on any system, whatever it answers. The run comes to an
    end, unless the user is to be told something that cannot be written. At the end each process that was started, if
    processes have positive numbers, has exactly one owner: it was abandoned, it has finished in the foreground, or it
    belongs to the one job that was added to the table. When not all stages were started the shell is as before, so that no
    job was added; there is no job in the outcome, whose status is that of the error; and nothing was started after what
    could not be. -/
theorem Act.stages_owned {σ : Type} [Kernel σ] (stages : List Stage) (background : Bool) (display : Text) (s : Session σ) :
    ((∃ outcome after, Yields (runStages stages background display) ⟨s.shell,Watched.begin s.system⟩ outcome after) ∨
      ∃ after, Untold (runStages stages background display) ⟨s.shell,Watched.begin s.system⟩ after) ∧
    ∀ outcome after, Yields (runStages stages background display) ⟨s.shell,Watched.begin s.system⟩ outcome after →
      let r : StagesRun σ := ⟨stages,background,display,s,outcome,after⟩
      ((∀ pid ∈ r.pids, 0 < pid) → ∀ pid ∈ r.pids, ∃! o : Owner, o.Owns r pid) ∧
        (r.pids.length ≠ stages.length → outcome.job = none ∧ after.shell = s.shell ∧
          ∃ e, r.Fails e ∧ outcome.status = e.status) := by
  rcases runStages_ends stages background display s with ⟨outcome,after,yields,ends⟩ | ⟨after,untold⟩
  · refine ⟨.inl ⟨outcome,after,yields⟩,fun outcome' after' yields' => ?_⟩
    obtain ⟨rfl,rfl⟩ := yields.unique yields'
    exact ⟨fun positive pid started => ends.owned positive started,ends.fails⟩
  · exact ⟨.inr ⟨after,untold⟩,fun outcome' after' yields' => absurd yields' untold.not_yields⟩

/-! ### A system that answers from lists -/

/-- A system that answers from lists. Once they end no process can be started, and there is none to wait for. -/
structure Answers where
  starts : List (Except Errno Pid)
  waits : List Waited

namespace Answers

/-- The answer to an attempt to start a process. -/
def start (s : Answers) : Except Errno Pid × Answers :=
  match s.starts with
  | [] => (.error Errno.again,s)
  | answer :: r => (answer,{ s with starts := r })

/-- The answer to what waits for a process. -/
def wait (s : Answers) : Waited × Answers :=
  match s.waits with
  | [] => (.noChild,s)
  | answer :: r => (answer,{ s with waits := r })

theorem wait_length {s : Answers} (more : s.wait.1 ≠ .noChild) : s.wait.2.waits.length < s.waits.length := by
  unfold wait at more ⊢
  split
  · rename_i ended
    rw [ended] at more
    exact absurd rfl more
  · rename_i begun
    rw [begun]
    exact Nat.lt_succ_self _

instance : Kernel Answers where
  environment _ := []
  setEnvironment _ s := s
  homeOf _ _ := none
  directory _ := ['/']
  changeDirectory _ s := .ok s
  kindOf _ _ := .error (.os Errno.noEntry)
  namesIn _ _ := .error (.os Errno.noEntry)
  contentOf _ _ := .error (.os Errno.noEntry)
  appendFile _ _ s := .ok s
  replaceFile _ _ s := .ok s
  createDirectories _ s := s
  openFile _ _ s := .ok (0,s)
  pipe s := .ok ((0,1),s)
  close _ s := s
  write _ _ s := .ok s
  spawn _ s := s.start
  fork _ _ s := s.start
  endFork _ s := s
  beginCapture s := .ok s
  endCapture _ s := ([],s)
  signalGroup _ _ s := (none,s)
  waitGroup _ s := s.wait
  waitProcess _ s := s.wait
  poll _ s := (none,s)
  foreground _ := 0
  setForeground _ s := s
  giveTerminal _ s := s
  log _ _ s := s
  events s := s.waits.length
  log_events _ _ _ := rfl
  waitGroup_events _ _ more := wait_length more
  waitProcess_events _ s interrupted := wait_length (by
    rw [interrupted]
    exact Waited.noConfusion)
  poll_events _ _ changed := by cases changed

end Answers

/-- Of three stages the last cannot be started. The first two are waited for, the first after an interruption. -/
theorem Act.stages_owned_last_refused :
    let stages : List Stage := [⟨[txt "yes"],some (txt "/bin/yes"),.inherited⟩,⟨[txt "pwd"],none,.inherited⟩,
      ⟨[txt "wc"],some (txt "/bin/wc"),.inherited⟩]
    let s : Session Answers := ⟨⟨0,false,[],[],[],['/'],.inMemory 5 true,true⟩,
      ⟨[.ok 7,.ok 8,.error Errno.noEntry],[.interrupted,.changed 7 15,.changed 8 0]⟩⟩
    ∃ outcome after, Yields (runStages stages false (txt "yes | pwd | wc")) ⟨s.shell,Watched.begin s.system⟩ outcome after ∧
      let r : StagesRun Answers := ⟨stages,false,txt "yes | pwd | wc",s,outcome,after⟩
      r.pids = [7,8] ∧ (∀ pid ∈ r.pids, 0 < pid) ∧ (∃! o : Owner, o.Owns r 7) ∧ (∃! o : Owner, o.Owns r 8) ∧
        outcome.job = none ∧ after.shell = s.shell := by
  intro stages s
  obtain ⟨ends,owners⟩ := stages_owned stages false (txt "yes | pwd | wc") s
  have accepts : Kernel.Accepts (Watched Answers) .errors := fun b s => ⟨s.along s.system,rfl⟩
  obtain ⟨outcome,after,yields⟩ := ends.resolve_right fun ⟨after,untold⟩ => not_untold_of_accepts accepts untold
  obtain ⟨owned,failed⟩ := owners outcome after yields
  have last : ((runStages stages false (txt "yes | pwd | wc")).run ⟨s.shell,Watched.begin s.system⟩).2 = after :=
    congrArg (·.2) yields
  have pids : after.system.deeds.filterMap Deed.pid? = [7,8] := by
    rw [← last]
    decide +kernel
  have positive : ∀ pid ∈ after.system.deeds.filterMap Deed.pid?, 0 < pid := by
    rw [pids]
    decide
  have fewer : (after.system.deeds.filterMap Deed.pid?).length ≠ stages.length := by
    rw [pids]
    decide
  obtain ⟨job,same,-⟩ := failed fewer
  have member : ∀ pid ∈ [(7 : Pid),8], pid ∈ after.system.deeds.filterMap Deed.pid? := by
    rw [pids]
    exact fun _ mem => mem
  exact ⟨outcome,after,yields,pids,positive,owned positive 7 (member 7 (by decide)),owned positive 8 (member 8 (by decide)),
    job,same⟩

end JobShell

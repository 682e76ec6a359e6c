import JobShell.Proofs.Job.Verdict
import JobShell.System.Machine.Start
import Mathlib.Data.List.Induction

/-!
# Waiting in the foreground

What a job is waited for with is known when the answers to its waits are known
beforehand: reports on processes in any order, of the job and of others, with
interruptions, and then no child. The wait ends at the first report that a
process of the job is stopped; without one it ends with the job, and the status is
that of the last process, in whatever order the processes end
(`Job.await_foretold`).
-/
namespace JobShell

/-- What a wait comes back with: a report on a process, or nothing when it was interrupted. -/
abbrev Report := Option (Pid × WaitStatus)

/-- The answer to a wait. -/
def Report.answer : Report → Waited
  | some (pid,raw) => .changed pid raw
  | none => .interrupted

/-- The process that a report is on. -/
def Report.pid? (r : Report) : Option Pid := r.map Prod.fst

/-- A system with the reports that are still to come. After the last of them there is no child. -/
structure Foretold (σ : Type) where
  system : σ
  reports : List Report

namespace Foretold
variable {σ : Type}

/-- The same reports in another state of the system. -/
def along (s : Foretold σ) (t : σ) : Foretold σ := { s with system := t }

/-- What an operation of the system yields, with the reports of before. -/
def carry {α : Type} (s : Foretold σ) (r : α × σ) : α × Foretold σ := (r.1,s.along r.2)

/-- The next report, which is used up. -/
def next (s : Foretold σ) : Waited × Foretold σ :=
  match s.reports with
  | [] => (.noChild,s)
  | r :: later => (r.answer,{ s with reports := later })

theorem next_eq {s t : Foretold σ} {w : Waited} (came : s.next = (w,t)) :
    (∃ r, w = r.answer ∧ s.reports = r :: t.reports) ∨ w = .noChild ∧ s.reports = [] ∧ t = s := by
  unfold next at came
  split at came
  · rename_i none_
    cases came
    exact .inr ⟨rfl,none_,rfl⟩
  · rename_i r later first
    cases came
    exact .inl ⟨r,rfl,first⟩

theorem length_next {s : Foretold σ} (came : s.next.1 ≠ .noChild) : s.next.2.reports.length < s.reports.length := by
  unfold next at came ⊢
  split at came
  · exact absurd rfl came
  · rename_i equal
    simp [equal]

instance [Kernel σ] : Kernel (Foretold σ) where
  environment s := Kernel.environment s.system
  setEnvironment b s := s.along (Kernel.setEnvironment b s.system)
  homeOf s := Kernel.homeOf s.system
  directory s := Kernel.directory s.system
  changeDirectory target s := (Kernel.changeDirectory target s.system).map s.along
  kindOf s := Kernel.kindOf s.system
  namesIn s := Kernel.namesIn s.system
  contentOf s := Kernel.contentOf s.system
  appendFile path b s := (Kernel.appendFile path b s.system).map s.along
  replaceFile path b s := (Kernel.replaceFile path b s.system).map s.along
  createDirectories path s := s.along (Kernel.createDirectories path s.system)
  openFile mode path s := (Kernel.openFile mode path s.system).map s.carry
  pipe s := (Kernel.pipe s.system).map s.carry
  close h s := s.along (Kernel.close h s.system)
  write c b s := (Kernel.write c b s.system).map s.along
  spawn l s := s.carry (Kernel.spawn l s.system)
  fork group w s := s.carry (Kernel.fork group w s.system)
  endFork status s := s.along (Kernel.endFork status s.system)
  beginCapture s := (Kernel.beginCapture s.system).map s.along
  endCapture status s := s.carry (Kernel.endCapture status s.system)
  signalGroup group n s := s.carry (Kernel.signalGroup group n s.system)
  waitGroup _ s := s.next
  waitProcess pid s := s.carry (Kernel.waitProcess pid s.system)
  poll group s := s.carry (Kernel.poll group s.system)
  foreground s := Kernel.foreground s.system
  setForeground group s := s.along (Kernel.setForeground group s.system)
  giveTerminal group s := s.along (Kernel.giveTerminal group s.system)
  log l t s := s.along (Kernel.log l t s.system)
  events s := s.reports.length + Kernel.events s.system
  log_events l t s := congrArg (s.reports.length + ·) (Kernel.log_events l t s.system)
  waitGroup_events _ s came := by
    have system : s.next.2.system = s.system := by
      unfold next
      split <;> rfl
    rw [system]
    exact Nat.add_lt_add_right (length_next came) _
  waitProcess_events pid s interrupted := Nat.add_lt_add_left (Kernel.waitProcess_events pid s.system interrupted) _
  poll_events group s seen := Nat.add_lt_add_left (Kernel.poll_events group s.system seen) _

end Foretold

namespace Job

/-- A job after reports. -/
def after (j : Job) (reports : List Report) : Job := j.follow (reports.map Report.answer)

theorem after_cons (j : Job) (r : Report) (later : List Report) : j.after (r :: later) = (j.after [r]).after later := by
  cases r <;> rfl

theorem after_append (j : Job) (a b : List Report) : j.after (a ++ b) = (j.after a).after b := by
  induction a generalizing j with
  | nil => rfl
  | cons r a ih => rw [List.cons_append,after_cons,ih,← after_cons]

section
variable {σ : Type}

/-- What a wait ends with: reports are taken until there is a verdict, and no more; when they come to an end without one,
    what has not ended counts as ended. -/
def Concludes (j : Job) (x : Foretold σ) (result : (Int × Bool) × Job × Foretold σ) : Prop :=
  ∃ used y, x.reports = used ++ y.reports ∧ (∀ a b, used = a ++ b → b ≠ [] → (j.after a).verdict? = none) ∧
    ((∃ v, (j.after used).verdict? = some v ∧ result = (v,j.after used,y)) ∨
      y.reports = [] ∧ (j.after used).verdict? = none ∧ ∃ status,
        (j.after used).markVanished.verdict? = some (status,false) ∧
          result = ((status,false),(j.after used).markVanished,y))

/-- A report that is taken comes before those that are taken afterwards. -/
theorem Concludes.cons {j : Job} {r : Report} {x y : Foretold σ} {result : (Int × Bool) × Job × Foretold σ}
    (running : j.verdict? = none) (came : x.reports = r :: y.reports) (rest : (j.after [r]).Concludes y result) :
    j.Concludes x result := by
  obtain ⟨used,z,split,before,ended⟩ := rest
  refine ⟨r :: used,z,by rw [came,split]; rfl,?_,?_⟩
  · intro a b shorter nonempty
    cases a with
    | nil => exact running
    | cons r' a =>
      obtain ⟨rfl,shorter'⟩ := List.cons.inj shorter
      rw [after_cons]
      exact before a b shorter' nonempty
  · rw [after_cons]
    exact ended

variable [Kernel σ]

theorem reports_note (j : Job) (pid : Pid) (raw : WaitStatus) (x : Foretold σ) :
    (j.note pid raw x).2.reports = x.reports := by
  unfold note
  dsimp only
  split <;> rfl

theorem concludes_await (j : Job) (x : Foretold σ) : j.Concludes x (j.await x) := by
  have nothingBefore : ∀ j : Job, ∀ a b : List Report, [] = a ++ b → b ≠ [] → (j.after a).verdict? = none :=
    fun _ _ _ split nonempty => absurd (List.append_eq_nil_iff.mp split.symm).2 nonempty
  fun_induction await j x with
  | case1 j x v verdict => exact ⟨[],x,rfl,nothingBefore j,.inl ⟨v,verdict,rfl⟩⟩
  | case2 j x running pid raw x' waited _ ih =>
    rcases Foretold.next_eq waited with ⟨_ | ⟨pid,raw⟩,answer,came⟩ | ⟨nothing,-⟩
    · cases answer
    · cases answer
      exact ih.cons running (came.trans (congrArg _ (reports_note j pid raw x').symm))
    · cases nothing
  | case3 j x running x' waited _ ih =>
    rcases Foretold.next_eq waited with ⟨_ | ⟨pid,raw⟩,answer,came⟩ | ⟨nothing,-⟩
    · exact ih.cons running came
    · cases answer
    · cases nothing
  | case4 j x running x' waited =>
    obtain ⟨none_,rfl⟩ : x.reports = [] ∧ x' = x := by
      rcases Foretold.next_eq waited with ⟨r,answer,-⟩ | ⟨-,none_⟩
      · cases r <;> cases answer
      · exact none_
    obtain ⟨status,verdict⟩ := verdict?_markVanished running
    refine ⟨[],x',rfl,nothingBefore j,.inr ⟨none_,running,status,verdict,?_⟩⟩
    rw [verdict]
    rfl

end

/-! ### What the reports say of a process -/

/-- The status with which a process ends, if a report is on its end. -/
def ending? (pid : Pid) : Report → Option WaitStatus
  | some (p,raw) =>
    if p = pid ∧ WaitStatus.isStopped raw = false ∧ WaitStatus.isContinued raw = false then some raw else none
  | none => none

/-- The status with which a process ends, as it is first reported. -/
def firstEnding? (pid : Pid) (reports : List Report) : Option WaitStatus := reports.findSome? (ending? pid)

/-- A process that goes on, after reports that it does not stop. -/
def settled (reports : List Report) (p : JobProcess) : JobProcess :=
  match firstEnding? p.pid reports with
  | some raw => { p with status := raw, completed := true, stopped := false }
  | none => p

/-- No process of the job is reported on after its end. -/
def EndsOnce (j : Job) (reports : List Report) : Prop :=
  reports.Pairwise fun r later => ∀ pid ∈ j.pids, (ending? pid r).isSome → later.pid? ≠ some pid

instance (j : Job) (reports : List Report) : Decidable (j.EndsOnce reports) :=
  inferInstanceAs (Decidable (List.Pairwise _ _))

/-- No process of the job is reported to be stopped. -/
def NeverStops (j : Job) (reports : List Report) : Prop :=
  ∀ r ∈ reports, ∀ x ∈ r, x.1 ∈ j.pids → WaitStatus.isStopped x.2 = false

instance (j : Job) (reports : List Report) : Decidable (j.NeverStops reports) :=
  inferInstanceAs (Decidable (∀ r ∈ reports, _))

/-- All processes of the job go on. -/
def GoesOn (j : Job) : Prop := ∀ p ∈ j.processes, p.completed = false ∧ p.stopped = false

instance (j : Job) : Decidable j.GoesOn := inferInstanceAs (Decidable (∀ p ∈ j.processes, _))

theorem EndsOnce.of_append {j : Job} {a b : List Report} (once : j.EndsOnce (a ++ b)) : j.EndsOnce a :=
  (List.pairwise_append.mp once).1

/-- A process that is reported on has not ended before. -/
theorem EndsOnce.unended {j : Job} {front later : List Report} {pid : Pid} {raw : WaitStatus}
    (once : j.EndsOnce (front ++ some (pid,raw) :: later)) (mine : pid ∈ j.pids) : firstEnding? pid front = none := by
  rw [firstEnding?,List.findSome?_eq_none_iff]
  intro r mem
  by_contra ended
  exact (List.pairwise_append.mp once).2.2 r mem _ List.mem_cons_self pid mine (Option.isSome_iff_ne_none.mpr ended) rfl

theorem NeverStops.of_append {j : Job} {a b : List Report} (calm : j.NeverStops (a ++ b)) : j.NeverStops a :=
  fun r mem => calm r (List.mem_append_left b mem)

/-- When numbers are different a report changes the process of its number. -/
theorem markProcess_eq_map {l : List JobProcess} (distinct : (l.map (·.pid)).Nodup) (pid : Pid) (raw : WaitStatus) :
    markProcess pid raw l = l.map (fun p => if p.pid = pid then p.report raw else p) := by
  induction l with
  | nil => rfl
  | cons p r ih =>
    rw [List.map_cons,List.nodup_cons] at distinct
    rw [markProcess,List.map_cons]
    by_cases same : p.pid = pid
    · have others : r.map (fun p => if p.pid = pid then p.report raw else p) = r := by
        refine (List.map_congr_left fun q mem => if_neg fun equal => ?_).trans (List.map_id' r)
        exact distinct.1 (List.mem_map.mpr ⟨q,mem,equal.trans same.symm⟩)
      rw [if_pos same,if_pos (beq_iff_eq.mpr same),others]
    · rw [if_neg same,if_neg (by simpa using same),ih distinct.2]

theorem follow_eq (j : Job) (l : List Waited) : j.follow l = { j with processes := (j.follow l).processes } := by
  induction l generalizing j with
  | nil => rfl
  | cons w r ih => cases w <;> exact ih _

theorem pid_settled (reports : List Report) (p : JobProcess) : (settled reports p).pid = p.pid := by
  rw [settled]
  split <;> rfl

theorem stopped_settled (reports : List Report) {p : JobProcess} (going : p.stopped = false) :
    (settled reports p).stopped = false := by
  rw [settled]
  split
  · rfl
  · exact going

theorem status_settled (reports : List Report) (p : JobProcess) :
    (settled reports p).status = (firstEnding? p.pid reports).getD p.status := by
  rw [settled]
  cases firstEnding? p.pid reports <;> rfl

theorem completed_settled (reports : List Report) {p : JobProcess} (going : p.completed = false) :
    (settled reports p).completed = (firstEnding? p.pid reports).isSome := by
  rw [settled]
  cases firstEnding? p.pid reports with
  | none => exact going
  | some raw => rfl

theorem firstEnding?_concat (pid : Pid) (front : List Report) (r : Report) :
    firstEnding? pid (front ++ [r]) = (firstEnding? pid front).or (ending? pid r) := by
  rw [firstEnding?,List.findSome?_append]
  cases found : ending? pid r <;> simp [found,firstEnding?]

/-- A report on something else changes nothing. -/
theorem settled_concat_other {p : JobProcess} {r : Report} (other : ending? p.pid r = none) (front : List Report) :
    settled (front ++ [r]) p = settled front p := by
  rw [settled,firstEnding?_concat,other,Option.or_none,settled]

/-- A report on a process that goes on and is not stopped. -/
theorem settled_concat_report {p : JobProcess} (going : p.stopped = false) {front : List Report}
    (unended : firstEnding? p.pid front = none) {raw : WaitStatus} (unstopped : WaitStatus.isStopped raw = false) :
    settled (front ++ [some (p.pid,raw)]) p = (settled front p).report raw := by
  have before : settled front p = p := by rw [settled,unended]
  have report : p.report raw = if WaitStatus.isContinued raw then { p with stopped := false }
      else { p with status := raw, completed := true, stopped := false } := by
    rw [JobProcess.report,if_neg (by simp [unstopped])]
  have ended : ending? p.pid (some (p.pid,raw)) = if WaitStatus.isContinued raw then none else some raw := by
    cases continued : WaitStatus.isContinued raw <;> simp [ending?,unstopped,continued]
  rw [before,report,settled,firstEnding?_concat,unended,Option.none_or,ended]
  split_ifs
  · rw [← going]
  · rfl

theorem ending?_other {pid p : Pid} (other : p ≠ pid) (raw : WaitStatus) : ending? pid (some (p,raw)) = none := by
  rw [ending?,if_neg (fun same => other same.1)]

theorem processes_after {j : Job} {reports : List Report} (distinct : j.pids.Nodup) (goes : j.GoesOn)
    (once : j.EndsOnce reports) (calm : j.NeverStops reports) :
    (j.after reports).processes = j.processes.map (settled reports) := by
  induction reports using List.reverseRecOn with
  | nil => exact (List.map_id' _).symm
  | append_singleton front r ih =>
    have before := ih once.of_append calm.of_append
    rw [after_append]
    cases r with
    | none =>
      refine before.trans (List.map_congr_left fun p mem => ?_)
      exact (settled_concat_other rfl front).symm
    | some report =>
      obtain ⟨pid,raw⟩ := report
      have numbers : (j.after front).pids.Nodup := by
        rw [after,pids_follow]
        exact distinct
      refine (markProcess_eq_map numbers pid raw).trans ?_
      rw [before,List.map_map]
      refine List.map_congr_left fun p mem => ?_
      rw [Function.comp_apply,pid_settled]
      split_ifs with same
      · subst same
        have mine : p.pid ∈ j.pids := List.mem_map_of_mem mem
        have unstopped := calm _ (by simp) (p.pid,raw) rfl mine
        exact (settled_concat_report (goes p mem).2 (once.unended mine) unstopped).symm
      · exact (settled_concat_other (ending?_other (Ne.symm same) raw) front).symm

/-- A job of which no process was stopped has a verdict when all have ended. -/
theorem verdict?_after {j : Job} {reports : List Report} (distinct : j.pids.Nodup) (goes : j.GoesOn)
    (once : j.EndsOnce reports) (calm : j.NeverStops reports) :
    (j.after reports).verdict? =
      if ∀ p ∈ j.processes, (firstEnding? p.pid reports).isSome then
        some ((j.processes.getLast?.map fun p => WaitStatus.exitCode (settled reports p).status).getD 0,false)
      else none := by
  have processes := processes_after distinct goes once calm
  have unstopped : ¬(j.after reports).processes.any (·.stopped) = true := by
    rw [processes,List.any_eq_true]
    rintro ⟨q,mem,stopped⟩
    obtain ⟨p,inside,rfl⟩ := List.mem_map.mp mem
    rw [stopped_settled reports (goes p inside).2] at stopped
    cases stopped
  have ended : (j.after reports).processes.all (·.completed) = true ↔
      ∀ p ∈ j.processes, (firstEnding? p.pid reports).isSome := by
    rw [processes,List.all_map,List.all_eq_true]
    refine forall₂_congr fun p mem => ?_
    rw [Function.comp_apply,completed_settled reports (goes p mem).1]
  rw [verdict?_eq,if_neg unstopped,processes,List.getLast?_map,Option.map_map,← processes]
  simp only [ended]
  rfl

theorem firstEnding?_eq_none_of_start {pid : Pid} {a b : List Report} (start : a <+: b)
    (unended : firstEnding? pid b = none) : firstEnding? pid a = none := by
  rw [firstEnding?,List.findSome?_eq_none_iff] at unended ⊢
  exact fun r mem => unended r (start.subset mem)

/-- A job with a process that goes on has no verdict before a report that it is stopped. -/
theorem verdict?_unended {j : Job} {reports : List Report} (distinct : j.pids.Nodup) (goes : j.GoesOn)
    (once : j.EndsOnce reports) (calm : j.NeverStops reports) {pid : Pid} (mine : pid ∈ j.pids)
    (unended : firstEnding? pid reports = none) : (j.after reports).verdict? = none := by
  rw [verdict?_after distinct goes once calm,if_neg]
  intro ended
  obtain ⟨p,mem,rfl⟩ := List.mem_map.mp mine
  have this := ended p mem
  rw [unended] at this
  cases this

/-- One process of the job is stopped, the others are as they were. -/
theorem after_stop {j : Job} {front : List Report} (distinct : j.pids.Nodup) (goes : j.GoesOn) (once : j.EndsOnce front)
    (calm : j.NeverStops front) {raw : WaitStatus} (stop : WaitStatus.isStopped raw = true) (pid : Pid) :
    j.after (front ++ [some (pid,raw)]) =
      { j with processes := j.processes.map fun p => { settled front p with stopped := p.pid == pid } } := by
  have numbers : (j.after front).pids.Nodup := by
    rw [after,pids_follow]
    exact distinct
  have processes : (j.after (front ++ [some (pid,raw)])).processes =
      j.processes.map fun p => { settled front p with stopped := p.pid == pid } := by
    rw [after_append]
    refine (markProcess_eq_map numbers pid raw).trans ?_
    rw [processes_after distinct goes once calm,List.map_map]
    refine List.map_congr_left fun p mem => ?_
    rw [Function.comp_apply,pid_settled,JobProcess.report,if_pos stop]
    split_ifs with same
    · rw [beq_iff_eq.mpr same]
    · rw [beq_false_of_ne same,← stopped_settled front (goes p mem).2]
  rw [← processes]
  exact follow_eq j _

theorem mem_markProcess {pid : Pid} {raw : WaitStatus} {l : List JobProcess} {p : JobProcess}
    (mem : p ∈ markProcess pid raw l) : p ∈ l ∨ ∃ q ∈ l, p = q.report raw := by
  induction l with
  | nil => cases mem
  | cons q r ih =>
    rw [markProcess] at mem
    split_ifs at mem
    · rcases List.mem_cons.mp mem with rfl | inside
      · exact .inr ⟨q,by simp,rfl⟩
      · exact .inl (List.mem_cons_of_mem q inside)
    · rcases List.mem_cons.mp mem with rfl | inside
      · exact .inl (by simp)
      · rcases ih inside with old | ⟨q',inside',rfl⟩
        · exact .inl (List.mem_cons_of_mem q old)
        · exact .inr ⟨q',List.mem_cons_of_mem q inside',rfl⟩

/-- The jobs that a shell has: they are started, and changed by reports and by what the shell does with them. -/
inductive Arises : Job → Prop
  | start (group : Pid) (command : Text) (pids : List Pid) : Arises (start group command pids)
  | mark {j : Job} (pid : Pid) (raw : WaitStatus) : Arises j → Arises (j.mark pid raw)
  | stop {j : Job} : Arises j → Arises j.markStopped
  | run {j : Job} : Arises j → Arises j.markRunning
  | vanish {j : Job} : Arises j → Arises j.markVanished
  | record {j : Job} (id : Nat) (notified : Bool) : Arises j → Arises { j with id := id, notified := notified }

/-- A process has no status before its end. -/
theorem Arises.status_eq_zero {j : Job} (arises : j.Arises) :
    ∀ p ∈ j.processes, p.completed = false → p.status = 0 := by
  induction arises with
  | start group command pids =>
    intro p mem _
    obtain ⟨pid,-,rfl⟩ := List.mem_map.mp mem
    rfl
  | @mark j pid raw _ ih =>
    intro p mem going
    rcases mem_markProcess mem with inside | ⟨q,inside,rfl⟩
    · exact ih p inside going
    · rw [JobProcess.report] at going ⊢
      split_ifs at going ⊢
      · exact ih q inside going
      · exact ih q inside going
  | stop _ ih =>
    intro p mem going
    obtain ⟨q,inside,rfl⟩ := List.mem_map.mp mem
    split_ifs at going ⊢ with ended
    · exact ih q inside going
    · exact ih q inside going
  | run _ ih =>
    intro p mem going
    obtain ⟨q,inside,rfl⟩ := List.mem_map.mp mem
    exact ih q inside going
  | vanish _ ih =>
    intro p mem going
    obtain ⟨q,inside,rfl⟩ := List.mem_map.mp mem
    split_ifs at going ⊢ with ended
    exact ih q inside going
  | record id notified _ ih => exact ih

section
variable {σ : Type} [Kernel σ]

/-- The wait ends at the first stop of a process. -/
theorem exists_await_stop {j : Job} {front later : List Report} {pid : Pid} {raw : WaitStatus} (distinct : j.pids.Nodup)
    (goes : j.GoesOn) (once : j.EndsOnce (front ++ some (pid,raw) :: later)) (mine : pid ∈ j.pids)
    (stop : WaitStatus.isStopped raw = true) (calm : j.NeverStops front) (s : σ) :
    ∃ t, j.await (⟨s,front ++ some (pid,raw) :: later⟩ : Foretold σ) =
      ((148,true),{ j with processes := j.processes.map fun p => { settled front p with stopped := p.pid == pid } },
        ⟨t,later⟩) := by
  have unended := once.unended mine
  have stopped := after_stop distinct goes once.of_append calm stop pid
  have verdict : (j.after (front ++ [some (pid,raw)])).verdict? = some (148,true) := by
    obtain ⟨p,mem,rfl⟩ := List.mem_map.mp mine
    rw [verdict?_eq,if_pos,stoppedStatus]
    rw [stopped,List.any_eq_true]
    exact ⟨_,List.mem_map_of_mem mem,beq_self_eq_true _⟩
  have quiet : ∀ a, a <+: front → (j.after a).verdict? = none := by
    rintro a ⟨b,rfl⟩
    exact verdict?_unended distinct goes once.of_append.of_append calm.of_append mine
      (firstEnding?_eq_none_of_start (List.prefix_append a b) unended)
  obtain ⟨used,y,split,before,ended⟩ := concludes_await j (⟨s,front ++ some (pid,raw) :: later⟩ : Foretold σ)
  dsimp only at split
  -- Until the stop there is no verdict, and there are reports left.
  have beyond : ¬ used <+: front := by
    intro start
    rcases ended with ⟨v,verdict,-⟩ | ⟨nothing,-⟩
    · rw [quiet used start] at verdict
      cases verdict
    · have length := congrArg List.length split
      have short := start.length_le
      simp only [nothing,List.length_append,List.length_cons,List.append_nil] at length
      omega
  obtain ⟨more,rfl,rest⟩ : ∃ more, used = front ++ more ∧ some (pid,raw) :: later = more ++ y.reports := by
    rcases List.append_eq_append_iff.mp split.symm with ⟨more,whole,-⟩ | found
    · exact absurd ⟨more,whole.symm⟩ beyond
    · exact found
  cases more with
  | nil => exact absurd (by simp) beyond
  | cons r more =>
    obtain ⟨rfl,left⟩ := List.cons.inj rest
    cases more with
    | cons r' more =>
      have none_ := before (front ++ [some (pid,raw)]) (r' :: more) (by simp) (by simp)
      rw [verdict] at none_
      cases none_
    | nil =>
      rcases ended with ⟨v,given,result⟩ | ⟨-,none_,-⟩
      · rw [verdict,Option.some.injEq] at given
        subst given
        refine ⟨y.system,?_⟩
        rw [result,stopped,show later = y.reports from left]
      · rw [verdict] at none_
        cases none_

/-- The wait ends with the job when none of its processes is stopped. -/
theorem exists_await_ended {j : Job} {reports : List Report} (distinct : j.pids.Nodup) (goes : j.GoesOn)
    (once : j.EndsOnce reports) (calm : j.NeverStops reports) (s : σ) :
    ∃ t later, later <:+ reports ∧ j.await (⟨s,reports⟩ : Foretold σ) =
      (((j.processes.getLast?.map fun p => WaitStatus.exitCode (settled reports p).status).getD 0,false),
        { j with processes := j.processes.map fun p => { settled reports p with completed := true } },⟨t,later⟩) := by
  obtain ⟨used,⟨t,left⟩,split,-,ended⟩ := concludes_await j (⟨s,reports⟩ : Foretold σ)
  dsimp only at split
  subst split
  have processes := processes_after distinct goes once.of_append calm.of_append
  have whole : j.after used = { j with processes := j.processes.map (settled used) } := by
    rw [← processes]
    exact follow_eq j _
  refine ⟨t,left,List.suffix_append used left,?_⟩
  rcases ended with ⟨v,verdict,result⟩ | ⟨nothing,-,status,verdict,result⟩
  · rw [verdict?_after distinct goes once.of_append calm.of_append] at verdict
    split_ifs at verdict with all
    -- What is reported on a process after its end would not matter.
    have same : ∀ p ∈ j.processes, settled (used ++ left) p = settled used p := by
      intro p mem
      obtain ⟨raw,ended⟩ := Option.isSome_iff_exists.mp (all p mem)
      have first : firstEnding? p.pid (used ++ left) = some raw := by
        rw [firstEnding?,List.findSome?_append,show used.findSome? (ending? p.pid) = some raw from ended,Option.some_or]
      rw [settled,settled,first,ended]
    have ended : j.processes.map (fun p => { settled (used ++ left) p with completed := true }) =
        j.processes.map (settled used) := by
      refine List.map_congr_left fun p mem => ?_
      rw [same p mem,← (completed_settled used (goes p mem).1).trans (all p mem)]
    have last : (j.processes.getLast?.map fun p => WaitStatus.exitCode (settled (used ++ left) p).status) =
        j.processes.getLast?.map fun p => WaitStatus.exitCode (settled used p).status := by
      refine Option.map_congr fun p mem => ?_
      rw [same p (List.mem_of_getLast? mem)]
    rw [result,whole,ended,last,← Option.some.inj verdict]
  · obtain rfl : left = [] := nothing
    have ended : (j.after used).markVanished =
        { j with processes := j.processes.map fun p => { settled used p with completed := true } } := by
      rw [whole,markVanished]
      simp only [List.map_map]
      congr 1
      refine List.map_congr_left fun p mem => ?_
      rw [Function.comp_apply]
      split_ifs with completed
      · rw [← completed]
      · rw [← stopped_settled used (goes p mem).2]
    have last := status_of_verdict verdict
    rw [ended,List.getLast?_map,Option.map_map] at last
    rw [result,ended,last,List.append_nil]
    rfl

/-- **The verdict on a foreground job.** Let the processes of a job go on and have different numbers, and let reports come,
    none on a process of the job after its end, and then no child. The wait ends at the first report that a process of
    the job is stopped, with status 148 and with the later reports still to come. Without such a report it ends when all
    processes have, or with the reports, and its status is that of the last process as reported, zero if it was not. -/
theorem await_foretold {j : Job} {reports : List Report} (nonempty : j.processes ≠ []) (distinct : j.pids.Nodup)
    (goes : j.GoesOn) (once : j.EndsOnce reports) (s : σ) :
    (∀ front pid raw later, reports = front ++ some (pid,raw) :: later → pid ∈ j.pids →
      WaitStatus.isStopped raw = true → j.NeverStops front → ∃ t, j.await (⟨s,reports⟩ : Foretold σ) =
        ((148,true),{ j with processes := j.processes.map fun p => { settled front p with stopped := p.pid == pid } },
          ⟨t,later⟩)) ∧
    (j.NeverStops reports → ∃ c t later, later <:+ reports ∧ j.await (⟨s,reports⟩ : Foretold σ) =
        ((c,false),{ j with processes := j.processes.map fun p => { settled reports p with completed := true } },
          ⟨t,later⟩) ∧
      c = WaitStatus.exitCode
        ((firstEnding? (j.processes.getLast nonempty).pid reports).getD (j.processes.getLast nonempty).status) ∧
      (j.Arises →
        c = ((firstEnding? (j.processes.getLast nonempty).pid reports).map WaitStatus.exitCode).getD 0)) := by
  constructor
  · rintro front pid raw later rfl mine stop calm
    exact exists_await_stop distinct goes once mine stop calm s
  · intro calm
    obtain ⟨t,later,left,result⟩ := exists_await_ended distinct goes once calm s
    have status : WaitStatus.exitCode (settled reports (j.processes.getLast nonempty)).status = WaitStatus.exitCode
        ((firstEnding? (j.processes.getLast nonempty).pid reports).getD (j.processes.getLast nonempty).status) := by
      rw [status_settled]
    rw [List.getLast?_eq_some_getLast nonempty,Option.map_some,Option.getD_some,status] at result
    refine ⟨_,t,later,left,result,rfl,fun arises => ?_⟩
    have mem := List.getLast_mem nonempty
    rw [arises.status_eq_zero _ mem (goes _ mem).1]
    cases firstEnding? (j.processes.getLast nonempty).pid reports <;> rfl

/-- Three processes that end in the reverse order, after one of them went on; there are also reports on another job. -/
theorem await_foretold_reversed :
    let j := Job.start 100 (txt "a | b | c") [100,101,102]
    let reports : List Report := [some (102,WaitStatus.exited 3),none,some (100,0xffff),some (7,WaitStatus.stopped 19),
      some (101,WaitStatus.signaled 9),some (100,WaitStatus.exited 0),some (7,WaitStatus.exited 5)]
    let m := Machine.start ⟨[]⟩ [] [] .empty 0
    (∃ t later, j.await (⟨m,reports⟩ : Foretold Machine) = ((3,false),{ j with processes :=
      [⟨100,100,true,false,0⟩,⟨101,100,true,false,9⟩,⟨102,100,true,false,768⟩] },⟨t,later⟩)) ∧
    ∃ t, j.await (⟨m,some (101,WaitStatus.stopped 20) :: reports⟩ : Foretold Machine) = ((148,true),{ j with processes :=
      [⟨100,100,false,false,0⟩,⟨101,100,false,true,0⟩,⟨102,100,false,false,0⟩] },⟨t,reports⟩) := by
  intro j reports m
  have nonempty : j.processes ≠ [] := by decide
  have distinct : j.pids.Nodup := by decide
  have goes : j.GoesOn := by decide
  constructor
  · have once : j.EndsOnce reports := by decide
    have ended := (await_foretold nonempty distinct goes once m).2
    obtain ⟨c,t,later,-,result,-,status⟩ := ended (by decide)
    obtain rfl : c = 3 := (status (.start 100 (txt "a | b | c") [100,101,102])).trans rfl
    exact ⟨t,later,result.trans rfl⟩
  · have once : j.EndsOnce (some (101,WaitStatus.stopped 20) :: reports) := by decide
    have stops := (await_foretold nonempty distinct goes once m).1
    obtain ⟨t,result⟩ := stops [] 101 (WaitStatus.stopped 20) reports rfl (by decide) (by decide) (by decide)
    exact ⟨t,result.trans rfl⟩

end
end Job
end JobShell

import JobShell.Proofs.Job.Foreground
import JobShell.Proofs.Job.Numbers
import JobShell.Proofs.Session.Breakdown
import JobShell.Proofs.Session.Watching

/-!
# Jobs that go on

`fg` and `bg` first collect what has happened to the jobs. In the table that
comes of this they choose one job, or none. Only the processes of the chosen job
are signalled and waited for, and only this job changes or goes away.
-/
namespace JobShell

/-! ### The job that is chosen -/

namespace JobTable

/-- An argument chooses the first job of the table that has the number that it names. -/
structure Chooses (t : JobTable) (arg : Option Text) (a : JobTable) (j : Job) (b : JobTable) : Prop where
  place : t = a ++ j :: b
  others : ∀ i ∈ a, i.id ≠ j.id
  names : t.resolve arg = .ok j.id

theorem mem_ids_of_resolve {t : JobTable} {arg : Option Text} {id : Nat} (named : t.resolve arg = .ok id) : id ∈ t.ids := by
  cases arg with
  | none => exact ((resolve_none_iff t id).mp named).1
  | some arg =>
    rw [resolve] at named
    split at named
    · split at named
      · next found =>
        cases named
        exact (isSome_job?_iff t _).mp found
      · cases named
    · cases named

theorem exists_chooses {t : JobTable} {arg : Option Text} {id : Nat} (named : t.resolve arg = .ok id) :
    ∃ a j b, t.Chooses arg a j b := by
  obtain ⟨j,found⟩ := Option.isSome_iff_exists.mp ((isSome_job?_iff t id).mpr (mem_ids_of_resolve named))
  obtain ⟨number,a,b,place,others⟩ := List.find?_eq_some_iff_append.mp found
  obtain rfl : j.id = id := by simpa using number
  exact ⟨a,j,b,place,fun i mem => by simpa using others i mem,named⟩

section
variable {a b : JobTable} {j : Job} {id : Nat} (others : ∀ i ∈ a, i.id ≠ id) (number : j.id = id)
include others number

theorem job?_append : job? (a ++ j :: b) id = some j :=
  List.find?_eq_some_iff_append.mpr ⟨by simpa using number,a,b,rfl,fun i mem => by simpa using others i mem⟩

theorem modify_append (f : Job → Job) : modify id f (a ++ j :: b) = a ++ f j :: b := by
  induction a with
  | nil => exact if_pos (by simpa using number)
  | cons i a ih =>
    obtain ⟨other,others⟩ := List.forall_mem_cons.mp others
    rw [List.cons_append,modify,if_neg (by simpa using other),ih others,List.cons_append]

theorem remove_append : remove id (a ++ j :: b) = a ++ b := by
  rw [remove_eq_eraseP,List.eraseP_append_right _ (fun i mem => by simpa using others i mem),
    List.eraseP_cons_of_pos (by simpa using number)]

end

/-- Nothing is heard of a group. -/
theorem collectGroup_of_poll {σ : Type} [Kernel σ] {group : Pid} {s : σ}
    (nothing : (Kernel.poll group s).1 = none) (t : JobTable) : collectGroup group t s = (t,(Kernel.poll group s).2) := by
  rw [collectGroup]
  split
  · next s' polled => rw [polled]
  · next pid raw s' polled => simp [polled] at nothing

end JobTable

namespace Job

/-- How a job that goes on in the foreground comes out of the answers to the wait, with the status and the table of jobs:
    it has ended and goes away, or it is stopped as a whole and keeps its place, its name and its processes. -/
inductive Outcome (a : JobTable) (j : Job) (b : JobTable) (answers : List Waited) : Int → JobTable → Prop where
  | ended {status : Int} (state : (j.markRunning.follow answers).state = .done status) :
      Outcome a j b answers status (a ++ b)
  | stopped {k : Job} (halts : (j.markRunning.follow answers).state = .stopped)
      (whole : k = (j.markRunning.follow answers).markStopped) (named : k = { j with processes := k.processes })
      (pids : k.pids = j.pids) (state : k.state = .stopped) : Outcome a j b answers 148 (a ++ k :: b)

theorem outcome_stopped {j : Job} {answers : List Waited} {status : Int}
    (verdict : (j.markRunning.follow answers).verdict? = some (status,true)) (a b : JobTable) :
    Outcome a j b answers status (a ++ (j.markRunning.follow answers).markStopped :: b) := by
  obtain ⟨halts,rfl⟩ := stopped_of_verdict verdict
  refine .stopped halts rfl ?_ ?_ (state_markStopped verdict)
  · rw [markStopped,follow_eq]
    rfl
  · rw [pids_markStopped,pids_follow,pids_markRunning]

end Job

/-! ### What an action leaves -/

namespace Writing
variable {σ : Type} {α β : Type}

/-- The action comes to its end; its value, the shell that it leaves and what it did are as told. -/
def Leaves (a : Writing (Watched σ) α) (s : Session (Watched σ)) (Q : α → Shell → List Deed → Prop) : Prop :=
  ∃ v t l, Ends a s v t ∧ s.system.Does t.system l ∧ Q v t.shell l

theorem leaves_pure {v : α} {s : Session (Watched σ)} {Q : α → Shell → List Deed → Prop} (holds : Q v s.shell []) :
    Leaves (pure v) s Q := ⟨v,s,[],ends_pure v s,s.system.does_refl,holds⟩

/-- An action that does nothing but change the shell, and what follows it. -/
theorem leaves_modifyShell_bind {f : Shell → Shell} {g : Unit → Writing (Watched σ) β} {s : Session (Watched σ)}
    {Q : β → Shell → List Deed → Prop} (rest : ∀ t : Session (Watched σ), t.shell = f s.shell → Leaves (g ()) t Q) :
    Leaves (act (Act.modifyShell f) >>= g) s Q := by
  obtain ⟨w,u,m,later,does,holds⟩ := rest ⟨f s.shell,s.system⟩ rfl
  exact ⟨w,u,m,(ends_act (Act.yields_modifyShell f s)).bind later,does,holds⟩

/-- An action that leaves the shell as it was, and what follows it. -/
theorem leaves_performs_bind {a : Act (Watched σ) α} {f : α → Writing (Watched σ) β} {P : α → List Deed → Prop}
    {s : Session (Watched σ)} {Q : β → Shell → List Deed → Prop} (first : Act.Performs a P)
    (rest : ∀ v t l, t.shell = s.shell → P v l → Leaves (f v) t (fun w shell m => Q w shell (l ++ m))) :
    Leaves (act a >>= f) s Q := by
  obtain ⟨v,t,l,yields,same,does,holds⟩ := first s
  obtain ⟨w,u,m,later,does',holds'⟩ := rest v t l same holds
  exact ⟨w,u,l ++ m,(ends_act yields).bind later,does.trans does',holds'⟩

/-- An action with known deeds that is done under a condition, and what follows it in any case. -/
theorem leaves_when_bind {p : Prop} [Decidable p] {a : Act (Watched σ) Unit} {f : Unit → Writing (Watched σ) β} {m : List Deed}
    {s : Session (Watched σ)} {Q : β → Shell → List Deed → Prop} (first : Act.Performs a (fun _ l => l = m))
    (rest : ∀ t : Session (Watched σ), t.shell = s.shell →
      Leaves (f ()) t (fun w shell l => Q w shell ((if p then m else []) ++ l))) :
    Leaves (if p then act a >>= f else f ()) s Q := by
  by_cases holds : p
  · simp only [if_pos holds] at rest ⊢
    refine leaves_performs_bind first fun _ t l same done => ?_
    rw [done]
    exact rest t same
  · simp only [if_neg holds,List.nil_append] at rest ⊢
    exact rest s rfl

/-- Writing to a channel that takes everything, and what follows it. -/
theorem leaves_print_bind [Kernel σ] {c : Channel} (accepts : Kernel.Accepts (Watched σ) c) {t : Text}
    {f : Unit → Writing (Watched σ) β} {s : Session (Watched σ)} {Q : β → Shell → List Deed → Prop}
    (rest : ∀ u : Session (Watched σ), u.shell = s.shell → Leaves (f ()) u Q) : Leaves (print c t >>= f) s Q := by
  obtain ⟨v,u,ends⟩ := total_print accepts t s
  obtain ⟨w,u',l,wrote,same,does,rfl⟩ := Act.quiet_writeText c t s
  obtain ⟨-,rfl⟩ := Act.Yields.unique ends wrote
  obtain ⟨x,y,m,later,does',holds⟩ := rest u same
  exact ⟨x,y,m,ends.bind later,does.trans does',holds⟩

end Writing

theorem Watched.accepts {σ : Type} [Kernel σ] {c : Channel} (accepts : Kernel.Accepts σ c) :
    Kernel.Accepts (Watched σ) c := by
  intro b s
  obtain ⟨t,written⟩ := accepts b s.system
  exact ⟨s.along t,congrArg (Except.map s.along) written⟩

namespace Act
variable {σ : Type} [Kernel σ]

/-- The session once what has happened to the jobs is collected. -/
def collected (s : Session σ) : Session σ :=
  ⟨{ s.shell with jobs := (s.shell.jobs.collect s.system).1 },(s.shell.jobs.collect s.system).2⟩

theorem yields_collectJobs (s : Session σ) : Yields collectJobs s () (collected s) := by
  have collects : Yields (operate fun t => s.shell.jobs.collect t) s (s.shell.jobs.collect s.system).1
      ⟨s.shell,(s.shell.jobs.collect s.system).2⟩ := yields_operate (Prod.eta _).symm
  refine (yields_shell s).bind (collects.bind ?_)
  exact yields_modifyShell (fun shell => { shell with jobs := (s.shell.jobs.collect s.system).1 }) _

end Act

/-! ### The commands -/

namespace Builtin
open Writing

section
variable {σ : Type} [Kernel σ] {args : List Text} {s : Session σ}

theorem yields_chosenJob_error {e : JobError} (refused : (Act.collected s).shell.jobs.resolve args.head? = .error e) :
    Act.Yields (chosenJob args) s (.error e) (Act.collected s) := by
  refine (Act.yields_collectJobs s).bind ((Act.yields_shell _).bind ?_)
  simp only [refused]
  exact Act.yields_pure _ _

theorem yields_chosenJob_ok {a b : JobTable} {j : Job}
    (chosen : (Act.collected s).shell.jobs.Chooses args.head? a j b) :
    Act.Yields (chosenJob args) s (.ok j) (Act.collected s) := by
  have found : (Act.collected s).shell.jobs.job? j.id = some j := by
    rw [chosen.place]
    exact JobTable.job?_append chosen.others rfl
  refine (Act.yields_collectJobs s).bind ((Act.yields_shell _).bind ?_)
  simp only [chosen.names,found]
  exact Act.yields_pure _ _

end

section
variable {σ : Type} [Kernel σ] (c : Channels)

/-- A command of a session that begins to be watched ends with a status and leaves a table of jobs, after looks at what
    has happened and the deeds that are told. Nothing else of the shell is changed. -/
def Settles (argv : List Text) (s : Session σ) (status : Int) (jobs : JobTable) (l : List Deed) : Prop :=
  ∃ looks t, Looks looks ∧ Act.Yields (run? c argv) ⟨s.shell,Watched.begin s.system⟩ (some status) t ∧
    t.shell = { s.shell with jobs := jobs } ∧ t.system.deeds = looks ++ l

/-- The table of jobs that such a command chooses from. -/
def choices (s : Session σ) : JobTable := (Act.collected ⟨s.shell,Watched.begin s.system⟩).shell.jobs

variable {c}

theorem exists_settles {name : Text} {args : List Text} {s : Session σ} {r : Except JobError Job}
    {f : Except JobError Job → Writing (Watched σ) Int} {Q : Int → JobTable → List Deed → Prop}
    (known : command? c name args = some (act (chosenJob args) >>= f))
    (chosen : Act.Yields (chosenJob args) ⟨s.shell,Watched.begin s.system⟩ r (Act.collected ⟨s.shell,Watched.begin s.system⟩))
    (rest : Leaves (f r) (Act.collected ⟨s.shell,Watched.begin s.system⟩) (fun status shell l =>
      shell = { s.shell with jobs := shell.jobs } ∧ Q status shell.jobs l)) :
    ∃ status jobs l, Settles c (name :: args) s status jobs l ∧ Q status jobs l := by
  obtain ⟨looks,collects,only⟩ :=
    JobTable.looks_collectGroups s.shell.jobs.liveGroups s.shell.jobs (Watched.begin s.system)
  obtain ⟨status,t,l,ends,does,same,holds⟩ := rest
  have whole : Ends (act (chosenJob args) >>= f) ⟨s.shell,Watched.begin s.system⟩ status t := (ends_act chosen).bind ends
  refine ⟨status,t.shell.jobs,l,⟨looks,t,only,?_,same,?_⟩,holds⟩
  · simp only [run?,known]
    exact Act.Yields.bind whole (Act.yields_pure _ t)
  · simpa [Watched.begin] using (collects.trans does).deeds

theorem settles_of_leaves {name : Text} {args : List Text} {s : Session σ} {r : Except JobError Job}
    {f : Except JobError Job → Writing (Watched σ) Int} {status : Int} {jobs : JobTable} {l : List Deed}
    (known : command? c name args = some (act (chosenJob args) >>= f))
    (chosen : Act.Yields (chosenJob args) ⟨s.shell,Watched.begin s.system⟩ r (Act.collected ⟨s.shell,Watched.begin s.system⟩))
    (rest : Leaves (f r) (Act.collected ⟨s.shell,Watched.begin s.system⟩) (fun v shell m =>
      v = status ∧ shell = { s.shell with jobs := jobs } ∧ m = l)) : Settles c (name :: args) s status jobs l := by
  obtain ⟨_,t,_,ends,does,rfl,same,rfl⟩ := rest
  have whole : ∃ status' jobs' l', Settles c (name :: args) s status' jobs' l' ∧ status' = _ ∧ jobs' = jobs ∧ l' = _ :=
    exists_settles known chosen ⟨_,t,_,ends,does,by rw [same],rfl,congrArg Shell.jobs same,rfl⟩
  obtain ⟨_,_,_,settles,rfl,rfl,rfl⟩ := whole
  exact settles

section
variable (reliable : c.Reliable (Watched σ))
include reliable

/-- A command that says why it does nothing. -/
theorem leaves_refusal (t : Text) {s : Session (Watched σ)} {Q : Int → Shell → List Deed → Prop} (holds : Q 1 s.shell []) :
    Leaves (do fail c t; return (1 : Int)) s Q := by
  refine leaves_print_bind reliable.errors fun u same => leaves_pure ?_
  rw [same]
  exact holds

theorem settles_bg_stopped {s : Session σ} {args : List Text} {a b : JobTable} {j : Job}
    (chosen : (choices s).Chooses args.head? a j b) (stopped : j.state = .stopped) :
    Settles c (txt "bg" :: args) s 0 (a ++ j.markRunning :: b) [.signaled j.group Act.continueSignal] := by
  refine settles_of_leaves rfl (yields_chosenJob_ok chosen) ?_
  simp only [stopped]
  refine leaves_performs_bind (Act.performs_continueGroup j.group) fun _ t l same sent => ?_
  refine leaves_modifyShell_bind fun u changed => leaves_print_bind reliable.output fun v same' => leaves_pure ?_
  have table : (choices s).modify j.id Job.markRunning = a ++ j.markRunning :: b := by
    rw [chosen.place]
    exact JobTable.modify_append chosen.others rfl _
  rw [same',changed,same,sent,← table]
  exact ⟨rfl,rfl,List.append_nil _⟩

theorem settles_bg_unstopped {s : Session σ} {args : List Text} {a b : JobTable} {j : Job}
    (chosen : (choices s).Chooses args.head? a j b) (going : j.state ≠ .stopped) :
    Settles c (txt "bg" :: args) s 1 (choices s) [] := by
  refine settles_of_leaves rfl (yields_chosenJob_ok chosen) ?_
  cases state : j.state with
  | running =>
    simp only [state]
    exact leaves_refusal reliable _ ⟨rfl,rfl,rfl⟩
  | done status =>
    simp only [state]
    exact leaves_refusal reliable _ ⟨rfl,rfl,rfl⟩
  | stopped => exact absurd state going

theorem settles_refused {s : Session σ} {args : List Text} {e : JobError} (refused : (choices s).resolve args.head? = .error e)
    {name : Text} (resumes : name = txt "fg" ∨ name = txt "bg") : Settles c (name :: args) s 1 (choices s) [] := by
  rcases resumes with rfl | rfl
  · exact settles_of_leaves rfl (yields_chosenJob_error refused) (leaves_refusal reliable _ ⟨rfl,rfl,rfl⟩)
  · exact settles_of_leaves rfl (yields_chosenJob_error refused) (leaves_refusal reliable _ ⟨rfl,rfl,rfl⟩)

theorem exists_settles_fg {s : Session σ} {args : List Text} {a b : JobTable} {j : Job}
    (chosen : (choices s).Chooses args.head? a j b) : ∃ status jobs l, Settles c (txt "fg" :: args) s status jobs l ∧
      ∃ answers, Job.Outcome a j b answers status jobs ∧
        l = (if j.state = .stopped then [.signaled j.group Act.continueSignal] else []) ++
          answers.map (.awaited j.group) := by
  refine exists_settles rfl (yields_chosenJob_ok chosen) ?_
  refine leaves_print_bind reliable.output fun t same => ?_
  refine leaves_when_bind (Act.performs_continueGroup j.group) fun u same' => ?_
  refine leaves_performs_bind (Act.performs_awaitForeground j.markRunning) fun v w l same'' waits => ?_
  obtain ⟨⟨status,halted⟩,k⟩ := v
  obtain ⟨answers,rfl,verdict,after : k = _⟩ := waits
  have kept : w.shell = { s.shell with jobs := a ++ j :: b } := by
    rw [same'',same',same,← chosen.place]
    rfl
  have number : j.id = (j.markRunning.follow answers).id := (congrArg Job.id (Job.follow_eq j.markRunning answers)).symm
  have others := chosen.others
  rw [number] at others
  -- The job that comes out of the wait has the number of the one that was chosen, and so is put in its place or removed.
  cases halted with
  | true =>
    obtain rfl : k = (j.markRunning.follow answers).markStopped := after
    refine leaves_modifyShell_bind fun x changed => leaves_print_bind reliable.errors fun y told => leaves_pure ?_
    rw [told,changed,kept]
    refine ⟨rfl,answers,?_,by rw [List.append_nil]; rfl⟩
    have outcome := Job.outcome_stopped verdict a b
    rw [← JobTable.modify_append others number fun _ => (j.markRunning.follow answers).markStopped] at outcome
    exact outcome
  | false =>
    obtain rfl : k = j.markRunning.follow answers := after
    refine leaves_modifyShell_bind fun x changed => ?_
    refine leaves_performs_bind (Act.quiet_log _ _) fun _ y l' logged quiet => leaves_pure ?_
    rw [logged,changed,kept,quiet]
    refine ⟨rfl,answers,?_,by rw [List.append_nil,List.append_nil]; rfl⟩
    have outcome : Job.Outcome a j b answers status (a ++ b) := .ended (Job.state_of_verdict verdict)
    rw [← JobTable.remove_append others number] at outcome
    exact outcome

end

/-- **Jobs that go on.** Let the channels take everything, and let what has happened to the jobs be collected. When an
    argument names no job of the table, `fg` and `bg` end with status one, send no signal and leave the table as it is;
    so does `bg` when the job is not stopped. Otherwise `bg` lets the processes of that job go on, which are then not
    stopped any more. After `fg` waited for them, the job is gone when all have ended, and its status is that of the
    command; or it is stopped and stands where it stood. All other jobs are as they were, in the order in which they
    were. -/
theorem fg_bg_touch_one (reliable : c.Reliable σ) (args : List Text) (s : Session σ) :
    (∃ e, (choices s).resolve args.head? = .error e ∧
      Settles c (txt "fg" :: args) s 1 (choices s) [] ∧ Settles c (txt "bg" :: args) s 1 (choices s) []) ∨
    ∃ a j b, (choices s).Chooses args.head? a j b ∧
      (j.state ≠ .stopped → Settles c (txt "bg" :: args) s 1 (choices s) []) ∧
      (j.state = .stopped →
        Settles c (txt "bg" :: args) s 0 (a ++ j.markRunning :: b) [.signaled j.group Act.continueSignal]) ∧
      ∃ answers status jobs, Job.Outcome a j b answers status jobs ∧
        Settles c (txt "fg" :: args) s status jobs
          ((if j.state = .stopped then [.signaled j.group Act.continueSignal] else []) ++
            answers.map (.awaited j.group)) := by
  have watched : c.Reliable (Watched σ) := ⟨Watched.accepts reliable.output,Watched.accepts reliable.errors⟩
  cases named : (choices s).resolve args.head? with
  | error e => exact .inl ⟨e,rfl,settles_refused watched named (.inl rfl),settles_refused watched named (.inr rfl)⟩
  | ok id =>
    obtain ⟨a,j,b,chosen⟩ := JobTable.exists_chooses named
    obtain ⟨status,jobs,l,settles,answers,outcome,rfl⟩ := exists_settles_fg watched chosen
    exact .inr ⟨a,j,b,chosen,settles_bg_unstopped watched chosen,settles_bg_stopped watched chosen,
      answers,status,jobs,outcome,settles⟩

end

/-- Two jobs, of which the first is stopped. -/
def twoJobs : JobTable :=
  [{ (Job.start 7 (txt "vi") [7]).markStopped with id := 1 },{ Job.start 8 (txt "make") [8] with id := 2 }]

/-- The first job goes on in the background. -/
theorem fg_bg_touch_one_first :
    Channels.standard.Reliable (Recorded Machine) ∧
    Settles .standard [txt "bg",txt "%1"] ⟨{ recordedSession.shell with jobs := twoJobs },recordedSession.system⟩ 0
      [{ Job.start 7 (txt "vi") [7] with id := 1 },{ Job.start 8 (txt "make") [8] with id := 2 }]
      [.signaled 7 Act.continueSignal] := by
  refine ⟨reliable_standard,?_⟩
  have table : choices ⟨{ recordedSession.shell with jobs := twoJobs },recordedSession.system⟩ = twoJobs := by
    have live : twoJobs.liveGroups = [7,8] := by decide
    simp only [choices,Act.collected,JobTable.collect,live,JobTable.collectGroups]
    rw [JobTable.collectGroup_of_poll (rfl : (Kernel.poll 7 (Watched.begin recordedSession.system)).1 = none),
      JobTable.collectGroup_of_poll rfl]
  have first : twoJobs.resolve [txt "%1"].head? = .ok 1 := rfl
  rcases fg_bg_touch_one reliable_standard [txt "%1"]
    ⟨{ recordedSession.shell with jobs := twoJobs },recordedSession.system⟩ with ⟨e,refused,-⟩ | ⟨a,j,b,chosen,-,goes,-⟩
  · rw [table,first] at refused
    cases refused
  · obtain ⟨place,others,names⟩ := table ▸ chosen
    have number : 1 = j.id := Except.ok.inj (first.symm.trans names)
    cases a with
    | nil =>
      obtain ⟨rfl,rfl⟩ := List.cons.inj place
      exact goes (by decide)
    | cons i a =>
      obtain ⟨rfl,-⟩ := List.cons.inj place
      exact absurd number (others _ List.mem_cons_self)

end Builtin
end JobShell

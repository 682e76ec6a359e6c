import JobShell.Proofs.Job.Verdict
import JobShell.Proofs.Session.Commands

/-!
# What a shell does about processes

A record is kept of the processes that a shell starts, signals and waits for. A
copy of the shell has processes of its own, and what it does is not recorded. A
built-in command starts no process and makes no copy; so what is done in a copy
that runs one leaves the record of the shell as it was.
-/
namespace JobShell

/-- What is done about processes, with what the operating system answers. -/
inductive Deed where
  /-- A program is started, or the shell is copied. -/
  | started (answer : Except Errno Pid)
  | signaled (group : Pid) (number : Nat)
  /-- A change of a process of a group is waited for. -/
  | awaited (group : Pid) (answer : Waited)
  /-- The end of a process is waited for. -/
  | reaped (pid : Pid) (answer : Waited)
  | polled (group : Pid) (answer : Option (Pid × WaitStatus))

/-- The deeds are nothing but looks at what has happened. -/
def Looks (l : List Deed) : Prop := ∀ d ∈ l, ∃ group answer, d = .polled group answer

/-- A system whose shell is watched. -/
structure Watched (σ : Type) where
  system : σ
  /-- How many copies of the shell are at work, each made by the one before. -/
  copies : Nat
  /-- What the shell itself did, from first to last. -/
  deeds : List Deed

namespace Watched
variable {σ : Type}

/-- The system as a shell finds it that begins to be watched. -/
def begin (s : σ) : Watched σ := ⟨s,0,[]⟩

/-- The same record for another state of the system. -/
def along (s : Watched σ) (t : σ) : Watched σ := { s with system := t }

/-- What an operation of the system yields, with the record of before. -/
def carry {α : Type} (s : Watched σ) (r : α × σ) : α × Watched σ := (r.1,s.along r.2)

/-- The record with one more deed, if it is one of the shell itself. -/
def record (s : Watched σ) (t : σ) (d : Deed) : Watched σ :=
  ⟨t,s.copies,if s.copies = 0 then s.deeds ++ [d] else s.deeds⟩

/-- A copy begins its work. -/
def enter (s : Watched σ) : Watched σ := { s with copies := s.copies + 1 }

/-- A copy has ended its work. -/
def leave (s : Watched σ) : Watched σ := { s with copies := s.copies - 1 }

instance [Kernel σ] : Kernel (Watched σ) where
  environment s := Kernel.environment s.system
  setEnvironment b s := s.along (Kernel.setEnvironment b s.system)
  homeOf s := Kernel.homeOf s.system
  directory s := Kernel.directory s.system
  changeDirectory target s := (Kernel.changeDirectory target s.system).map s.along
  kindOf s := Kernel.kindOf s.system
  namesIn s := Kernel.namesIn s.system
  contentOf s := Kernel.contentOf s.system
  appendFile path b s := (Kernel.appendFile path b s.system).map s.along
  replaceFile path b s := (Kernel.replaceFile path b s.system).map s.along
  createDirectories path s := s.along (Kernel.createDirectories path s.system)
  openFile mode path s := (Kernel.openFile mode path s.system).map s.carry
  pipe s := (Kernel.pipe s.system).map s.carry
  close h s := s.along (Kernel.close h s.system)
  write c b s := (Kernel.write c b s.system).map s.along
  spawn l s :=
    let r := Kernel.spawn l s.system
    (r.1,s.record r.2 (.started r.1))
  fork group w s :=
    let r := Kernel.fork group w s.system
    (r.1,if r.1.isOk then (s.record r.2 (.started r.1)).enter else s.record r.2 (.started r.1))
  endFork status s := (s.along (Kernel.endFork status s.system)).leave
  beginCapture s := (Kernel.beginCapture s.system).map (fun t => (s.along t).enter)
  endCapture status s :=
    let r := Kernel.endCapture status s.system
    (r.1,(s.along r.2).leave)
  signalGroup group n s :=
    let r := Kernel.signalGroup group n s.system
    (r.1,s.record r.2 (.signaled group n))
  waitGroup group s :=
    let r := Kernel.waitGroup group s.system
    (r.1,s.record r.2 (.awaited group r.1))
  waitProcess pid s :=
    let r := Kernel.waitProcess pid s.system
    (r.1,s.record r.2 (.reaped pid r.1))
  poll group s :=
    let r := Kernel.poll group s.system
    (r.1,s.record r.2 (.polled group r.1))
  foreground s := Kernel.foreground s.system
  setForeground group s := s.along (Kernel.setForeground group s.system)
  giveTerminal group s := s.along (Kernel.giveTerminal group s.system)
  log l t s := s.along (Kernel.log l t s.system)
  events s := Kernel.events s.system
  log_events l t s := Kernel.log_events l t s.system
  waitGroup_events group s := Kernel.waitGroup_events group s.system
  waitProcess_events pid s := Kernel.waitProcess_events pid s.system
  poll_events group s := Kernel.poll_events group s.system

/-- From one state to the other some things are done, which are recorded unless they are those of a copy. The same copy is
    at work before and after. -/
structure Does (s t : Watched σ) (l : List Deed) : Prop where
  copies : t.copies = s.copies
  deeds : t.deeds = s.deeds ++ if s.copies = 0 then l else []

theorem does_refl (s : Watched σ) : Does s s [] := ⟨rfl,by simp⟩

theorem does_along (s : Watched σ) (t : σ) : Does s (s.along t) [] := ⟨rfl,by simp [along]⟩

theorem does_record (s : Watched σ) (t : σ) (d : Deed) : Does s (s.record t d) [d] := by
  constructor
  · rfl
  · by_cases own : s.copies = 0
    · simp [record,own]
    · simp [record,own]

theorem Does.trans {s t u : Watched σ} {l m : List Deed} (first : Does s t l) (next : Does t u m) :
    Does s u (l ++ m) := by
  constructor
  · rw [next.copies,first.copies]
  · rw [next.deeds,first.deeds,first.copies]
    by_cases own : s.copies = 0
    · simp [own]
    · simp [own]

/-- What is done in a copy is not recorded. -/
theorem Does.of_copy {s t : Watched σ} {l : List Deed} (does : Does s.enter t l) : Does s t.leave [] := by
  constructor
  · show t.copies - 1 = s.copies
    rw [does.copies]
    rfl
  · have same := does.deeds
    rw [if_neg (by simp [enter])] at same
    rw [ite_self]
    exact same

/-- What an operation yields that may fail. -/
theorem exists_of_map_eq_ok {ε α β : Type} {f : α → β} {x : Except ε α} {b : β} (mapped : x.map f = .ok b) :
    ∃ a, x = .ok a ∧ f a = b := by
  cases x with
  | error e => cases mapped
  | ok a =>
    cases mapped
    exact ⟨a,rfl,rfl⟩

/-- An operation that changes the system unless it fails. -/
theorem does_of_map {ε α : Type} {x : Except ε σ} {f : Watched σ → α × Watched σ} (keeps : ∀ u, (f u).2 = u)
    {s t : Watched σ} {v : α} (changed : (x.map s.along).map f = .ok (v,t)) : Does s t [] := by
  obtain ⟨u,along,same⟩ := exists_of_map_eq_ok changed
  obtain ⟨w,-,rfl⟩ := exists_of_map_eq_ok along
  have last := keeps (s.along w)
  rw [same] at last
  cases last
  exact s.does_along w

section
variable [Kernel σ]

theorem does_log (l : LogLevel) (t : Text) (s : Watched σ) : Does s (Kernel.log l t s) [] := does_along _ _

theorem does_write {c : Channel} {b : Bytes} {s t : Watched σ} (written : Kernel.write c b s = .ok t) : Does s t [] := by
  obtain ⟨u,-,rfl⟩ := exists_of_map_eq_ok written
  exact s.does_along u

theorem does_waitGroup {group : Pid} {s t : Watched σ} {answer : Waited} (waited : Kernel.waitGroup group s = (answer,t)) :
    Does s t [.awaited group answer] := by
  cases waited
  exact does_record ..

theorem does_waitProcess {pid : Pid} {s t : Watched σ} {answer : Waited} (waited : Kernel.waitProcess pid s = (answer,t)) :
    Does s t [.reaped pid answer] := by
  cases waited
  exact does_record ..

theorem does_poll {group : Pid} {s t : Watched σ} {answer : Option (Pid × WaitStatus)}
    (polled : Kernel.poll group s = (answer,t)) : Does s t [.polled group answer] := by
  cases polled
  exact does_record ..

end
end Watched

/-! ### Waiting -/

namespace Job

section
variable {σ : Type} [Kernel σ]

theorem does_note (j : Job) (pid : Pid) (raw : WaitStatus) (s : Watched σ) : s.Does (j.note pid raw s).2 [] := by
  unfold note
  dsimp only
  split
  · exact Watched.does_log _ _ s
  · exact s.does_refl

/-- Waiting for a job takes answers until there is a verdict on it. -/
theorem does_await (j : Job) (s : Watched σ) : ∃ l : List Waited,
    s.Does (j.await s).2.2 (l.map (.awaited j.group)) ∧ (j.await s).2.1 = j.follow l ∧
      (j.follow l).verdict? = some (j.await s).1 := by
  fun_induction await j s with
  | case1 j s v verdict => exact ⟨[],s.does_refl,rfl,verdict⟩
  | case2 j s running pid raw s' waited _ ih =>
    obtain ⟨l,does,after,verdict⟩ := ih
    exact ⟨.changed pid raw :: l,(Watched.does_waitGroup waited).trans ((j.does_note pid raw s').trans does),after,verdict⟩
  | case3 j s running s' waited _ ih =>
    obtain ⟨l,does,after,verdict⟩ := ih
    exact ⟨.interrupted :: l,(Watched.does_waitGroup waited).trans does,after,verdict⟩
  | case4 j s running s' waited =>
    obtain ⟨status,verdict⟩ := verdict?_markVanished running
    refine ⟨[.noChild],Watched.does_waitGroup waited,rfl,?_⟩
    rw [verdict]
    exact verdict

end
end Job

/-- Waiting for the end of a process takes answers until one is no interruption. -/
theorem does_awaitEnd {σ : Type} [Kernel σ] (pid : Pid) (s : Watched σ) : ∃ n answer, answer ≠ .interrupted ∧
    s.Does (awaitEnd pid s).2 (List.replicate n (.reaped pid .interrupted) ++ [.reaped pid answer]) := by
  fun_induction awaitEnd pid s with
  | case1 s p raw t waited => exact ⟨0,.changed p raw,nofun,Watched.does_waitProcess waited⟩
  | case2 s t waited _ ih =>
    obtain ⟨n,answer,last,does⟩ := ih
    refine ⟨n+1,answer,last,?_⟩
    rw [List.replicate_succ]
    exact (Watched.does_waitProcess waited).trans does
  | case3 s t waited => exact ⟨0,.noChild,nofun,Watched.does_waitProcess waited⟩

namespace Act

/-! ### Actions that make no copy -/

section
variable {σ : Type} {α β : Type}

/-- The action ends, or breaks down, in the copy in which it began. -/
def Stays (a : Act (Watched σ) α) : Prop := ∀ s : Session (Watched σ), ∃ l, s.system.Does (a.run s).2.system l

theorem stays_pure (v : α) : Stays (pure v : Act (Watched σ) α) := fun s => ⟨[],s.system.does_refl⟩

theorem stays_throw (e : Crash) : Stays (throw e : Act (Watched σ) α) := fun s => ⟨[],s.system.does_refl⟩

theorem Stays.bind {a : Act (Watched σ) α} {f : α → Act (Watched σ) β} (first : Stays a) (rest : ∀ v, Stays (f v)) :
    Stays (a >>= f) := by
  intro s
  obtain ⟨l,does⟩ := first s
  have step : (a >>= f).run s = (match a.run s with | (x,t) => ExceptT.bindCont f x t) := rfl
  rw [step]
  cases result : a.run s with
  | mk x t =>
    rw [result] at does
    cases x with
    | error e => exact ⟨l,does⟩
    | ok v =>
      obtain ⟨m,later⟩ := rest v t
      exact ⟨l ++ m,does.trans later⟩

theorem stays_shell : Stays (shell : Act (Watched σ) Shell) := fun s => ⟨[],s.system.does_refl⟩

theorem stays_modifyShell (f : Shell → Shell) : Stays (modifyShell f : Act (Watched σ) Unit) :=
  fun s => ⟨[],s.system.does_refl⟩

theorem stays_operate {f : Watched σ → α × Watched σ} (does : ∀ s : Watched σ, ∃ l, s.Does (f s).2 l) :
    Stays (operate f) :=
  fun s => does s.system

/-- The action ends with a value and some deeds, and the shell is as it was. -/
def Performs (a : Act (Watched σ) α) (P : α → List Deed → Prop) : Prop :=
  ∀ s, ∃ v t l, Yields a s v t ∧ t.shell = s.shell ∧ s.system.Does t.system l ∧ P v l

theorem Performs.stays {a : Act (Watched σ) α} {P : α → List Deed → Prop} (performs : Performs a P) : Stays a := by
  intro s
  obtain ⟨v,t,l,yields,-,does,-⟩ := performs s
  rw [(yields : a.run s = _)]
  exact ⟨l,does⟩

theorem Performs.bind {a : Act (Watched σ) α} {f : α → Act (Watched σ) β} {P : α → List Deed → Prop}
    {Q : β → List Deed → Prop} (first : Performs a P)
    (rest : ∀ v l, P v l → Performs (f v) (fun w m => Q w (l ++ m))) : Performs (a >>= f) Q := by
  intro s
  obtain ⟨v,t,l,yields,same,does,holds⟩ := first s
  obtain ⟨w,u,m,later,same',does',holds'⟩ := rest v l holds t
  exact ⟨w,u,l ++ m,yields.bind later,same'.trans same,does.trans does',holds'⟩

theorem Performs.mono {a : Act (Watched σ) α} {P Q : α → List Deed → Prop} (performs : Performs a P)
    (weaker : ∀ v l, P v l → Q v l) : Performs a Q := by
  intro s
  obtain ⟨v,t,l,yields,same,does,holds⟩ := performs s
  exact ⟨v,t,l,yields,same,does,weaker v l holds⟩

/-- The action ends, nothing of it is recorded, and the shell is as it was. -/
def Quiet (a : Act (Watched σ) α) : Prop := Performs a (fun _ l => l = [])

theorem Quiet.bind {a : Act (Watched σ) α} {f : α → Act (Watched σ) β} {Q : β → List Deed → Prop} (first : Quiet a)
    (rest : ∀ v, Performs (f v) Q) : Performs (a >>= f) Q := by
  apply Performs.bind first
  rintro v l rfl
  exact rest v

theorem performs_pure {v : α} {P : α → List Deed → Prop} (holds : P v []) : Performs (pure v : Act (Watched σ) α) P :=
  fun s => ⟨v,s,[],yields_pure v s,rfl,s.system.does_refl,holds⟩

theorem quiet_shell : Quiet (shell : Act (Watched σ) Shell) :=
  fun s => ⟨s.shell,s,[],yields_shell s,rfl,s.system.does_refl,rfl⟩

theorem quiet_modifySystem {f : Watched σ → Watched σ} (does : ∀ s : Watched σ, s.Does (f s) []) :
    Quiet (modifySystem f) :=
  fun s => ⟨(),_,[],yields_modifySystem f s,rfl,does s.system,rfl⟩

theorem performs_operate {f : Watched σ → α × Watched σ} {P : α → List Deed → Prop}
    (does : ∀ s : Watched σ, ∃ l, s.Does (f s).2 l ∧ P (f s).1 l) : Performs (operate f) P := by
  intro s
  obtain ⟨l,changes,holds⟩ := does s.system
  exact ⟨_,_,l,yields_operate rfl,rfl,changes,holds⟩

theorem quiet_attempt {ε α : Type} {f : Watched σ → Except ε (α × Watched σ)}
    (does : ∀ s v t, f s = .ok (v,t) → s.Does t []) : Quiet (attempt f) := by
  intro s
  cases tried : f s.system with
  | error e => exact ⟨_,s,[],yields_attempt_error tried,rfl,s.system.does_refl,rfl⟩
  | ok p => exact ⟨_,_,[],yields_attempt tried,rfl,does _ _ _ tried,rfl⟩

end

section
variable {σ : Type} [Kernel σ]

theorem quiet_log (l : LogLevel) (message : Text) : Quiet (log l message : Act (Watched σ) Unit) :=
  quiet_modifySystem fun s => Watched.does_log l message s

theorem quiet_writeText (c : Channel) (t : Text) : Quiet (writeText c t : Act (Watched σ) _) := by
  apply quiet_attempt
  intro s v t written
  exact Watched.does_of_map (fun _ => rfl) written

theorem stays_log (l : LogLevel) (message : Text) : Stays (log l message : Act (Watched σ) Unit) :=
  (quiet_log l message).stays

theorem stays_writeText (c : Channel) (t : Text) : Stays (writeText c t : Act (Watched σ) _) :=
  (quiet_writeText c t).stays

theorem stays_setVariable (name value : Text) : Stays (setVariable name value : Act (Watched σ) Unit) := by
  rw [setVariable]
  split
  · apply Stays.bind
    · exact (quiet_modifySystem fun s => s.does_along _).stays
    · intro _
      exact stays_modifyShell _
  · exact stays_throw _

theorem stays_unsetVariable (name : Text) : Stays (unsetVariable name : Act (Watched σ) Unit) := by
  rw [unsetVariable]
  split
  · apply Stays.bind
    · exact (quiet_modifySystem fun s => s.does_along _).stays
    · intro _
      exact stays_modifyShell _
  · exact stays_throw _

theorem changeDirectory_eq (target : Text) : (changeDirectory target : Act σ _) = do
    match ← attempt (fun s => (Kernel.changeDirectory target s).map (fun t => (Kernel.directory t,t))) with
    | .error e => return .error e
    | .ok new =>
      let old := (← shell).directory
      modifyShell (fun s => { s with directory := new })
      setVariable (txt "OLDPWD") old
      setVariable (txt "PWD") new
      return .ok () := by
  apply ExceptT.ext
  apply StateT.ext
  intro s
  cases there : Kernel.changeDirectory target s.system with
  | error e =>
    have tried : Yields (attempt fun s => (Kernel.changeDirectory target s).map (fun t => (Kernel.directory t,t))) s
        (.error e) s := yields_attempt_error (by rw [there]; rfl)
    refine Eq.trans ?_ (tried.run_bind _).symm
    refine ((yields_system s).run_bind _).trans ?_
    rw [there]
  | ok system =>
    have tried : Yields (attempt fun s => (Kernel.changeDirectory target s).map (fun t => (Kernel.directory t,t))) s
        (.ok (Kernel.directory system)) ⟨s.shell,system⟩ := yields_attempt (by rw [there]; rfl)
    refine Eq.trans ?_ (tried.run_bind _).symm
    refine ((yields_system s).run_bind _).trans ?_
    rw [there]
    rfl

theorem stays_changeDirectory (target : Text) : Stays (changeDirectory target : Act (Watched σ) _) := by
  rw [changeDirectory_eq]
  apply Stays.bind
  · apply (quiet_attempt _).stays
    intro s v t moved
    exact Watched.does_of_map (fun _ => rfl) moved
  · intro moved
    cases moved with
    | error e => exact stays_pure _
    | ok new =>
      refine stays_shell.bind fun old => (stays_modifyShell _).bind fun _ => ?_
      exact (stays_setVariable _ _).bind fun _ => (stays_setVariable _ _).bind fun _ => stays_pure _

theorem stays_complain (t : Text) : Stays (complain t : Act (Watched σ) Unit) := by
  refine (stays_writeText _ _).bind fun written => ?_
  cases written with
  | ok v => exact stays_pure _
  | error e => exact stays_throw _

end
end Act

/-! ### Jobs -/

section
variable {σ : Type} [Kernel σ]

theorem JobTable.does_note (pid : Pid) (raw : WaitStatus) (t : JobTable) (s : Watched σ) :
    s.Does (note pid raw t s).2 [] := by
  induction t with
  | nil => exact s.does_refl
  | cons j r ih =>
    rw [note]
    split
    · exact j.does_note pid raw s
    · exact ih

theorem JobTable.looks_collectGroup (group : Pid) (t : JobTable) (s : Watched σ) :
    ∃ l, s.Does (collectGroup group t s).2 l ∧ Looks l := by
  fun_induction collectGroup group t s with
  | case1 t s s' polled => exact ⟨_,Watched.does_poll polled,by simp [Looks]⟩
  | case2 t s pid raw s' polled _ ih =>
    obtain ⟨l,does,looks⟩ := ih
    refine ⟨_,(Watched.does_poll polled).trans ((does_note pid raw t s').trans does),?_⟩
    exact List.forall_mem_cons.mpr ⟨⟨_,_,rfl⟩,looks⟩

/-- To collect what has happened is to look, group by group. -/
theorem JobTable.looks_collectGroups (groups : List Pid) (t : JobTable) (s : Watched σ) :
    ∃ l, s.Does (collectGroups groups t s).2 l ∧ Looks l := by
  induction groups generalizing t s with
  | nil => exact ⟨[],s.does_refl,by simp [Looks]⟩
  | cons g r ih =>
    obtain ⟨l,first,looks⟩ := looks_collectGroup g t s
    obtain ⟨m,rest,looks'⟩ := ih (collectGroup g t s).1 (collectGroup g t s).2
    exact ⟨l ++ m,first.trans rest,List.forall_mem_append.mpr ⟨looks,looks'⟩⟩

namespace Act

theorem stays_collectJobs : Stays (collectJobs : Act (Watched σ) Unit) := by
  refine stays_shell.bind fun shell => ?_
  refine (stays_operate fun s => ?_).bind fun _ => stays_modifyShell _
  obtain ⟨l,does,-⟩ := JobTable.looks_collectGroups shell.jobs.liveGroups shell.jobs s
  exact ⟨l,does⟩

/-- A signal is sent, whether it reaches the processes or not. -/
theorem performs_continueGroup (group : Pid) :
    Performs (continueGroup group : Act (Watched σ) Unit) (fun _ l => l = [.signaled group continueSignal]) := by
  have sends : Performs (operate (Kernel.signalGroup group continueSignal) : Act (Watched σ) _)
      (fun _ l => l = [.signaled group continueSignal]) := performs_operate fun s => ⟨_,s.does_record _ _,rfl⟩
  refine sends.bind fun answer l sent => ?_
  subst sent
  cases answer with
  | none => exact performs_pure rfl
  | some e => exact (quiet_log _ _).mono fun _ _ none => by rw [none,List.append_nil]

theorem stays_continueGroup (group : Pid) : Stays (continueGroup group : Act (Watched σ) Unit) :=
  (performs_continueGroup group).stays

/-- A job in the foreground is waited for until there is a verdict on it. -/
theorem performs_awaitForeground (j : Job) : Performs (awaitForeground j : Act (Watched σ) _) (fun r l =>
    ∃ answers, l = answers.map (.awaited j.group) ∧ (j.follow answers).verdict? = some r.1 ∧
      r.2 = if r.1.2 then (j.follow answers).markStopped else j.follow answers) := by
  refine quiet_shell.bind fun shell => performs_operate fun s => ?_
  have give : ∀ (t : Watched σ) group, t.Does (if shell.interactive then Kernel.giveTerminal group t else t) [] := by
    intro t group
    split
    · exact t.does_along _
    · exact t.does_refl
  have begun := (s.does_along (Kernel.setForeground j.group s.system)).trans (give _ j.group)
  obtain ⟨answers,waits,after,verdict⟩ := j.does_await (if shell.interactive then
    Kernel.giveTerminal j.group (Kernel.setForeground j.group s) else Kernel.setForeground j.group s)
  refine ⟨_,begun.trans (waits.trans ((give _ 0).trans (Watched.does_along _ _))),answers,?_,verdict,?_⟩
  · simp
  · rw [← after]

theorem stays_awaitForeground (j : Job) : Stays (awaitForeground j : Act (Watched σ) _) :=
  (performs_awaitForeground j).stays

end Act
end

/-! ### Built-in commands -/

namespace Writing
variable {σ : Type} {α β : Type}

/-- The action ends in the copy in which it began. -/
def Stays (a : Writing (Watched σ) α) : Prop := Act.Stays a.run

theorem stays_pure (v : α) : Stays (pure v : Writing (Watched σ) α) := Act.stays_pure _

theorem Stays.bind {a : Writing (Watched σ) α} {f : α → Writing (Watched σ) β} (first : Stays a)
    (rest : ∀ v, Stays (f v)) : Stays (a >>= f) := by
  refine Act.Stays.bind (f := ExceptT.bindCont f) first fun r => ?_
  cases r with
  | ok v => exact rest v
  | error e => exact Act.stays_pure _

theorem stays_act {a : Act (Watched σ) α} (stays : Act.Stays a) : Stays (act a) := by
  rw [Stays,run_act]
  exact stays.bind fun _ => Act.stays_pure _

end Writing

namespace Builtin
open Writing
variable {σ : Type} [Kernel σ] (c : Channels)

theorem stays_chosenJob (args : List Text) : Act.Stays (chosenJob args : Act (Watched σ) _) := by
  refine Act.stays_collectJobs.bind fun _ => Act.stays_shell.bind fun shell => ?_
  dsimp only
  split
  · exact Act.stays_pure _
  · split <;> exact Act.stays_pure _

theorem parts_stays : Parts (fun _ (a : Writing (Watched σ) _) => Stays a) c where
  pure := stays_pure
  bind first rest := first.bind rest
  output t := Act.stays_writeText _ t
  errors t := Act.stays_writeText _ t
  shell := stays_act Act.stays_shell
  modifyShell f := stays_act (Act.stays_modifyShell f)
  collectJobs := stays_act Act.stays_collectJobs
  chosenJob args := stays_act (stays_chosenJob args)
  continueGroup group := stays_act (Act.stays_continueGroup group)
  awaitForeground j := stays_act (Act.stays_awaitForeground j)
  log l t := stays_act (Act.stays_log l t)

theorem changing_stays : Changing (fun _ (a : Writing (Watched σ) _) => Stays a) c where
  pure := stays_pure
  bind first rest := first.bind rest
  output t := Act.stays_writeText _ t
  errors t := Act.stays_writeText _ t
  shell := stays_act Act.stays_shell
  setVariable name value := stays_act (Act.stays_setVariable name value)
  unsetVariable name := stays_act (Act.stays_unsetVariable name)
  changeDirectory target := stays_act (Act.stays_changeDirectory target)

/-- No built-in command starts a process or makes a copy of the shell. -/
theorem stays_run? (argv : List Text) : Act.Stays (run? c argv : Act (Watched σ) _) := by
  cases argv with
  | nil => exact Act.stays_pure _
  | cons name args =>
    simp only [run?]
    split
    · exact Act.stays_pure _
    · rename_i command known
      have changing : Changing (fun _ (a : Writing (Watched σ) _) => Stays a) c := changing_stays c
      have stays : Stays command := (parts_stays c).command (fun _ => changing.unset args)
        (fun _ => changing.exportVariables args) (fun _ => changing.cd args) command known
      refine Act.Stays.bind stays fun ended => ?_
      cases ended with
      | ok status => exact Act.stays_pure _
      | error e => exact (Act.stays_complain _).bind fun _ => Act.stays_pure _

end Builtin
end JobShell

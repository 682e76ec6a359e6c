import JobShell.Proofs.Session.Watching

/-!
# Starting and giving up stages

What is done about processes when stages are started, when their job is given up
and when it is kept. Every stage makes at most one attempt to start a process,
and the first that fails is the last that is tried. A job that is given up is
asked to end, and the end of each of its processes is then waited for.
-/
namespace JobShell

/-! ### Starting stages -/

/-- Processes are started one after the other. -/
def Deed.begun (pids : List Pid) : List Deed := pids.map (fun pid => .started (.ok pid))

/-- What comes of the attempt to start a stage. A program with an argument that holds the character zero is not even
    tried. -/
inductive Stage.Attempt (stage : Stage) : Except CommandError Pid → List Deed → Prop where
  | begun (pid : Pid) : Attempt stage (.ok pid) [.started (.ok pid)]
  | refused (e : Errno) : Attempt stage (.error (.notStarted e (stage.args.head?.getD []))) [.started (.error e)]
  | unfit (program : Text) (file : stage.program = some program)
      (zero : (program :: stage.args).any (·.contains '\x00') = true) :
      Attempt stage (.error (.notStarted Errno.invalid (stage.args.head?.getD []))) []

namespace Act
variable {σ : Type}

/-- A copy of the shell that makes no copy itself. -/
theorem Stays.inCopy {a : Act (Watched σ) Int} (stays : Stays a) : Performs (inCopy a) (fun _ _ => True) := by
  intro s
  obtain ⟨l,does⟩ := stays { s with shell := { s.shell with interactive := false } }
  change s.system.Does (a { s with shell := { s.shell with interactive := false } }).2.system l at does
  cases copy : a { s with shell := { s.shell with interactive := false } } with
  | mk result after =>
    rw [copy] at does
    cases result with
    | ok status =>
      have yields : Yields (Act.inCopy a) s status ⟨s.shell,after.system⟩ := by
        simp only [Yields,ExceptT.run,Act.inCopy,copy]
      exact ⟨status,_,l,yields,rfl,does,trivial⟩
    | error e =>
      have yields : Yields (Act.inCopy a) s crashStatus ⟨s.shell,after.system⟩ := by
        simp only [Yields,ExceptT.run,Act.inCopy,copy]
      exact ⟨crashStatus,_,l,yields,rfl,does,trivial⟩

variable [Kernel σ]

theorem performs_startProgram {stage : Stage} {program : Text} (file : stage.program = some program) (group : Pid)
    (w : Wiring) : Performs (startProgram program stage.args group w : Act (Watched σ) _) stage.Attempt := by
  rw [startProgram]
  split
  · rename_i zero
    exact performs_pure (.unfit program file zero)
  · apply Performs.bind (P := fun r l => l = [.started r])
    · exact performs_operate fun s => ⟨_,s.does_record _ _,rfl⟩
    · rintro r l rfl
      cases r with
      | error e => exact performs_pure (.refused e)
      | ok pid => exact (quiet_log _ _).bind fun _ => performs_pure (.begun pid)

/-- What a copy does until it ends is not recorded. -/
theorem exists_yields_copy {a : Act (Watched σ) Int} (stays : Stays a) (s : Session (Watched σ)) :
    ∃ status t u, Yields (inCopy a) ⟨s.shell,s.system.enter⟩ status t ∧
      Yields (modifySystem (Kernel.endFork status)) t () u ∧ u.shell = s.shell ∧ s.system.Does u.system [] := by
  obtain ⟨status,t,l,yields,same,does,-⟩ := stays.inCopy ⟨s.shell,s.system.enter⟩
  refine ⟨status,t,_,yields,yields_modifySystem _ t,same,?_⟩
  exact (does.trans (t.system.does_along (Kernel.endFork status t.system.system))).of_copy

theorem performs_startBuiltin (stage : Stage) (group : Pid) (w : Wiring) :
    Performs (startBuiltin stage.args group w : Act (Watched σ) _) stage.Attempt := by
  intro s
  cases forked : (Kernel.fork group w.rebindings s.system.system : Except Errno Pid × σ) with
  | mk answer t =>
    cases answer with
    | error e =>
      have refused : Kernel.fork group w.rebindings s.system = (.error e,s.system.record t (.started (.error e))) := by
        simp only [Kernel.fork,forked]
        rfl
      exact ⟨_,_,_,(yields_operate refused).bind (yields_pure _ _),rfl,s.system.does_record _ _,.refused e⟩
    | ok pid =>
      have begun : Kernel.fork group w.rebindings s.system = (.ok pid,(s.system.record t (.started (.ok pid))).enter) := by
        simp only [Kernel.fork,forked]
        rfl
      -- The copy begins where the attempt is recorded, and leaves the record as it is.
      have stays : Stays (do return (← Builtin.run? .standard stage.args).getD 127 : Act (Watched σ) Int) :=
        (Builtin.stays_run? _ _).bind fun _ => stays_pure _
      obtain ⟨status,u,v,copy,ended,same,does⟩ :=
        exists_yields_copy stays ⟨s.shell,s.system.record t (.started (.ok pid))⟩
      obtain ⟨_,x,l,told,same',does',rfl⟩ := quiet_log .debug (txt "copied for " ++ stage.args.head?.getD [] ++
        txt " as process " ++ Numeral.ofInt pid) v
      refine ⟨.ok pid,x,_,?_,same'.trans same,(s.system.does_record _ _).trans (does.trans does'),.begun pid⟩
      exact (yields_operate begun).bind (copy.bind (ended.bind (told.bind (yields_pure _ _))))

theorem performs_startStage (stage : Stage) (group : Pid) (w : Wiring) :
    Performs (startStage stage group w : Act (Watched σ) _) stage.Attempt := by
  rw [startStage]
  cases file : stage.program with
  | some program => exact performs_startProgram file group w
  | none => exact performs_startBuiltin stage group w

theorem quiet_closeAll (handles : List Handle) : Quiet (closeAll handles : Act (Watched σ) Unit) := by
  apply quiet_modifySystem
  intro s
  induction handles generalizing s with
  | nil => exact s.does_refl
  | cons h r ih => exact (s.does_along _).trans (ih _)

/-- The number of a group after processes were started in it: that of the first one, when there was none before. -/
def groupAfter (group : Pid) (pids : List Pid) : Pid := pids.foldl (fun g pid => if g = 0 then pid else g) group

/-- Stages are started one after the other, and none after one that could not be. -/
theorem performs_startStages (group : Pid) (pids : List Pid) (input : Option Handle) (pipes : List (Handle × Handle))
    (stages : List Stage) : Performs (startStages group pids input pipes stages : Act (Watched σ) _) (fun r l =>
      ∃ new, r.2 = (groupAfter group new,pids ++ new) ∧
        match r.1 with
        | none => new.length = stages.length ∧ l = Deed.begun new
        | some e => ∃ stage last, stages[new.length]? = some stage ∧ stage.Attempt (.error e) last ∧
            l = Deed.begun new ++ last) := by
  induction stages generalizing group pids input pipes with
  | nil =>
    refine performs_pure ⟨[],?_,rfl,rfl⟩
    rw [List.append_nil]
    rfl
  | cons stage r ih =>
    refine (performs_startStage stage group _).bind fun started l attempt => ?_
    refine (quiet_closeAll _).bind fun _ => ?_
    cases attempt with
    | begun pid =>
      refine (ih _ _ _ _).mono ?_
      rintro ⟨failure,last⟩ m ⟨new,same,rest⟩
      have result : last = (groupAfter (if group = 0 then pid else group) new,pids ++ [pid] ++ new) := same
      refine ⟨pid :: new,?_,?_⟩
      · rw [result,List.append_assoc]
        rfl
      · cases failure with
        | none =>
          obtain ⟨count,rfl⟩ := rest
          exact ⟨congrArg (· + 1) count,rfl⟩
        | some e =>
          obtain ⟨stage',last,here,attempt,rfl⟩ := rest
          exact ⟨stage',last,here,attempt,rfl⟩
    | refused e =>
      refine (quiet_closeAll _).bind fun _ => performs_pure ⟨[],?_,stage,_,rfl,.refused e,rfl⟩
      rw [List.append_nil]
      rfl
    | unfit program file zero =>
      refine (quiet_closeAll _).bind fun _ => performs_pure ⟨[],?_,stage,_,rfl,.unfit program file zero,rfl⟩
      rw [List.append_nil]
      rfl

/-! ### Giving up -/

/-- The ends of processes are waited for, one after the other. -/
inductive Reaps : List Pid → List Deed → Prop where
  | nil : Reaps [] []
  | cons {pid : Pid} {answer : Waited} {r : List Pid} {l : List Deed} (interrupted : Nat) (last : answer ≠ .interrupted)
      (rest : Reaps r l) :
      Reaps (pid :: r) (List.replicate interrupted (.reaped pid .interrupted) ++ [.reaped pid answer] ++ l)

theorem performs_awaitEnd (pid : Pid) : Performs (operate (awaitEnd pid) : Act (Watched σ) _) (fun _ l =>
    ∃ interrupted answer, answer ≠ .interrupted ∧
      l = List.replicate interrupted (.reaped pid .interrupted) ++ [.reaped pid answer]) := by
  apply performs_operate
  intro s
  obtain ⟨n,answer,last,does⟩ := does_awaitEnd pid s
  exact ⟨_,does,n,answer,last,rfl⟩

theorem performs_reap (pids : List Pid) : Performs (do
    for pid in pids do
      let _ ← operate (awaitEnd pid) : Act (Watched σ) Unit) (fun _ l => Reaps pids l) := by
  have each : Performs (forIn pids () fun pid _ => do
      let _ ← operate (awaitEnd pid)
      return .yield () : Act (Watched σ) Unit) (fun _ l => Reaps pids l) := by
    induction pids with
    | nil => exact performs_pure .nil
    | cons pid r ih =>
      rw [List.forIn_cons,bind_assoc]
      refine (performs_awaitEnd pid).bind ?_
      rintro _ _ ⟨n,answer,last,rfl⟩
      rw [pure_bind]
      exact ih.mono fun _ l reaps => .cons n last reaps
  exact each.bind fun _ l reaps => performs_pure (by rwa [List.append_nil])

/-- A group is asked to end, if there is one. -/
def asked (group : Pid) : List Deed := if group > 0 then [.signaled group terminateSignal] else []

theorem performs_abandon (group : Pid) (pids : List Pid) :
    Performs (abandon group pids : Act (Watched σ) Unit) (fun _ l =>
      ∃ reaps, Reaps pids reaps ∧ l = asked group ++ reaps) := by
  rw [abandon,asked]
  split
  · apply Performs.bind (P := fun _ l => l = [.signaled group terminateSignal])
    · exact performs_operate fun s => ⟨_,s.does_record _ _,rfl⟩
    · rintro sent _ rfl
      cases sent with
      | none => exact (performs_reap pids).mono fun _ l reaps => ⟨l,reaps,rfl⟩
      | some e => exact (quiet_log _ _).bind fun _ => (performs_reap pids).mono fun _ l reaps => ⟨l,reaps,rfl⟩
  · exact (performs_reap pids).mono fun _ l reaps => ⟨l,reaps,rfl⟩

/-! ### Pipes and messages -/

theorem quiet_pipe : Quiet (attempt Kernel.pipe : Act (Watched σ) _) := by
  apply quiet_attempt
  intro s v t opened
  obtain ⟨r,-,same⟩ := Watched.exists_of_map_eq_ok opened
  cases same
  exact s.does_along _

theorem quiet_openPipes (n : Nat) : Quiet (openPipes n : Act (Watched σ) _) := by
  induction n with
  | zero => exact performs_pure rfl
  | succ n ih =>
    refine quiet_pipe.bind fun opened => ?_
    cases opened with
    | error e => exact performs_pure rfl
    | ok p =>
      refine Quiet.bind ih fun others => ?_
      cases others with
      | error e => exact (quiet_closeAll _).bind fun _ => performs_pure rfl
      | ok ps => exact performs_pure rfl

/-- Nothing is recorded when the user is told why a command is not run. -/
theorem quiet_refuse_or_untold (e : CommandError) (s : Session (Watched σ)) :
    (∃ t, Yields (refuse e) s e.status t ∧ t.shell = s.shell ∧ s.system.Does t.system []) ∨ Untold (refuse e) s s := by
  rcases refuse_cases e s with ⟨system,told,yields⟩ | untold
  · exact .inl ⟨_,yields,rfl,(Watched.does_write told).trans (Watched.does_log _ _ system)⟩
  · exact .inr untold

/-! ### Jobs that are kept -/

theorem exists_yields_adopt (j : Job) (s : Session (Watched σ)) : ∃ t, Yields (adopt j) s s.shell.jobs.freeId t ∧
    t.shell = { s.shell with jobs := (s.shell.jobs.adopt j).1 } ∧ s.system.Does t.system [] := by
  have logged : Quiet (log .info (txt "job [" ++ Numeral.ofNat s.shell.jobs.freeId ++ txt "] pgid " ++
      Numeral.ofInt j.group ++ txt " added: " ++ j.command) : Act (Watched σ) Unit) := quiet_log _ _
  obtain ⟨_,t,_,told,same,does,rfl⟩ := logged ⟨{ s.shell with jobs := (s.shell.jobs.adopt j).1 },s.system⟩
  refine ⟨t,?_,same,does⟩
  exact (yields_shell s).bind ((yields_modifyShell _ s).bind (told.bind (yields_pure _ _)))

/-- A job is added to the table, and the user is told so. -/
theorem added_or_untold (j : Job) (text : Nat → Text) (status : Int) (s : Session (Watched σ)) :
    (∃ t, Yields (do
        let id ← adopt j
        tell (text id)
        return ⟨status,some id⟩) s (⟨status,some s.shell.jobs.freeId⟩ : CommandOutcome) t ∧
      t.shell.jobs = (s.shell.jobs.adopt j).1 ∧ s.system.Does t.system []) ∨
    ∃ t, Untold (do
        let id ← adopt j
        tell (text id)
        return (⟨status,some id⟩ : CommandOutcome)) s t := by
  obtain ⟨t,adopted,same,does⟩ := exists_yields_adopt j s
  rcases tell_cases (text s.shell.jobs.freeId) t with ⟨system,told,yields⟩ | untold
  · refine .inl ⟨_,adopted.bind (yields.bind (yields_pure _ _)),?_,does.trans (Watched.does_write told)⟩
    rw [same]
  · exact .inr ⟨t,adopted.untold (untold.bind _)⟩

end Act

end JobShell

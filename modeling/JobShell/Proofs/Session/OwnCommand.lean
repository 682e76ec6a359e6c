import JobShell.Proofs.Session.Writing
import JobShell.System.Machine.Start

/-!
# What running a line does to a shell

One built-in command in the foreground acts on the shell itself, and its files
are no more than its channels. All other commands are run by processes of their
own, a built-in one by a copy of the shell, and of these the shell keeps nothing
but the job: one in the background, or one that was stopped.
-/
namespace JobShell

/-- A shell after commands that it does not run itself: as before, or with a job more. -/
inductive Shell.Takes (before : Shell) : Option Nat → Shell → Prop where
  | nothing : Takes before none before
  | job (j : Job) : Takes before (some (before.jobs.adopt j).2) { before with jobs := (before.jobs.adopt j).1 }

theorem Shell.Takes.aliases {before after : Shell} {job : Option Nat} (takes : before.Takes job after) :
    after.aliases = before.aliases := by
  cases takes <;> rfl

/-- The channels of a built-in command, given the files that are open for it. -/
def Wiring.channels (w : Wiring) : Builtin.Channels :=
  ⟨(w.output.map Channel.handle).getD .output,(w.errors.map Channel.handle).getD .errors⟩

namespace Act
variable {σ : Type} [Kernel σ]

/-- The action ends, or the shell breaks down since the user cannot be told something. In both cases nothing of the shell
    `before` has changed but that it may have a job more, which is the one that an outcome tells of. -/
def SettlesFrom (before : Shell) (a : Act σ CommandOutcome) (s : Session σ) : Prop :=
  (∃ outcome t, Yields a s outcome t ∧ before.Takes outcome.job t.shell) ∨ ∃ job t, Untold a s t ∧ before.Takes job t.shell

/-- The action settles from every session. -/
def Settles (a : Act σ CommandOutcome) : Prop := ∀ s, SettlesFrom s.shell a s

theorem Yields.settles {α : Type} {a : Act σ α} {f : α → Act σ CommandOutcome} {s t : Session σ} {v : α}
    (first : Yields a s v t) (same : t.shell = s.shell) (rest : Settles (f v)) : SettlesFrom s.shell (a >>= f) s := by
  rw [← same]
  rcases rest t with ⟨outcome,u,later,takes⟩ | ⟨job,u,untold,takes⟩
  · exact .inl ⟨outcome,u,first.bind later,takes⟩
  · exact .inr ⟨job,u,first.untold untold,takes⟩

theorem Steady.settles {α : Type} {a : Act σ α} {f : α → Act σ CommandOutcome} (first : Steady a)
    (rest : ∀ v, Settles (f v)) : Settles (a >>= f) := by
  intro s
  obtain ⟨v,t,yields,same⟩ := first s
  exact yields.settles same (rest v)

theorem settles_pure (status : Int) : Settles (pure ⟨status,none⟩ : Act σ CommandOutcome) :=
  fun s => .inl ⟨_,s,yields_pure _ s,.nothing⟩

theorem settles_refuse (e : CommandError) : Settles (do return ⟨← refuse e,none⟩ : Act σ CommandOutcome) := by
  intro s
  rcases refuse_cases e s with ⟨system,-,yields⟩ | untold
  · exact .inl ⟨_,_,yields.bind (yields_pure _ _),.nothing⟩
  · exact .inr ⟨none,s,untold.bind _,.nothing⟩

omit [Kernel σ] in
/-- One command is expanded to one invocation. -/
theorem exists_expandCommands {capture : Capture σ} (captures : ∀ command, Steady (capture command)) {P : Text → Prop}
    {c : Command} (written : ∀ w ∈ c.words, w.Written P) (s : Session σ) :
    ∃ i t, Yields (expandCommands capture [c]) s [i] t ∧ t.shell = s.shell := by
  obtain ⟨args,t,words,same⟩ := steady_expandWords captures (fun w mem => written w (List.mem_append_left _ mem)) s
  obtain ⟨redirects,u,targets,same'⟩ :=
    steady_expandRedirects captures (fun w mem => written w (List.mem_append_right _ mem)) t
  exact ⟨⟨args,redirects⟩,u,words.bind (targets.bind ((yields_pure [] u).bind (yields_pure _ u))),same'.trans same⟩

/-! ### Commands that are run by processes -/

theorem settles_adopt (j : Job) (status : Int) (text : Nat → Text) :
    Settles (do
      let id ← adopt j
      tell (text id)
      return ⟨status,some id⟩ : Act σ CommandOutcome) := by
  intro s
  have adopted : Yields (adopt j) s (s.shell.jobs.adopt j).2 ⟨{ s.shell with jobs := (s.shell.jobs.adopt j).1 },
      Kernel.log .info _ s.system⟩ :=
    (yields_shell s).bind ((yields_modifyShell _ s).bind ((yields_modifySystem _ _).bind (yields_pure _ _)))
  rcases tell_cases (text (s.shell.jobs.adopt j).2) ⟨{ s.shell with jobs := (s.shell.jobs.adopt j).1 },
    Kernel.log .info _ s.system⟩ with ⟨system,-,yields⟩ | untold
  · exact .inl ⟨_,_,adopted.bind (yields.bind (yields_pure _ _)),.job j⟩
  · exact .inr ⟨_,_,adopted.untold (untold.bind _),.job j⟩

/-- Stages are run by processes. -/
theorem settles_runStages (stages : List Stage) (background : Bool) (display : Text) :
    Settles (runStages stages background display : Act σ CommandOutcome) := by
  refine (steady_openPipes _).settles fun opened => ?_
  cases opened with
  | error e => exact (steady_closeAll _).settles fun _ => settles_refuse _
  | ok pipes =>
    refine (steady_startStages _ _ _ _ _).settles fun (failure,group,pids) => ?_
    cases failure with
    | some e => exact (steady_abandon _ _).settles fun _ => settles_refuse _
    | none =>
      dsimp only
      split
      · exact settles_adopt _ _ _
      · refine (steady_awaitForeground _).settles fun ((status,stopped),job) => ?_
        dsimp only
        split
        · exact settles_adopt _ _ _
        · exact (steady_log _ _).settles fun _ => settles_pure _

/-! ### The command that the shell runs itself -/

/-- A built-in command is run with its files open, and closed again after it. -/
theorem shell_runOwn {i : Invocation} {s t : Session σ} {w : Wiring}
    (opened : Yields (openRedirects i.redirects .inherited) s (.ok w) t) :
    ((runOwn i).run s).2.shell = ((Builtin.run? w.channels i.args).run t).2.shell := by
  rw [runOwn,opened.run_bind]
  exact shell_bind_of_steady (fun _ => (steady_closeAll _).bind fun _ => steady_pure _) t

theorem yields_runOwn {i : Invocation} {s t u : Session σ} {w : Wiring} {status : Option Int}
    (opened : Yields (openRedirects i.redirects .inherited) s (.ok w) t)
    (done : Yields (Builtin.run? w.channels i.args) t status u) :
    ∃ v, Yields (runOwn i) s (status.getD 1) v ∧ v.shell = u.shell :=
  ⟨_,opened.bind (done.bind ((yields_modifySystem _ u).bind (yields_pure _ _))),rfl⟩

/-! ### Lines -/

section
variable {capture : Capture σ}

/-- Commands that the shell does not run itself. -/
theorem settles_runPipeline {p : Pipeline} {l : List Invocation} {s t : Session σ} (line : Text)
    (expanded : Yields (expandCommands capture p.commands) s l t) (same : t.shell = s.shell)
    (others : ownCommand? p.background l = none) : SettlesFrom s.shell (runPipeline capture p line) s := by
  refine expanded.settles same ?_
  simp only [others]
  refine (steady_log _ _).settles fun _ => (steady_prepare _).settles fun prepared => ?_
  cases prepared with
  | error e => exact settles_refuse _
  | ok stages => exact settles_runStages _ _ _

end

/-- **One built-in command in the foreground.** Its words are expanded without changing the shell, and so are its files
    opened. When no descriptor is duplicated, the command leaves the shell exactly as it does when it is run by itself
    with these files as its channels. A command with a duplicated descriptor is run by a copy, and the shell stays as it
    is, but for a job that was stopped; it breaks down only when the user cannot be told something. -/
theorem runPipeline_builtin (run : Text → Act σ CommandOutcome) {surroundings : Surroundings}
    {aliases : Text → Option Text} {text : Text} {p : Pipeline} {c : Command}
    (parsed : Pipeline.parse surroundings aliases text = .ok (some p)) (single : p.commands = [c])
    (foreground : p.background = false) (line : Text) (s : Session σ) :
    ∃ i t, Yields (expandCommands (captureWith run) p.commands) s [i] t ∧ t.shell = s.shell ∧
      (isBuiltin i.name = true → i.duplicates = false →
        ∀ w u, Yields (openRedirects i.redirects .inherited) t (.ok w) u → u.shell = s.shell ∧
          ((runPipeline (captureWith run) p line).run s).2.shell = ((Builtin.run? w.channels i.args).run u).2.shell ∧
          ∀ status v, Yields (Builtin.run? w.channels i.args) u status v →
            ∃ after, Yields (runPipeline (captureWith run) p line) s ⟨status.getD 1,none⟩ after ∧
              after.shell = v.shell) ∧
      (i.duplicates = true →
        (∃ outcome after, Yields (runPipeline (captureWith run) p line) s outcome after ∧
          s.shell.Takes outcome.job after.shell) ∨
        ∃ job after, Untold (runPipeline (captureWith run) p line) s after ∧ s.shell.Takes job after.shell) := by
  have words : p.words = c.words := by rw [Pipeline.words,single,List.flatMap_singleton]
  have written := fun w mem => Pipeline.written_of_parse parsed (w := w) (words ▸ mem)
  obtain ⟨i,t,expanded,same⟩ := exists_expandCommands (steady_captureWith run) written s
  rw [← single] at expanded
  refine ⟨i,t,expanded,same,fun builtin plain w u opened => ?_,fun duplicated => ?_⟩
  · have own : ownCommand? p.background [i] = some i := by simp [ownCommand?,foreground,builtin,plain]
    have ran : (runPipeline (captureWith run) p line).run s =
        (do return ⟨← runOwn i,none⟩ : Act σ CommandOutcome).run t := by
      rw [runPipeline,expanded.run_bind]
      simp only [own]
    -- The files are opened in one way only, so this is the opening of which it is known that the shell is kept.
    obtain ⟨_,_,reopened,kept⟩ := steady_openRedirects i.redirects .inherited t
    obtain ⟨-,rfl⟩ := reopened.unique opened
    refine ⟨kept.trans same,?_,fun status v done => ?_⟩
    · rw [ran,shell_bind_of_steady (fun _ => steady_pure _),shell_runOwn opened]
    · obtain ⟨after,yields,left⟩ := yields_runOwn opened done
      exact ⟨after,ran.trans (yields.bind (yields_pure _ after)),left⟩
  · refine settles_runPipeline line expanded same ?_
    simp [ownCommand?,duplicated]

/-- A machine on which nothing has happened yet. -/
def freshSession : Session Machine :=
  let m := Machine.start ⟨[]⟩ [] [] .empty 0
  ⟨Shell.start (.inMemory 10 true) m,m⟩

/-- The pipeline of a command that binds an alias. -/
def aliasPipeline (l : List Redirect) : Pipeline :=
  ⟨[⟨[⟨txt "alias",[],false⟩,⟨txt "a=b",[],false⟩],l⟩],false⟩

/-- An alias is bound by a command whose output goes to a file. -/
theorem runPipeline_builtin_file :
    let p := aliasPipeline [.file .output ⟨['o'],[],false⟩]
    Pipeline.parse ⟨0,fun _ => none,fun _ => none⟩ (fun _ => none) (txt "alias a=b > o") = .ok (some p) ∧
    ∃ after, Yields (runPipeline (captureWith runLine) p (txt "alias a=b > o")) freshSession ⟨0,none⟩ after ∧
      after.shell = { freshSession.shell with aliases := [(['a'],['b'])] } := by
  intro p
  have parsed : Pipeline.parse ⟨0,fun _ => none,fun _ => none⟩ (fun _ => none) (txt "alias a=b > o") = .ok (some p) := rfl
  refine ⟨parsed,?_⟩
  obtain ⟨i,t,expanded,same,own,-⟩ := runPipeline_builtin runLine parsed rfl rfl (txt "alias a=b > o") freshSession
  have invocation : Yields (expandCommands (captureWith runLine) p.commands) freshSession
      [⟨[txt "alias",txt "a=b"],[.file .output (txt "o")]⟩] freshSession := rfl
  obtain ⟨listed,rfl⟩ := expanded.unique invocation
  cases listed
  obtain ⟨w,u,opened⟩ : ∃ w u, Yields (openRedirects [.file .output (txt "o")] .inherited) freshSession (.ok w) u := by
    exact ⟨_,_,rfl⟩
  have bound : Yields (Builtin.run? w.channels [txt "alias",txt "a=b"]) u (some 0)
      ⟨{ u.shell with aliases := u.shell.aliases.set ['a'] ['b'] },u.system⟩ := rfl
  obtain ⟨kept,-,result⟩ := own rfl rfl w u opened
  obtain ⟨after,run,left⟩ := result _ _ bound
  refine ⟨after,run,left.trans ?_⟩
  rw [kept]
  rfl

/-- An alias that is bound by a copy of the shell is not bound in the shell, on a machine that takes all that is written. -/
theorem runPipeline_duplicated_alias :
    let p := aliasPipeline [.duplicate 2 1]
    let s : Session (Recorded Machine) := ⟨freshSession.shell,⟨freshSession.system,[]⟩⟩
    Pipeline.parse ⟨0,fun _ => none,fun _ => none⟩ (fun _ => none) (txt "alias a=b 2>&1") = .ok (some p) ∧
    (∃ outcome after, Yields (runPipeline (captureWith runLine) p (txt "alias a=b 2>&1")) s outcome after ∧
      after.shell.aliases = []) ∧
    ∃ after, Yields (Builtin.run? .standard [txt "alias",txt "a=b"]) s (some 0) after ∧
      after.shell.aliases = [(['a'],['b'])] := by
  intro p s
  refine ⟨rfl,?_,_,rfl,rfl⟩
  have expanded : Yields (expandCommands (captureWith runLine) p.commands) s
      [⟨[txt "alias",txt "a=b"],[.duplicate 2 1]⟩] s := rfl
  rcases settles_runPipeline (txt "alias a=b 2>&1") expanded rfl rfl with ⟨outcome,after,run,takes⟩ | ⟨job,after,untold,-⟩
  · exact ⟨outcome,after,run,takes.aliases⟩
  · exact absurd untold (not_untold_of_accepts (Recorded.accepts .errors))

end Act
end JobShell

import JobShell.Proofs.Session.Capturing
import JobShell.Proofs.Syntax.Origins

/-!
# What leaves a shell as it is

Most of what a shell does to run a command is done by the operating system:
files and pipes are opened, programs and copies of the shell are started, and
processes are waited for. None of this breaks the shell down, and none of it
changes what the shell remembers.
-/
namespace JobShell
namespace Act

section
variable {σ : Type} {α β : Type}

/-- An action that never breaks down, and never changes the shell. -/
def Steady (a : Act σ α) : Prop := ∀ s, ∃ v t, Yields a s v t ∧ t.shell = s.shell

theorem steady_pure (v : α) : Steady (pure v : Act σ α) := fun s => ⟨v,s,yields_pure v s,rfl⟩

theorem Steady.bind {a : Act σ α} {f : α → Act σ β} (first : Steady a) (rest : ∀ v, Steady (f v)) :
    Steady (a >>= f) := by
  intro s
  obtain ⟨v,t,yields,same⟩ := first s
  obtain ⟨w,u,later,same'⟩ := rest v t
  exact ⟨w,u,yields.bind later,same'.trans same⟩

/-- After a steady action the shell is as it was before that. -/
theorem shell_bind_of_steady {a : Act σ α} {f : α → Act σ β} (rest : ∀ v, Steady (f v)) (s : Session σ) :
    ((a >>= f).run s).2.shell = (a.run s).2.shell := by
  cases first : a.run s with
  | mk x t =>
    cases x with
    | ok v =>
      obtain ⟨w,u,later,same⟩ := rest v t
      rw [Yields.run_bind first,later]
      exact same
    | error c =>
      change (match a.run s with | (x,t) => ExceptT.bindCont f x t).2.shell = t.shell
      rw [first]
      rfl

theorem steady_shell : Steady (shell : Act σ Shell) := fun s => ⟨_,_,yields_shell s,rfl⟩

theorem steady_system : Steady (system : Act σ σ) := fun s => ⟨_,_,yields_system s,rfl⟩

theorem steady_modifySystem (f : σ → σ) : Steady (modifySystem f) := fun s => ⟨_,_,yields_modifySystem f s,rfl⟩

theorem steady_operate (f : σ → α × σ) : Steady (operate f) :=
  steady_system.bind fun _ => (steady_modifySystem _).bind fun _ => steady_pure _

theorem steady_attempt {ε : Type} (f : σ → Except ε (α × σ)) : Steady (attempt f) := by
  refine steady_system.bind fun s => ?_
  cases f s with
  | error e => exact steady_pure _
  | ok p => exact (steady_modifySystem _).bind fun _ => steady_pure _

theorem steady_forIn {γ : Type} {f : γ → β → Act σ (ForInStep β)} (each : ∀ x b, Steady (f x b)) (l : List γ) (b : β) :
    Steady (forIn l b f) := by
  induction l generalizing b with
  | nil => exact steady_pure b
  | cons x l ih =>
    rw [List.forIn_cons]
    refine (each x b).bind fun step => ?_
    cases step with
    | done b => exact steady_pure b
    | yield b => exact ih b

/-- What a copy of the shell does never reaches the shell, not even a breakdown. -/
theorem steady_inCopy (a : Act σ Int) : Steady (inCopy a) := by
  intro s
  cases copy : a { s with shell := { s.shell with interactive := false } } with
  | mk result after =>
    cases result with
    | ok status => exact ⟨status,⟨s.shell,after.system⟩,by simp only [Yields,ExceptT.run,inCopy,copy],rfl⟩
    | error e => exact ⟨crashStatus,⟨s.shell,after.system⟩,by simp only [Yields,ExceptT.run,inCopy,copy],rfl⟩

end

section
variable {σ : Type} [Kernel σ]

theorem steady_log (l : LogLevel) (message : Text) : Steady (log l message : Act σ Unit) := steady_modifySystem _

/-- The user is told why a command is not run, or the shell breaks down where it is. -/
theorem refuse_cases (e : CommandError) (s : Session σ) :
    (∃ system, Kernel.write .errors (Utf8.encode (message e.message)) s.system = .ok system ∧
      Yields (refuse e) s e.status ⟨s.shell,Kernel.log .debug (txt "not run: " ++ e.message) system⟩) ∨
    Untold (refuse e) s s := by
  rcases tell_cases (message e.message) s with ⟨system,told,yields⟩ | untold
  · exact .inl ⟨system,told,yields.bind ((yields_modifySystem _ _).bind (yields_pure _ _))⟩
  · exact .inr (untold.bind _)

theorem steady_awaitForeground (j : Job) : Steady (awaitForeground j : Act σ _) :=
  steady_shell.bind fun _ => steady_operate _

/-! ### Getting ready -/

theorem steady_closeAll (handles : List Handle) : Steady (closeAll handles : Act σ Unit) := steady_modifySystem _

theorem steady_openRedirects (l : List Redirection) (w : Wiring) : Steady (openRedirects l w : Act σ _) := by
  induction l generalizing w with
  | nil => exact steady_pure _
  | cons r l ih =>
    cases r with
    | duplicate d source => exact ih _
    | file mode path =>
      refine (steady_attempt _).bind fun opened => ?_
      cases opened with
      | ok h => exact (steady_closeAll _).bind fun _ => ih _
      | error e => exact (steady_closeAll _).bind fun _ => steady_pure _

theorem steady_lookUpAll (l : List Invocation) : Steady (lookUpAll l : Act σ _) := by
  induction l with
  | nil => exact steady_pure _
  | cons i l ih =>
    rw [lookUpAll]
    split
    · exact ih.bind fun _ => steady_pure _
    · refine steady_system.bind fun s => ?_
      split
      · exact steady_pure _
      · exact ih.bind fun _ => steady_pure _

theorem steady_openAll (l : List Invocation) : Steady (openAll l : Act σ _) := by
  induction l with
  | nil => exact steady_pure _
  | cons i l ih =>
    refine (steady_openRedirects _ _).bind fun opened => ?_
    cases opened with
    | error e => exact steady_pure _
    | ok w =>
      refine ih.bind fun others => ?_
      cases others with
      | error e => exact (steady_closeAll _).bind fun _ => steady_pure _
      | ok ws => exact steady_pure _

theorem steady_prepare (l : List Invocation) : Steady (prepare l : Act σ _) := by
  refine (steady_lookUpAll l).bind fun found => ?_
  cases found with
  | error e => exact steady_pure _
  | ok files =>
    refine (steady_openAll l).bind fun opened => ?_
    cases opened with
    | error e => exact steady_pure _
    | ok wirings => exact steady_pure _

theorem steady_openPipes (n : Nat) : Steady (openPipes n : Act σ _) := by
  induction n with
  | zero => exact steady_pure _
  | succ n ih =>
    refine (steady_attempt _).bind fun opened => ?_
    cases opened with
    | error e => exact steady_pure _
    | ok p =>
      refine ih.bind fun others => ?_
      cases others with
      | error e => exact (steady_closeAll _).bind fun _ => steady_pure _
      | ok ps => exact steady_pure _

/-! ### Starting processes -/

theorem steady_startProgram (program : Text) (args : List Text) (group : Pid) (w : Wiring) :
    Steady (startProgram program args group w : Act σ _) := by
  rw [startProgram]
  split
  · exact steady_pure _
  · refine (steady_operate _).bind fun started => ?_
    cases started with
    | error e => exact steady_pure _
    | ok pid => exact (steady_log _ _).bind fun _ => steady_pure _

theorem steady_startBuiltin (args : List Text) (group : Pid) (w : Wiring) :
    Steady (startBuiltin args group w : Act σ _) := by
  refine (steady_operate _).bind fun started => ?_
  cases started with
  | error e => exact steady_pure _
  | ok pid =>
    exact (steady_inCopy _).bind fun _ => (steady_modifySystem _).bind fun _ => (steady_log _ _).bind fun _ =>
      steady_pure _

theorem steady_startStage (stage : Stage) (group : Pid) (w : Wiring) : Steady (startStage stage group w : Act σ _) := by
  rw [startStage]
  split
  · exact steady_startProgram _ _ _ _
  · exact steady_startBuiltin _ _ _

theorem steady_startStages (group : Pid) (pids : List Pid) (input : Option Handle) (pipes : List (Handle × Handle))
    (stages : List Stage) : Steady (startStages group pids input pipes stages : Act σ _) := by
  induction stages generalizing group pids input pipes with
  | nil => exact steady_pure _
  | cons stage r ih =>
    refine (steady_startStage _ _ _).bind fun started => (steady_closeAll _).bind fun _ => ?_
    cases started with
    | ok pid => exact ih _ _ _ _
    | error e => exact (steady_closeAll _).bind fun _ => steady_pure _

theorem steady_abandon (group : Pid) (pids : List Pid) : Steady (abandon group pids : Act σ Unit) := by
  have reap : Steady (forIn pids () fun pid _ => do
      let _ ← operate (awaitEnd pid)
      return .yield () : Act σ Unit) :=
    steady_forIn (fun _ _ => (steady_operate _).bind fun _ => steady_pure _) pids ()
  rw [abandon]
  split
  · refine (steady_operate _).bind fun sent => ?_
    cases sent with
    | none => exact reap.bind fun _ => steady_pure _
    | some e => exact (steady_log _ _).bind fun _ => reap.bind fun _ => steady_pure _
  · exact reap.bind fun _ => steady_pure _

/-! ### Expanding words -/

theorem steady_captureWith (run : Text → Act σ CommandOutcome) (command : Text) : Steady (captureWith run command) := by
  refine steady_system.bind fun s => ?_
  cases Kernel.beginCapture s with
  | error message => exact (steady_log _ _).bind fun _ => steady_pure _
  | ok s =>
    exact (steady_modifySystem _).bind fun _ => (steady_inCopy _).bind fun _ => (steady_operate _).bind fun _ =>
      steady_pure _

end

section
variable {σ : Type} {capture : Capture σ} (captures : ∀ command, Steady (capture command)) {P : Text → Prop}
include captures

theorem steady_expandPieces (l : List Atom) : Steady (expandPieces capture l) := by
  induction l with
  | nil => exact steady_pure _
  | cons a l ih =>
    cases a with
    | char c => exact ih.bind fun _ => steady_pure _
    | command span => exact (captures _).bind fun _ => ih.bind fun _ => steady_pure _

/-- A word that is written from pieces is expanded without a breakdown. -/
theorem steady_expandWord {w : Word} (written : w.Written P) : Steady (expandWord capture w) := by
  obtain ⟨l,same,-⟩ := written
  rw [same,expandWord_ofAtoms]
  exact steady_expandPieces captures l

theorem steady_expandWords {l : List Word} (written : ∀ w ∈ l, w.Written P) : Steady (expandWords capture l) := by
  induction l with
  | nil => exact steady_pure _
  | cons w l ih =>
    refine (steady_expandWord captures (written w (.head _))).bind fun _ => ?_
    exact (ih fun w mem => written w (.tail _ mem)).bind fun _ => steady_pure _

theorem steady_expandRedirects {l : List Redirect} (written : ∀ w ∈ l.filterMap Redirect.target?, w.Written P) :
    Steady (expandRedirects capture l) := by
  induction l with
  | nil => exact steady_pure _
  | cons r l ih =>
    cases r with
    | duplicate d source => exact (ih written).bind fun _ => steady_pure _
    | file mode w =>
      refine (steady_expandWord captures (written w (.head _))).bind fun _ => ?_
      exact (ih fun w mem => written w (.tail _ mem)).bind fun _ => steady_pure _

theorem steady_expandCommands {l : List Command} (written : ∀ w ∈ l.flatMap Command.words, w.Written P) :
    Steady (expandCommands capture l) := by
  induction l with
  | nil => exact steady_pure _
  | cons c l ih =>
    simp only [List.flatMap_cons,Command.words,List.mem_append] at written
    refine (steady_expandWords captures fun w mem => written w (.inl (.inl mem))).bind fun _ => ?_
    refine (steady_expandRedirects captures fun w mem => written w (.inl (.inr mem))).bind fun _ => ?_
    exact (ih fun w mem => written w (.inr mem)).bind fun _ => steady_pure _

end
end Act
end JobShell

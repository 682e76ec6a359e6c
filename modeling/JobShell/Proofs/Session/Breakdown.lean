import JobShell.Proofs.Session.Commands
import JobShell.System.Machine.Start

/-!
# When a built-in command breaks the shell down

An environment has no variable whose name is empty or has an equals sign, and
none whose name or value has the character zero. Of all built-in commands only
`unset`, `export` and `cd` change variables. The first does not look at the names
that it is given, the second looks at the names and not at the values, and the
last passes on what the operating system gives for its directory.
-/
namespace JobShell

/-! ### Variables -/

namespace Act
variable {σ : Type} [Kernel σ]

theorem isVariableName_iff {name : Text} : isVariableName name = true ↔ name ≠ [] ∧ '=' ∉ name ∧ '\x00' ∉ name := by
  simp [isVariableName,and_assoc]

theorem total_setVariable {name value : Text} (named : isVariableName name = true) (clean : '\x00' ∉ value) :
    Total (setVariable name value : Act σ Unit) := by
  intro s
  rw [setVariable,if_pos (by simp [named,clean])]
  exact ⟨_,_,(yields_modifySystem _ s).bind (yields_modifyShell _ _)⟩

theorem breaks_setVariable {name value : Text} (bad : isVariableName name = true → '\x00' ∈ value) (s : Session σ) :
    Breaks (setVariable name value) s := by
  rw [setVariable,if_neg (by simpa using bad)]
  exact ⟨name,s,rfl⟩

theorem total_unsetVariable {name : Text} (named : isVariableName name = true) :
    Total (unsetVariable name : Act σ Unit) := by
  intro s
  rw [unsetVariable,if_pos named]
  exact ⟨_,_,(yields_modifySystem _ s).bind (yields_modifyShell _ _)⟩

theorem breaks_unsetVariable {name : Text} (bad : isVariableName name ≠ true) (s : Session σ) :
    Breaks (unsetVariable name) s := by
  rw [unsetVariable,if_neg bad]
  exact ⟨name,s,rfl⟩

/-- The directory before and the new one become values of variables; neither may have the character zero. -/
def Leads (target : Text) (s : Session σ) : Prop :=
  ∀ t, Kernel.changeDirectory target s.system = .ok t → '\x00' ∉ s.shell.directory ∧ '\x00' ∉ Kernel.directory t

theorem exists_changeDirectory {target : Text} {s : Session σ} (leads : Leads target s) :
    ∃ r t, Yields (changeDirectory target) s r t := by
  cases there : Kernel.changeDirectory target s.system with
  | error e =>
    refine ⟨.error e,s,(yields_system s).bind ?_⟩
    simp only [there]
    exact yields_pure _ s
  | ok system =>
    obtain ⟨old,new⟩ := leads system there
    have rest : Total (do
        setVariable (txt "OLDPWD") s.shell.directory
        setVariable (txt "PWD") (Kernel.directory system)
        return .ok () : Act σ (Except SystemError Unit)) :=
      (total_setVariable (by decide) old).bind fun _ => (total_setVariable (by decide) new).bind fun _ => total_pure _
    obtain ⟨r,t,yields⟩ := rest ⟨{ s.shell with directory := Kernel.directory system },system⟩
    refine ⟨r,t,(yields_system s).bind ?_⟩
    simp only [there]
    exact (yields_shell s).bind ((yields_modifySystem _ s).bind ((yields_modifyShell _ _).bind yields))

theorem breaks_changeDirectory {target : Text} {s : Session σ} (astray : ¬Leads target s) :
    Breaks (changeDirectory target) s := by
  obtain ⟨system,dirty⟩ := Classical.not_forall.mp astray
  obtain ⟨there,dirty⟩ := Classical.not_imp.mp dirty
  refine (yields_system s).breaks ?_
  simp only [there]
  refine (yields_shell s).breaks ((yields_modifySystem _ s).breaks ((yields_modifyShell _ _).breaks ?_))
  -- The directory before is bound first; the new one is reached only when that can be bound.
  by_cases old : '\x00' ∈ s.shell.directory
  · exact (breaks_setVariable (fun _ => old) _).bind _
  · have named : isVariableName (txt "OLDPWD") = true := by decide
    obtain ⟨⟨⟩,t,set⟩ := total_setVariable named old ⟨{ s.shell with directory := Kernel.directory system },system⟩
    have new : '\x00' ∈ Kernel.directory system := by simpa [old] using dirty
    exact set.breaks ((breaks_setVariable (fun _ => new) t).bind _)

/-! ### Jobs -/

theorem total_collectJobs : Total (collectJobs : Act σ Unit) :=
  (steady_shell.total).bind fun _ => (steady_operate _).total.bind fun _ => total_modifyShell _

theorem total_continueGroup (group : Pid) : Total (continueGroup group : Act σ Unit) := by
  refine (steady_operate _).total.bind fun sent => ?_
  cases sent with
  | none => exact total_pure _
  | some e => exact (steady_log _ _).total

end Act

namespace Builtin
open Writing

/-- Both channels take everything. -/
structure Channels.Reliable (σ : Type) [Kernel σ] (c : Channels) : Prop where
  output : Kernel.Accepts σ c.output
  errors : Kernel.Accepts σ c.errors

section
variable {σ : Type}

theorem total_shell : Total (Writing.act Act.shell : Writing σ Shell) := total_act Act.steady_shell.total

theorem total_modifyShell (f : Shell → Shell) : Total (Writing.act (Act.modifyShell f) : Writing σ Unit) :=
  total_act (Act.total_modifyShell f)

end

section
variable {σ : Type} [Kernel σ] {c : Channels}

theorem total_chosenJob (args : List Text) : Act.Total (chosenJob args : Act σ _) := by
  refine Act.total_collectJobs.bind fun _ => Act.steady_shell.total.bind fun shell => ?_
  dsimp only
  split
  · exact Act.total_pure _
  · split <;> exact Act.total_pure _

section
variable (reliable : c.Reliable σ)
include reliable

theorem total_say (t : Text) : Total (say c t : Writing σ Unit) := total_print reliable.output _

theorem total_fail (t : Text) : Total (fail c t : Writing σ Unit) := total_print reliable.errors _

theorem parts_total : Parts (fun _ (a : Writing σ _) => Total a) c where
  pure := total_pure
  bind first rest := first.bind rest
  output := total_print reliable.output
  errors := total_print reliable.errors
  shell := total_shell
  modifyShell := total_modifyShell
  collectJobs := total_act Act.total_collectJobs
  chosenJob args := total_act (total_chosenJob args)
  continueGroup group := total_act (Act.total_continueGroup group)
  awaitForeground j := total_act (Act.steady_awaitForeground j).total
  log l t := total_act (Act.steady_log l t).total

end

/-! ### Commands that change variables -/

theorem total_unset {args : List Text} (names : ∀ name ∈ args, Act.isVariableName name = true) :
    Total (unset args : Writing σ Int) :=
  (total_forIn (fun name mem _ => (total_act (Act.total_unsetVariable (names name mem))).bind fun _ => total_pure _)
    _).bind fun _ => total_pure _

theorem breaks_unset {args : List Text} (bad : ¬∀ name ∈ args, Act.isVariableName name = true) (s : Session σ) :
    Act.Breaks (unset args).run s := by
  have loop : Act.Breaks (forIn args () fun name _ => do
      Writing.act (Act.unsetVariable name)
      return .yield () : Writing σ Unit).run s := by
    -- The names before the first one that is refused are unbound, each in its turn.
    induction args generalizing s with
    | nil => simp at bad
    | cons name r ih =>
      rw [List.forIn_cons]
      by_cases named : Act.isVariableName name = true
      · obtain ⟨⟨⟩,t,unbound⟩ := Act.total_unsetVariable named s
        have first : Ends (do
            Writing.act (Act.unsetVariable name)
            return ForInStep.yield () : Writing σ (ForInStep Unit)) s (.yield ()) t :=
          (ends_act unbound).bind (ends_pure _ t)
        exact first.breaks (ih (by simpa [named] using bad) t)
      · exact breaks_bind (breaks_bind (breaks_act (Act.breaks_unsetVariable named s)) _) _
  exact breaks_bind loop _

/-- A name that `export` takes is that of a variable. -/
theorem isVariableName_of_isName {name : Text} (named : isName name = true) : Act.isVariableName name = true := by
  cases name with
  | nil => simp [isName] at named
  | cons c r =>
    have chars : ∀ x ∈ c :: r, Expansion.isNameChar x = true := by
      simp only [isName,Bool.and_eq_true,List.all_eq_true] at named
      intro x mem
      rcases List.mem_cons.mp mem with rfl | mem
      · have start := named.1
        simp only [Expansion.isNameStart,Bool.or_eq_true] at start
        simp only [Expansion.isNameChar,Char.isAlphanum,Bool.or_eq_true]
        exact start.imp_left .inl
      · exact named.2 x mem
    exact Act.isVariableName_iff.mpr
      ⟨by simp,(fun mem => absurd (chars _ mem) (by decide)),fun mem => absurd (chars _ mem) (by decide)⟩

/-- No value that is bound to a name has the character zero. -/
def Assigns (args : List Text) : Prop :=
  ∀ arg ∈ args, ∀ name value, assignment arg = (name,some value) → isName name = true → '\x00' ∉ value

section
variable (reliable : c.Reliable σ)
include reliable

theorem total_exportAll {args : List Text} (assigns : Assigns args) (status : Int) :
    Total (exportAll c args status : Writing σ Int) := by
  induction args generalizing status with
  | nil => exact total_pure _
  | cons arg r ih =>
    have ih := ih fun x mem => assigns x (List.mem_cons_of_mem _ mem)
    rw [exportAll]
    cases parts : assignment arg with
    | mk name value? =>
      dsimp only
      split
      next named =>
        cases value? with
        | none => exact ih _
        | some value =>
          have clean := assigns arg List.mem_cons_self name value parts named
          exact (total_act (Act.total_setVariable (isVariableName_of_isName named) clean)).bind fun _ => ih _
      next => exact (total_fail reliable _).bind fun _ => ih _

theorem breaks_exportAll {args : List Text} (bad : ¬Assigns args) (status : Int) (s : Session σ) :
    Act.Breaks (exportAll c args status).run s := by
  induction args generalizing status s with
  | nil => exact absurd (fun _ mem => absurd mem List.not_mem_nil) bad
  | cons arg r ih =>
    have later : (∀ name value, assignment arg = (name,some value) → isName name = true → '\x00' ∉ value) →
        ¬Assigns r := fun here rest => bad (List.forall_mem_cons.mpr ⟨here,rest⟩)
    rw [exportAll]
    cases parts : assignment arg with
    | mk name value? =>
      rw [parts] at later
      dsimp only
      split
      next named =>
        cases value? with
        | none => exact ih (later fun _ _ same => by cases same) _ s
        | some value =>
          by_cases zero : '\x00' ∈ value
          · exact breaks_bind (breaks_act (Act.breaks_setVariable (fun _ => zero) s)) _
          · obtain ⟨⟨⟩,t,bound⟩ := Act.total_setVariable (isVariableName_of_isName named) zero s
            refine (ends_act bound).breaks (ih (later fun _ _ same _ => ?_) _ t)
            cases same
            exact zero
      next unnamed =>
        obtain ⟨⟨⟩,t,told⟩ := total_fail reliable _ s
        refine told.breaks (ih (later fun _ _ same named => ?_) _ t)
        cases same
        exact absurd named unnamed

theorem total_exportVariables {args : List Text} (assigns : Assigns args) :
    Total (exportVariables c args : Writing σ Int) := by
  rw [exportVariables]
  split
  · refine total_shell.bind fun shell => (total_forIn (fun p _ _ => ?_) _).bind fun _ => total_pure _
    exact (total_say reliable _).bind fun _ => total_pure _
  · exact total_exportAll reliable assigns _

theorem breaks_exportVariables {args : List Text} (bad : ¬Assigns args) (s : Session σ) :
    Act.Breaks (exportVariables c args).run s := by
  cases args with
  | nil => exact absurd (fun _ mem => absurd mem List.not_mem_nil) bad
  | cons arg r => exact breaks_exportAll reliable bad _ s

end

/-- Where `cd` goes. -/
def target? (environment : Bindings) (args : List Text) : Option Text :=
  match args with
  | [] => environment.get? (txt "HOME")
  | arg :: _ => if args.head? = some ['-'] then environment.get? (txt "OLDPWD") else some arg

theorem cd_eq (args : List Text) : (cd c args : Writing σ Int) = do
    let shell ← Writing.act Act.shell
    match target? shell.environment args with
    | none =>
      fail c (txt "cd: " ++ (if args.head? = some ['-'] then txt "OLDPWD" else txt "HOME") ++ txt " not set")
      return 1
    | some target =>
      match ← Writing.act (Act.changeDirectory target) with
      | .error e =>
        fail c (txt "cd: " ++ target ++ txt ": " ++ e.message)
        return 1
      | .ok () =>
        if args.head? = some ['-'] then say c (← Writing.act Act.shell).directory
        return 0 := rfl

theorem ends_cd (reliable : c.Reliable σ) {args : List Text} {s : Session σ}
    (leads : ∀ target, target? s.shell.environment args = some target → Act.Leads target s) :
    ∃ status t, Ends (cd c args) s status t := by
  rw [cd_eq]
  refine exists_ends_of_yields (Act.yields_shell s) ?_
  cases goes : target? s.shell.environment args with
  | none =>
    simp only
    exact ((total_fail reliable _).bind fun _ => total_pure 1) s
  | some target =>
    obtain ⟨r,t,moved⟩ := Act.exists_changeDirectory (leads target goes)
    simp only
    refine exists_ends_of_yields moved ?_
    cases r with
    | error e => exact ((total_fail reliable _).bind fun _ => total_pure 1) t
    | ok v =>
      dsimp only
      split
      · exact ((total_shell.bind fun _ => total_say reliable _).bind fun _ => total_pure 0) t
      · exact total_pure 0 t

theorem breaks_cd {args : List Text} {target : Text} {s : Session σ}
    (goes : target? s.shell.environment args = some target) (astray : ¬Act.Leads target s) :
    Act.Breaks (cd c args).run s := by
  rw [cd_eq]
  refine (ends_act (Act.yields_shell s)).breaks ?_
  simp only [goes]
  exact breaks_bind (breaks_act (Act.breaks_changeDirectory astray)) _

/-! ### All built-in commands -/

/-- What a command does to variables is what an environment can have. -/
structure Admits (name : Text) (args : List Text) (s : Session σ) : Prop where
  unbinds : name = txt "unset" → ∀ arg ∈ args, Act.isVariableName arg = true
  binds : name = txt "export" → Assigns args
  moves : name = txt "cd" → ∀ target, target? s.shell.environment args = some target → Act.Leads target s

theorem admits_unset_iff {args : List Text} {s : Session σ} :
    Admits (txt "unset") args s ↔ ∀ arg ∈ args, Act.isVariableName arg = true :=
  ⟨fun admits => admits.unbinds rfl,
    fun names => ⟨fun _ => names,(fun same => absurd same (by decide)),fun same => absurd same (by decide)⟩⟩

theorem admits_export_iff {args : List Text} {s : Session σ} : Admits (txt "export") args s ↔ Assigns args :=
  ⟨fun admits => admits.binds rfl,
    fun assigns => ⟨(fun same => absurd same (by decide)),fun _ => assigns,fun same => absurd same (by decide)⟩⟩

theorem admits_cd_iff {args : List Text} {s : Session σ} : Admits (txt "cd") args s ↔
    ∀ target, target? s.shell.environment args = some target → Act.Leads target s :=
  ⟨fun admits => admits.moves rfl,
    fun leads => ⟨(fun same => absurd same (by decide)),(fun same => absurd same (by decide)),fun _ => leads⟩⟩

theorem exists_run? {name : Text} {args : List Text} {command : Writing σ Int} {s : Session σ}
    (known : command? c name args = some command) (ends : ∃ status t, Ends command s status t) :
    ∃ status t, Act.Yields (run? c (name :: args)) s status t := by
  obtain ⟨status,t,ends⟩ := ends
  simp only [run?,known]
  exact ⟨some status,t,Act.Yields.bind ends (Act.yields_pure _ t)⟩

theorem breaks_run? {name : Text} {args : List Text} {command : Writing σ Int} {s : Session σ}
    (known : command? c name args = some command) (broken : Act.Breaks command.run s) :
    Act.Breaks (run? c (name :: args)) s := by
  simp only [run?,known]
  exact broken.bind _

/-- **Built-in commands and the environment.** With channels that take everything, a command with its arguments ends
    with a status, or is not a built-in one, when the variables that it binds and unbinds are such as an environment can
    have. When one of them is not, the shell breaks down. -/
theorem run?_ends_or_breaks (reliable : c.Reliable σ) (name : Text) (args : List Text) (s : Session σ) :
    (Admits name args s → ∃ status after, Act.Yields (run? c (name :: args)) s status after) ∧
    (¬Admits name args s → Act.Breaks (run? c (name :: args)) s) := by
  by_cases unsets : name = txt "unset"
  · subst unsets
    rw [admits_unset_iff]
    exact ⟨fun names => exists_run? rfl (total_unset names s),fun bad => breaks_run? rfl (breaks_unset bad s)⟩
  by_cases exports : name = txt "export"
  · subst exports
    rw [admits_export_iff]
    exact ⟨fun assigns => exists_run? rfl (total_exportVariables reliable assigns s),
      fun bad => breaks_run? rfl (breaks_exportVariables reliable bad s)⟩
  by_cases moves : name = txt "cd"
  · subst moves
    rw [admits_cd_iff]
    refine ⟨fun leads => exists_run? rfl (ends_cd reliable leads),fun bad => breaks_run? rfl ?_⟩
    obtain ⟨target,bad⟩ := Classical.not_forall.mp bad
    obtain ⟨goes,astray⟩ := Classical.not_imp.mp bad
    exact breaks_cd goes astray
  · have admits : Admits name args s :=
      ⟨fun same => absurd same unsets,fun same => absurd same exports,fun same => absurd same moves⟩
    refine ⟨fun _ => ?_,fun bad => absurd admits bad⟩
    cases known : (command? c name args : Option (Writing σ Int)) with
    | none =>
      refine ⟨none,s,?_⟩
      simp only [run?,known]
      exact Act.yields_pure none s
    | some command =>
      have total := (parts_total reliable).command (fun same => absurd same unsets) (fun same => absurd same exports)
        (fun same => absurd same moves) command known
      exact exists_run? known (total s)

end

/-- A machine on which nothing has happened yet, and whose shell writes to memory. -/
def recordedSession : Session (Recorded Machine) :=
  let m : Recorded Machine := ⟨Machine.start ⟨[]⟩ [] [] .empty 0,[]⟩
  ⟨Shell.start (.inMemory 10 true) m,m⟩

theorem reliable_standard : Channels.standard.Reliable (Recorded Machine) :=
  ⟨Recorded.accepts _,Recorded.accepts _⟩

/-- Names that are refused, and a value that is bound. -/
theorem run?_ends_or_breaks_export :
    Admits (txt "export") [txt "=",txt "A",txt "B=\u00e9=",[]] recordedSession ∧
    ∃ status after, Act.Yields (run? .standard [txt "export",txt "=",txt "A",txt "B=\u00e9=",[]]) recordedSession
      status after := by
  have admits : Admits (txt "export") [txt "=",txt "A",txt "B=\u00e9=",[]] recordedSession := by
    rw [admits_export_iff]
    intro arg mem name value parts _ zero
    simp only [List.mem_cons,List.not_mem_nil,or_false] at mem
    rcases mem with rfl | rfl | rfl | rfl <;> cases parts <;> exact absurd zero (by decide)
  exact ⟨admits,(run?_ends_or_breaks reliable_standard _ _ _).1 admits⟩

/-- The empty name cannot be unbound. -/
theorem run?_breaks_unset :
    Channels.standard.Reliable (Recorded Machine) ∧
    ¬∃ status after, Act.Yields (run? .standard [txt "unset",[]]) recordedSession status after := by
  refine ⟨reliable_standard,fun ⟨status,after,yields⟩ => ?_⟩
  cases yields

end Builtin
end JobShell

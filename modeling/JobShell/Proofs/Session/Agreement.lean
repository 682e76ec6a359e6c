import JobShell.Proofs.Session.Breakdown
import JobShell.Proofs.System.Directories

/-!
# What a shell and its process both remember

A shell has an environment and a directory, and so has its process. Words are
expanded with the one and directories are changed with the other, so the two must
be the same at all times. They are, whatever changes them: both are changed
together, and a change that fails changes neither (`Session.agrees_run`). Only a
return with `cd -` may have been made when the command fails, since the directory
is shown after it.
-/
namespace JobShell

namespace Act
variable {σ : Type} {α β : Type}

/-- What holds before an action holds after it, also when the shell breaks down. -/
def Keeps (P : Session σ → Prop) (a : Act σ α) : Prop := ∀ s, P s → P (a.run s).2

variable {P : Session σ → Prop}

theorem keeps_pure (v : α) : Keeps P (pure v : Act σ α) := fun _ holds => holds

theorem keeps_throw (e : Crash) : Keeps P (throw e : Act σ α) := fun _ holds => holds

theorem Keeps.bind {a : Act σ α} {f : α → Act σ β} (first : Keeps P a) (rest : ∀ v, Keeps P (f v)) :
    Keeps P (a >>= f) := by
  intro s holds
  have after := first s holds
  cases result : a.run s with
  | mk x t =>
    rw [result] at after
    rw [run_bind_of_run result]
    cases x with
    | ok v => exact rest v t after
    | error e => exact after

/-- The value at the end of an action is the one that it is given there. -/
theorem value_of_bind_pure {a : Act σ α} {s : Session σ} {v w : β}
    (value : ((a >>= fun _ => pure v).run s).1 = .ok w) : w = v := by
  cases result : a.run s with
  | mk x t =>
    rw [run_bind_of_run result] at value
    cases x with
    | ok y =>
      cases value
      rfl
    | error e => cases value

theorem Keeps.of_yields {a : Act σ α} (kept : Keeps P a) {s t : Session σ} {v : α} (yields : Yields a s v t)
    (holds : P s) : P t := by
  have after := kept s holds
  rw [Yields] at yields
  rw [yields] at after
  exact after

theorem keeps_shell : Keeps P (shell : Act σ Shell) := fun _ holds => holds

theorem keeps_forIn {γ : Type} {f : γ → β → Act σ (ForInStep β)} (each : ∀ x b, Keeps P (f x b)) (l : List γ)
    (b : β) : Keeps P (forIn l b f) := by
  induction l generalizing b with
  | nil => exact keeps_pure b
  | cons x l ih =>
    rw [List.forIn_cons]
    refine (each x b).bind fun step => ?_
    cases step with
    | done b => exact keeps_pure b
    | yield b => exact ih b

/-- A command that writes goes on, or ends because it cannot. -/
theorem keeps_writing_bind {a : Writing σ α} {f : α → Writing σ β} (first : Keeps P a.run)
    (rest : ∀ v, Keeps P (f v).run) : Keeps P (a >>= f).run := by
  refine Keeps.bind (f := ExceptT.bindCont f) first fun x => ?_
  cases x with
  | ok v => exact rest v
  | error e => exact keeps_pure _

theorem keeps_act {a : Act σ α} (kept : Keeps P a) : Keeps P (Writing.act a).run := by
  rw [Writing.run_act]
  exact kept.bind fun _ => keeps_pure _

section
variable [Kernel σ]

/-- Only the operating system changes when a text is written, and it does not when that fails. -/
theorem exists_run_writeText (c : Channel) (t : Text) (s : Session σ) :
    ∃ system, ((writeText c t).run s).2 = ⟨s.shell,system⟩ ∧
      (system = s.system ∨ Kernel.write c (Utf8.encode t) s.system = .ok system) := by
  cases wrote : Kernel.write c (Utf8.encode t) s.system with
  | error e =>
    have same : Yields (writeText c t) s (.error e) s := yields_attempt_error (by rw [wrote]; rfl)
    exact ⟨s.system,congrArg Prod.snd same,.inl rfl⟩
  | ok system =>
    have written : Yields (writeText c t) s (.ok ()) ⟨s.shell,system⟩ := yields_attempt (by rw [wrote]; rfl)
    exact ⟨system,congrArg Prod.snd written,.inr rfl⟩

theorem keeps_complain (writes : ∀ c t, Keeps P (writeText c t)) (t : Text) : Keeps P (complain t) := by
  refine (writes _ _).bind fun written => ?_
  cases written with
  | ok => exact keeps_pure _
  | error e => exact keeps_throw _

theorem yields_setVariable {name value : Text} (named : isVariableName name = true) (clean : '\x00' ∉ value)
    (s : Session σ) : Yields (setVariable name value) s () ⟨{ s.shell with environment := s.shell.environment.set name value },
      Kernel.setEnvironment ((Kernel.environment s.system).set name value) s.system⟩ := by
  rw [setVariable,if_pos (by simp [named,clean])]
  exact (yields_modifySystem _ s).bind (yields_modifyShell _ _)

variable {s : Session σ} {target : Text}

theorem yields_changeDirectory_error {e : SystemError} (stayed : Kernel.changeDirectory target s.system = .error e) :
    Yields (changeDirectory target) s (.error e) s := by
  refine (yields_system s).bind ?_
  simp only [stayed]
  exact yields_pure _ s

/-- Once the process has gone to a directory the shell has gone there, and two variables are bound. -/
theorem run_changeDirectory {system : σ} (went : Kernel.changeDirectory target s.system = .ok system) :
    (changeDirectory target).run s = (do
      setVariable (txt "OLDPWD") s.shell.directory
      setVariable (txt "PWD") (Kernel.directory system)
      return .ok () : Act σ (Except SystemError Unit)).run ⟨{ s.shell with directory := Kernel.directory system },system⟩ := by
  refine ((yields_system s).run_bind _).trans ?_
  simp only [went]
  rfl

end
end Act

namespace Session

section
variable {σ : Type} [Kernel σ]

/-- The shell and its process have the same environment and the same directory. -/
structure Agrees (s : Session σ) : Prop where
  environment : s.shell.environment = Kernel.environment s.system
  directory : s.shell.directory = Kernel.directory s.system

/-- Neither the shell nor the environment or the directory of its process has changed. -/
structure Unmoved (s t : Session σ) : Prop where
  shell : t.shell = s.shell
  environment : Kernel.environment t.system = Kernel.environment s.system
  directory : Kernel.directory t.system = Kernel.directory s.system

/-- The directory has changed, which the environment tells. Nothing else of the shell has. -/
structure Moved (s t : Session σ) : Prop where
  agrees : t.Agrees
  new : t.shell.environment.get? (txt "PWD") = some t.shell.directory
  old : t.shell.environment.get? (txt "OLDPWD") = some s.shell.directory
  others : ∀ name, name ≠ txt "PWD" → name ≠ txt "OLDPWD" →
    t.shell.environment.get? name = s.shell.environment.get? name
  rest : t.shell = { s.shell with environment := t.shell.environment, directory := t.shell.directory }

/-- With `cd -` the shell goes to the directory where it was. -/
def ComesBack (s t : Session σ) : Prop :=
  ∀ c args, t.Moved ((Builtin.run? c (txt "cd" :: ['-'] :: args)).run t).2 ∧
    ((Builtin.run? c (txt "cd" :: ['-'] :: args)).run t).2.shell.directory = s.shell.directory

/-- A built-in command has ended without success, and nothing has changed. -/
structure Failed (s : Session σ) (r : Except Crash (Option Int) × Session σ) : Prop where
  unmoved : s.Unmoved r.2
  status : r.1 ≠ .ok (some 0)

/-- A change of the directory changes all that tells the directory, and one that fails changes nothing. The built-in
    command makes such a change, and also fails when it cannot show where it has gone. -/
structure ChangesDirectory (s : Session σ) : Prop where
  stays : ∀ target e, Kernel.changeDirectory target s.system = .error e →
    Act.Yields (Act.changeDirectory target) s (.error e) s
  goes : ∀ target system, Kernel.changeDirectory target s.system = .ok system →
    ∃ t, Act.Yields (Act.changeDirectory target) s (.ok ()) t ∧ s.Moved t ∧
      t.shell.directory = Kernel.directory system ∧ s.ComesBack t
  command : ∀ c args, let r := (Builtin.run? c (txt "cd" :: args)).run s
    s.Failed r ∨ ∃ target t, Builtin.target? s.shell.environment args = some target ∧
      Act.Yields (Act.changeDirectory target) s (.ok ()) t ∧ t.Unmoved r.2 ∧ s.Moved r.2 ∧ s.ComesBack r.2 ∧
      (r.1 = .ok (some 0) ∨ args.head? = some ['-'] ∧
        ∃ e, Kernel.write c.output (Utf8.encode (t.shell.directory ++ ['\n'])) t.system = .error e)

/-- The session goes on as usual, the shell and its process agree, and the directories that were there are so still. -/
structure Sound (usual : σ → Prop) (there : Text → σ → Prop) (s t : Session σ) : Prop where
  usual : usual t.system
  agrees : t.Agrees
  there : ∀ d, there d s.system → there d t.system

end
end Session

/-! ### What changes the environment and the directory -/

/-- The built-in commands that change variables. -/
def Builtin.changers : List Text := [txt "cd",txt "export",txt "unset"]

/-- What changes the environment or the directory of a shell. -/
inductive Change where
  | bind (name value : Text)
  | unbind (name : Text)
  | go (target : Text)
  /-- Aliases and variables of the settings are taken over. -/
  | take (aliases environment : Bindings)
  | command (c : Builtin.Channels) (name : Text) (args : List Text) (changes : name ∈ Builtin.changers)

namespace Change
variable {σ : Type} [Kernel σ]

def act : Change → Act σ Unit
  | bind name value => Act.setVariable name value
  | unbind name => Act.unsetVariable name
  | go target => do
    let _ ← Act.changeDirectory target
  | take aliases environment => Act.takeSettings aliases environment
  | command c name args _ => do
    let _ ← Builtin.run? c (name :: args)

def run : List Change → Act σ Unit
  | [] => return ()
  | x :: r => do
    x.act
    run r

end Change

namespace Session
open Act

section
variable {σ : Type} [Kernel σ] {usual : σ → Prop} {there : Text → σ → Prop} (keeps : KeepsPlace usual there)
  {s₀ : Session σ}
include keeps

theorem keeps_bindings (f : Bindings → Bindings) : Keeps (Sound usual there s₀) (do
    modifySystem (fun s => Kernel.setEnvironment (f (Kernel.environment s)) s)
    modifyShell (fun s => { s with environment := f s.environment })) := by
  intro s sound
  obtain ⟨ordinary,environment,directory,still⟩ := keeps.bind s.system (f (Kernel.environment s.system)) sound.usual
  refine ⟨ordinary,⟨?_,?_⟩,fun d was => still d (sound.there d was)⟩
  · change f s.shell.environment = Kernel.environment (Kernel.setEnvironment (f (Kernel.environment s.system)) s.system)
    rw [environment,sound.agrees.environment]
  · change s.shell.directory = Kernel.directory (Kernel.setEnvironment (f (Kernel.environment s.system)) s.system)
    rw [directory,sound.agrees.directory]

theorem keeps_setVariable (name value : Text) : Keeps (Sound usual there s₀) (setVariable name value) := by
  rw [setVariable]
  split
  · exact keeps_bindings keeps (fun b => b.set name value)
  · exact keeps_throw _

theorem keeps_unsetVariable (name : Text) : Keeps (Sound usual there s₀) (unsetVariable name) := by
  rw [unsetVariable]
  split
  · exact keeps_bindings keeps (fun b => b.unset name)
  · exact keeps_throw _

theorem keeps_changeDirectory (target : Text) : Keeps (Sound usual there s₀) (changeDirectory target) := by
  intro s sound
  cases went : Kernel.changeDirectory target s.system with
  | error e =>
    rw [yields_changeDirectory_error went]
    exact sound
  | ok system =>
    obtain ⟨ordinary,environment,still⟩ := keeps.go s.system system target sound.usual went
    rw [run_changeDirectory went]
    -- The variables are bound when the shell and its process agree on the directory already.
    have told : Keeps (Sound usual there s₀) (do
        setVariable (txt "OLDPWD") s.shell.directory
        setVariable (txt "PWD") (Kernel.directory system)
        return .ok () : Act σ (Except SystemError Unit)) :=
      (keeps_setVariable keeps _ _).bind fun _ => (keeps_setVariable keeps _ _).bind fun _ => keeps_pure _
    have agrees : Agrees ⟨{ s.shell with directory := Kernel.directory system },system⟩ :=
      ⟨sound.agrees.environment.trans environment.symm,rfl⟩
    exact told _ ⟨ordinary,agrees,fun d was => still d (sound.there d was)⟩

theorem keeps_takeSettings (aliases environment : Bindings) :
    Keeps (Sound usual there s₀) (takeSettings aliases environment) := by
  have named : Keeps (Sound usual there s₀) (modifyShell fun s => { s with aliases := s.aliases.setAll aliases }) :=
    fun s sound => ⟨sound.usual,⟨sound.agrees.environment,sound.agrees.directory⟩,sound.there⟩
  refine named.bind fun _ => (keeps_forIn (fun p _ => ?_) _ _).bind fun _ => keeps_pure _
  exact (keeps_setVariable keeps p.1 p.2).bind fun _ => keeps_pure _

theorem keeps_writeText (c : Channel) (t : Text) : Keeps (Sound usual there s₀) (writeText c t) := by
  intro s sound
  obtain ⟨system,after,rfl | wrote⟩ := exists_run_writeText c t s
  · rw [after]
    exact sound
  · obtain ⟨ordinary,environment,directory,still⟩ := keeps.write s.system system c _ sound.usual wrote
    rw [after]
    exact ⟨ordinary,⟨sound.agrees.environment.trans environment.symm,sound.agrees.directory.trans directory.symm⟩,
      fun d was => still d (sound.there d was)⟩

theorem changing_keeps (c : Builtin.Channels) :
    Builtin.Changing (fun _ (a : Writing σ _) => Keeps (Sound usual there s₀) a.run) c where
  pure _ := keeps_pure _
  bind := keeps_writing_bind
  output t := keeps_writeText keeps c.output t
  errors t := keeps_writeText keeps c.errors t
  shell := keeps_act keeps_shell
  setVariable name value := keeps_act (keeps_setVariable keeps name value)
  unsetVariable name := keeps_act (keeps_unsetVariable keeps name)
  changeDirectory target := keeps_act (keeps_changeDirectory keeps target)

theorem keeps_run? (c : Builtin.Channels) {name : Text} (args : List Text) (changes : name ∈ Builtin.changers) :
    Keeps (Sound usual there s₀) (Builtin.run? c (name :: args)) := by
  have known : ∃ command, Builtin.command? c name args = some command ∧ Keeps (Sound usual there s₀) command.run := by
    have changing : Builtin.Changing (fun _ (a : Writing σ _) => Keeps (Sound usual there s₀) a.run) c :=
      changing_keeps keeps c
    simp only [Builtin.changers,List.mem_cons,List.not_mem_nil,or_false] at changes
    rcases changes with rfl | rfl | rfl
    · exact ⟨_,rfl,changing.cd args⟩
    · exact ⟨_,rfl,changing.exportVariables args⟩
    · exact ⟨_,rfl,changing.unset args⟩
  obtain ⟨command,known,kept⟩ := known
  simp only [Builtin.run?,known]
  refine kept.bind fun result => ?_
  cases result with
  | ok status => exact keeps_pure _
  | error e => exact (keeps_complain (keeps_writeText keeps) _).bind fun _ => keeps_pure _

theorem keeps_change (x : Change) : Keeps (Sound usual there s₀) x.act := by
  cases x with
  | bind name value => exact keeps_setVariable keeps name value
  | unbind name => exact keeps_unsetVariable keeps name
  | go target => exact (keeps_changeDirectory keeps target).bind fun _ => keeps_pure _
  | take aliases environment => exact keeps_takeSettings keeps aliases environment
  | command c name args changes => exact (keeps_run? keeps c args changes).bind fun _ => keeps_pure _

theorem keeps_changes (steps : List Change) : Keeps (Sound usual there s₀) (Change.run steps) := by
  induction steps with
  | nil => exact keeps_pure _
  | cons x r ih => exact (keeps_change keeps x).bind fun _ => ih

end

/-! ### Changing the directory -/

section
variable {σ : Type} [Kernel σ] {s t u : Session σ}

theorem Unmoved.refl (s : Session σ) : s.Unmoved s := ⟨rfl,rfl,rfl⟩

theorem Unmoved.trans (first : s.Unmoved t) (next : t.Unmoved u) : s.Unmoved u :=
  ⟨next.shell.trans first.shell,next.environment.trans first.environment,next.directory.trans first.directory⟩

theorem Agrees.unmoved (agrees : s.Agrees) (unmoved : s.Unmoved t) : t.Agrees := by
  refine ⟨?_,?_⟩
  · rw [unmoved.shell,unmoved.environment,agrees.environment]
  · rw [unmoved.shell,unmoved.directory,agrees.directory]

theorem Moved.unmoved (moved : s.Moved t) (unmoved : t.Unmoved u) : s.Moved u := by
  obtain ⟨agrees,new,old,others,rest⟩ := moved
  refine ⟨agrees.unmoved unmoved,?_,?_,?_,?_⟩
  all_goals rw [unmoved.shell]
  · exact new
  · exact old
  · exact others
  · exact rest

variable {usual : σ → Prop} {there : Text → σ → Prop} (keeps : KeepsPlace usual there) {s₀ : Session σ}
  (sound : Sound usual there s₀ s)
include keeps sound

theorem exists_moved {target : Text} {system : σ} (went : Kernel.changeDirectory target s.system = .ok system) :
    ∃ t, Yields (changeDirectory target) s (.ok ()) t ∧ s.Moved t ∧ t.shell.directory = Kernel.directory system := by
  obtain ⟨ordinary,-,-⟩ := keeps.go s.system system target sound.usual went
  have old : '\x00' ∉ s.shell.directory := by
    rw [sound.agrees.directory]
    exact (keeps.back s.system _ sound.usual (keeps.here s.system sound.usual)).1
  have new : '\x00' ∉ Kernel.directory system := (keeps.back system _ ordinary (keeps.here system ordinary)).1
  have result : ∃ t, Yields (changeDirectory target) s (.ok ()) t ∧ t.shell = { s.shell with
      directory := Kernel.directory system
      environment :=
        (s.shell.environment.set (txt "OLDPWD") s.shell.directory).set (txt "PWD") (Kernel.directory system) } := by
    have oldName : isVariableName (txt "OLDPWD") = true := by decide
    have newName : isVariableName (txt "PWD") = true := by decide
    have first := yields_setVariable oldName old ⟨{ s.shell with directory := Kernel.directory system },system⟩
    exact ⟨_,(run_changeDirectory went).trans
      (first.bind ((yields_setVariable newName new _).bind (yields_pure _ _))),rfl⟩
  obtain ⟨t,yields,shell⟩ := result
  have agrees := ((keeps_changeDirectory keeps target).of_yields yields sound).agrees
  have environment := congrArg Shell.environment shell
  have directory := congrArg Shell.directory shell
  dsimp only at environment directory
  refine ⟨t,yields,⟨agrees,?_,?_,?_,?_⟩,directory⟩
  · rw [environment,directory,Bindings.get?_set_self]
  · rw [environment,Bindings.get?_set_of_ne (by decide),Bindings.get?_set_self]
  · intro name other other'
    rw [environment,Bindings.get?_set_of_ne other.symm,Bindings.get?_set_of_ne other'.symm]
  · rw [shell]

end

/-! ### What `cd` comes to -/

section
variable {σ : Type} [Kernel σ] {s t : Session σ} {args : List Text}

theorem run_complaint_ne {c : Builtin.Channels} {message : Text} : ((do
    Builtin.fail c message
    return 1 : Writing σ Int).run.run s).1 ≠ .ok (.ok 0) := by
  intro success
  cases told : (Builtin.fail c message : Writing σ Unit).run.run s with
  | mk x t =>
    have result := run_bind_of_run told (ExceptT.bindCont fun _ => pure (1 : Int))
    replace success := (congrArg Prod.fst result).symm.trans success
    rcases x with crash | e | ⟨⟩
    · cases success
    · cases success
    · have one : (1 : Int) = 0 := Except.ok.inj (Except.ok.inj success)
      simp at one

theorem exists_run_cd_none (nowhere : Builtin.target? s.shell.environment args = none) (c : Builtin.Channels) :
    ∃ message, (Builtin.cd c args).run.run s = (do
      Builtin.fail c message
      return 1 : Writing σ Int).run.run s := by
  rw [Builtin.cd_eq,(Writing.ends_act (yields_shell s)).run_bind]
  simp only [nowhere]
  exact ⟨_,rfl⟩

variable {target : Text} (leads : Builtin.target? s.shell.environment args = some target)
include leads

theorem exists_run_cd_error {e : SystemError} (stayed : Yields (changeDirectory target) s (.error e) s)
    (c : Builtin.Channels) : ∃ message, (Builtin.cd c args).run.run s = (do
      Builtin.fail c message
      return 1 : Writing σ Int).run.run s := by
  rw [Builtin.cd_eq,(Writing.ends_act (yields_shell s)).run_bind]
  simp only [leads]
  exact ⟨_,(Writing.ends_act stayed).run_bind _⟩

theorem run_cd_ok (went : Yields (changeDirectory target) s (.ok ()) t) (c : Builtin.Channels) :
    (Builtin.cd c args).run.run s = (do
      if args.head? = some ['-'] then Builtin.say c t.shell.directory
      return 0 : Writing σ Int).run.run t := by
  rw [Builtin.cd_eq,(Writing.ends_act (yields_shell s)).run_bind]
  simp only [leads]
  refine ((Writing.ends_act went).run_bind _).trans ?_
  dsimp only
  split
  · exact (Writing.ends_act (yields_shell t)).run_bind _
  · rfl

end

section
variable {σ : Type} [Kernel σ] {usual : σ → Prop} {there : Text → σ → Prop} (keeps : KeepsPlace usual there)
  {s : Session σ}
include keeps

theorem keeps_unmoved_writeText (c : Channel) (t : Text) :
    Keeps (fun u => usual u.system ∧ s.Unmoved u) (writeText c t) := by
  intro u ⟨ordinary,unmoved⟩
  obtain ⟨system,after,rfl | wrote⟩ := exists_run_writeText c t u
  · rw [after]
    exact ⟨ordinary,unmoved⟩
  · obtain ⟨ordinary',environment,directory,-⟩ := keeps.write u.system system c _ ordinary wrote
    rw [after]
    exact ⟨ordinary',unmoved.trans ⟨rfl,environment,directory⟩⟩

/-- After a built-in command nothing changes further, and its success is that of the shell. -/
theorem run?_of_run {c : Builtin.Channels} {name : Text} {args : List Text} {command : Writing σ Int}
    (known : Builtin.command? c name args = some command) {x : Except Crash (Except SystemError Int)} {t : Session σ}
    (result : command.run.run s = (x,t)) (ordinary : usual t.system) :
    t.Unmoved ((Builtin.run? c (name :: args)).run s).2 ∧
    (((Builtin.run? c (name :: args)).run s).1 = .ok (some 0) ↔ x = .ok (.ok 0)) := by
  simp only [Builtin.run?,known]
  rw [run_bind_of_run result]
  rcases x with crash | e | status
  · refine ⟨.refl t,iff_of_false ?_ ?_⟩
    · rintro ⟨⟩
    · rintro ⟨⟩
  · have told : Keeps (fun u => usual u.system ∧ t.Unmoved u) (do
        complain (name ++ txt ": write error: " ++ e.message)
        return some 1 : Act σ (Option Int)) :=
      (keeps_complain (keeps_unmoved_writeText keeps) _).bind fun _ => keeps_pure _
    refine ⟨(told t ⟨ordinary,.refl t⟩).2,iff_of_false ?_ ?_⟩
    · intro success
      have one : (some 0 : Option Int) = some 1 := value_of_bind_pure success
      simp at one
    · rintro ⟨⟩
  · refine ⟨.refl t,?_⟩
    change (Except.ok (some status) : Except Crash (Option Int)) = .ok (some 0) ↔ _
    simp

theorem failed_of_run {c : Builtin.Channels} {name : Text} {args : List Text} {command : Writing σ Int}
    (known : Builtin.command? c name args = some command) {message : Text} (run : command.run.run s = (do
      Builtin.fail c message
      return 1 : Writing σ Int).run.run s) (ordinary : usual s.system) :
    s.Failed ((Builtin.run? c (name :: args)).run s) := by
  have complained : Keeps (fun u => usual u.system ∧ s.Unmoved u) (do
      Builtin.fail c message
      return 1 : Writing σ Int).run :=
    keeps_writing_bind (keeps_unmoved_writeText keeps _ _) fun _ => keeps_pure _
  have after := complained s ⟨ordinary,.refl s⟩
  obtain ⟨unmoved,success⟩ := run?_of_run keeps known run after.1
  exact ⟨after.2.trans unmoved,fun ended => run_complaint_ne (success.mp ended)⟩

theorem failed_cd {c : Builtin.Channels} {args : List Text} (ordinary : usual s.system)
    (stays : ∀ target, Builtin.target? s.shell.environment args = some target →
      ∃ e, Yields (changeDirectory target) s (.error e) s) : s.Failed ((Builtin.run? c (txt "cd" :: args)).run s) := by
  cases leads : Builtin.target? s.shell.environment args with
  | none =>
    obtain ⟨message,run⟩ := exists_run_cd_none leads c
    exact failed_of_run keeps rfl run ordinary
  | some target =>
    obtain ⟨e,stayed⟩ := stays target leads
    obtain ⟨message,run⟩ := exists_run_cd_error leads stayed c
    exact failed_of_run keeps rfl run ordinary

theorem unmoved_cd {t : Session σ} {c : Builtin.Channels} {args : List Text} {target : Text}
    (leads : Builtin.target? s.shell.environment args = some target) (went : Yields (changeDirectory target) s (.ok ()) t)
    (ordinary : usual t.system) :
    t.Unmoved ((Builtin.run? c (txt "cd" :: args)).run s).2 ∧
    (((Builtin.run? c (txt "cd" :: args)).run s).1 = .ok (some 0) ∨ args.head? = some ['-'] ∧
      ∃ e, Kernel.write c.output (Utf8.encode (t.shell.directory ++ ['\n'])) t.system = .error e) := by
  have known : Builtin.command? c (txt "cd") args = some (Builtin.cd c args : Writing σ Int) := rfl
  have run := run_cd_ok leads went c
  by_cases shown : args.head? = some ['-']
  · simp only [if_pos shown] at run
    cases wrote : Kernel.write c.output (Utf8.encode (t.shell.directory ++ ['\n'])) t.system with
    | error e =>
      have failed : Yields (writeText c.output (t.shell.directory ++ ['\n'])) t (.error e) t :=
        yields_attempt_error (by rw [wrote]; rfl)
      obtain ⟨unmoved,-⟩ := run?_of_run keeps known (run.trans (failed.run_bind _)) ordinary
      exact ⟨unmoved,.inr ⟨shown,e,rfl⟩⟩
    | ok system =>
      have said : Writing.Ends (Builtin.say c t.shell.directory) t () ⟨t.shell,system⟩ :=
        yields_attempt (by rw [wrote]; rfl)
      obtain ⟨ordinary',environment,directory,-⟩ := keeps.write t.system system c.output _ ordinary wrote
      obtain ⟨unmoved,success⟩ := run?_of_run keeps known (run.trans (said.run_bind _)) ordinary'
      have written : t.Unmoved ⟨t.shell,system⟩ := ⟨rfl,environment,directory⟩
      exact ⟨written.trans unmoved,.inl (success.mpr rfl)⟩
  · simp only [if_neg shown] at run
    obtain ⟨unmoved,success⟩ := run?_of_run keeps known run ordinary
    exact ⟨unmoved,.inl (success.mpr rfl)⟩

theorem comesBack {t : Session σ} (sound : Sound usual there s s) (after : Sound usual there s t) (moved : s.Moved t) :
    s.ComesBack t := by
  intro c args
  -- The directory of before is there still, and `OLDPWD` has its path.
  have there := after.there _ (keeps.here s.system sound.usual)
  obtain ⟨-,system,went,directory⟩ := keeps.back t.system _ after.usual there
  rw [← sound.agrees.directory] at went directory
  obtain ⟨u,yields,back,place⟩ := exists_moved keeps after went
  have leads : Builtin.target? t.shell.environment (['-'] :: args) = some s.shell.directory := moved.old
  have ordinary := ((keeps_changeDirectory keeps _).of_yields yields after).usual
  obtain ⟨unmoved,-⟩ := unmoved_cd keeps (c := c) leads yields ordinary
  refine ⟨back.unmoved unmoved,?_⟩
  rw [unmoved.shell,place,directory]

theorem changesDirectory (sound : Sound usual there s s) : s.ChangesDirectory where
  stays target e stayed := yields_changeDirectory_error stayed
  goes target system went := by
    obtain ⟨t,yields,moved,place⟩ := exists_moved keeps sound went
    have after := (keeps_changeDirectory keeps target).of_yields yields sound
    exact ⟨t,yields,moved,place,comesBack keeps sound after moved⟩
  command c args := by
    have after : Sound usual there s ((Builtin.run? c (txt "cd" :: args)).run s).2 :=
      keeps_run? keeps c args (by simp [Builtin.changers]) s sound
    by_cases goes : ∃ target system, Builtin.target? s.shell.environment args = some target ∧
        Kernel.changeDirectory target s.system = .ok system
    · obtain ⟨target,system,leads,went⟩ := goes
      obtain ⟨t,yields,moved,-⟩ := exists_moved keeps sound went
      have ordinary := ((keeps_changeDirectory keeps target).of_yields yields sound).usual
      obtain ⟨unmoved,ended⟩ := unmoved_cd keeps (c := c) leads yields ordinary
      have whole := moved.unmoved unmoved
      exact .inr ⟨target,t,leads,yields,unmoved,whole,comesBack keeps sound after whole,ended⟩
    · refine .inl (failed_cd keeps sound.usual fun target leads => ?_)
      cases went : Kernel.changeDirectory target s.system with
      | error e => exact ⟨e,yields_changeDirectory_error went⟩
      | ok system => exact absurd ⟨target,system,leads,went⟩ goes

/-- **A shell and its process agree.** Whatever has changed the environment and the directory of a shell, those of its
    process are the same, and words are expanded with them. A change of the directory changes both, and one that fails
    changes neither; only `cd -`, which shows the new directory, can fail after the change. -/
theorem agrees_run (history : History) {system : σ} (ordinary : usual system) (steps : List Change) :
    let s := ((Change.run steps).run ⟨.start history system,system⟩).2
    s.Agrees ∧ (∃ u, Yields surroundings s u s ∧ ∀ name, u.valueOf name = s.shell.environment.get? name) ∧
    s.ChangesDirectory := by
  intro s
  have start : Sound usual there ⟨.start history system,system⟩ ⟨.start history system,system⟩ :=
    ⟨ordinary,⟨rfl,rfl⟩,fun _ was => was⟩
  obtain ⟨usual',agrees,-⟩ := keeps_changes keeps steps _ start
  refine ⟨agrees,⟨_,rfl,fun name => ?_⟩,changesDirectory keeps ⟨usual',agrees,fun _ was => was⟩⟩
  rw [agrees.environment]

end

/-! ### A machine with a full device -/

/-- A machine with two directories, a link to one of them, and a device that takes nothing. -/
def fullDeviceMachine : Machine :=
  let name := Raw.ofText (txt "\u00e9t\u00e9")
  .start ⟨[([txt "dev"],.directory),([txt "dev",txt "full"],.zeros false),([name],.directory),([name,['d']],.directory),
    ([['l']],.link (name ++ txt "/d"))]⟩ [(txt "HOME",['/']),(txt "PATH",txt "/bin")] [] .empty 0

theorem stands_fullDevice : Machine.Stands fullDeviceMachine := ⟨by decide +kernel,_,rfl,by rfl⟩

/-- Changes of all kinds, of which one fails. -/
def fullDeviceChanges : List Change :=
  [.bind ['A'] (txt "\u00e9"),.go ['l'],.go (txt "missing"),
    .command .standard (txt "export") [txt "B=1",txt "2=3"] (by decide),.command .standard (txt "cd") [] (by decide),
    .unbind ['A'],.take [(txt "ll",txt "ls -l")] [(['C'],[])],.command .standard (txt "unset") [['B']] (by decide),
    .command .standard (txt "cd") [['-']] (by decide)]

/-- A link was gone through, and after `cd` the shell came back to where it leads. -/
theorem agrees_run_fullDevice :
    KeepsPlace Machine.Stands Machine.HasDirectory ∧ Machine.Stands fullDeviceMachine ∧
    let s := ((Change.run fullDeviceChanges).run ⟨.start (.inMemory 10 true) fullDeviceMachine,fullDeviceMachine⟩).2
    s.shell.directory = txt "/\u00e9t\u00e9/d" ∧
    s.shell.environment = [(['C'],[]),(txt "HOME",['/']),(txt "OLDPWD",['/']),(txt "PATH",txt "/bin"),
      (txt "PWD",txt "/\u00e9t\u00e9/d")] ∧
    s.Agrees ∧ (∃ u, Yields surroundings s u s ∧ ∀ name, u.valueOf name = s.shell.environment.get? name) ∧
    s.ChangesDirectory :=
  ⟨Machine.keepsPlace,stands_fullDevice,by decide +kernel,by decide +kernel,
    agrees_run Machine.keepsPlace (.inMemory 10 true) stands_fullDevice fullDeviceChanges⟩

/-- With its output on the device `cd -` fails, and the shell has gone back. -/
theorem cd_fails_moved :
    let s := ((Change.run [.go ['l']]).run ⟨.start (.inMemory 10 true) fullDeviceMachine,fullDeviceMachine⟩).2
    s.shell.directory = txt "/\u00e9t\u00e9/d" ∧ s.shell.environment.get? (txt "PWD") = some (txt "/\u00e9t\u00e9/d") ∧
    ∃ opened ∈ (Kernel.openFile .output (txt "/dev/full") s.system).toOption,
      let r := (Builtin.run? ⟨.handle opened.1,.errors⟩ [txt "cd",['-']]).run ⟨s.shell,opened.2⟩
      r.1.toOption = some (some 1) ∧ r.2.shell.directory = ['/'] ∧ Kernel.directory r.2.system = ['/'] ∧
      r.2.shell.environment.get? (txt "PWD") = some ['/'] ∧
      (Kernel.environment r.2.system).get? (txt "PWD") = some ['/'] := by
  decide +kernel

end Session
end JobShell

import JobShell.Proofs.Session.Writing

/-!
# What built-in commands are made of

The built-in commands are put together from few parts. What goes from the parts
to the whole and holds of these parts holds of the commands. Those that change
variables have a part more each, and are treated apart (`Changing`).
-/
namespace JobShell
namespace Builtin
open Writing

section
variable {σ : Type} [Kernel σ] {P : ∀ α : Type, Writing σ α → Prop} {c : Channels}

/-- A property that goes from parts of actions to the whole, and that the parts of built-in commands have. -/
structure Parts (P : ∀ α : Type, Writing σ α → Prop) (c : Channels) : Prop where
  pure : ∀ {α : Type} (v : α), P α (Pure.pure v)
  bind : ∀ {α β : Type} {a : Writing σ α} {f : α → Writing σ β}, P α a → (∀ v, P β (f v)) → P β (a >>= f)
  output : ∀ t, P Unit (print c.output t)
  errors : ∀ t, P Unit (print c.errors t)
  shell : P Shell (act Act.shell)
  modifyShell : ∀ f, P Unit (act (Act.modifyShell f))
  collectJobs : P Unit (act Act.collectJobs)
  chosenJob : ∀ args, P _ (act (chosenJob args))
  continueGroup : ∀ group, P Unit (act (Act.continueGroup group))
  awaitForeground : ∀ j, P _ (act (Act.awaitForeground j))
  log : ∀ l t, P Unit (act (Act.log l t))

namespace Parts
variable (parts : Parts P c)
include parts

theorem say (t : Text) : P Unit (say c t) := parts.output _

theorem fail (t : Text) : P Unit (fail c t) := parts.errors _

/-- An action that is done under a condition, and what follows it in any case. -/
theorem when {p : Prop} [Decidable p] {β : Type} {a : Writing σ Unit} {f : Unit → Writing σ β} (first : P Unit a)
    (rest : ∀ v, P β (f v)) : P β (if p then a >>= f else f ()) := by
  split
  · exact parts.bind first rest
  · exact rest ()

theorem forIn {β γ : Type} {f : γ → β → Writing σ (ForInStep β)} {l : List γ} (each : ∀ x ∈ l, ∀ b, P _ (f x b)) (b : β) :
    P β (forIn l b f) := forIn_of_bind parts.pure parts.bind each b

theorem exit (args : List Text) : P Int (exit c args) := by
  refine parts.bind (parts.modifyShell _) fun _ => ?_
  cases args with
  | nil => exact parts.bind parts.shell fun _ => parts.pure _
  | cons arg r =>
    dsimp only
    split
    · exact parts.pure _
    · exact parts.bind (parts.fail _) fun _ => parts.pure _

theorem pwd : P Int (pwd c) :=
  parts.bind parts.shell fun _ => parts.bind (parts.say _) fun _ => parts.pure _

theorem aliasAll (args : List Text) (status : Int) : P Int (aliasAll c args status) := by
  induction args generalizing status with
  | nil => exact parts.pure _
  | cons arg r ih =>
    rw [Builtin.aliasAll]
    split
    · exact parts.bind (parts.fail _) fun _ => ih _
    · exact parts.bind (parts.modifyShell _) fun _ => ih _
    · refine parts.bind parts.shell fun shell => ?_
      split
      · exact parts.bind (parts.say _) fun _ => ih _
      · exact parts.bind (parts.fail _) fun _ => ih _

theorem defineAliases (args : List Text) : P Int (defineAliases c args) := by
  rw [Builtin.defineAliases]
  split
  · refine parts.bind parts.shell fun shell => parts.bind (parts.forIn (fun p _ _ => ?_) _) fun _ => parts.pure _
    exact parts.bind (parts.say _) fun _ => parts.pure _
  · exact parts.aliasAll _ _

theorem unaliasAll (args : List Text) (status : Int) : P Int (unaliasAll c args status) := by
  induction args generalizing status with
  | nil => exact parts.pure _
  | cons name r ih =>
    rw [Builtin.unaliasAll]
    split
    · exact parts.bind (parts.modifyShell _) fun _ => ih _
    · refine parts.bind parts.shell fun shell => ?_
      split
      · exact parts.bind (parts.modifyShell _) fun _ => ih _
      · exact parts.bind (parts.fail _) fun _ => ih _

theorem unalias (args : List Text) : P Int (unalias c args) := by
  rw [Builtin.unalias]
  split
  · exact parts.bind (parts.fail _) fun _ => parts.pure _
  · exact parts.unaliasAll _ _

theorem jobs : P Int (jobs c) :=
  parts.bind parts.collectJobs fun _ => parts.bind parts.shell fun _ => parts.bind (parts.output _) fun _ =>
    parts.bind (parts.modifyShell _) fun _ => parts.pure _

theorem fg (args : List Text) : P Int (fg c args) := by
  refine parts.bind (parts.chosenJob args) fun chosen => ?_
  cases chosen with
  | error e => exact parts.bind (parts.fail _) fun _ => parts.pure _
  | ok j =>
    refine parts.bind (parts.say _) fun _ => parts.when (parts.continueGroup _) fun _ => ?_
    refine parts.bind (parts.awaitForeground _) fun ((status,stopped),j) => ?_
    dsimp only
    split
    · exact parts.bind (parts.modifyShell _) fun _ => parts.bind (parts.errors _) fun _ => parts.pure _
    · exact parts.bind (parts.modifyShell _) fun _ => parts.bind (parts.log _ _) fun _ => parts.pure _

theorem bg (args : List Text) : P Int (bg c args) := by
  refine parts.bind (parts.chosenJob args) fun chosen => ?_
  cases chosen with
  | error e => exact parts.bind (parts.fail _) fun _ => parts.pure _
  | ok j =>
    dsimp only
    split
    · exact parts.bind (parts.fail _) fun _ => parts.pure _
    · exact parts.bind (parts.fail _) fun _ => parts.pure _
    · exact parts.bind (parts.continueGroup _) fun _ => parts.bind (parts.modifyShell _) fun _ =>
        parts.bind (parts.say _) fun _ => parts.pure _

theorem showEntries (n : Nat) (l : List HistoryEntry) : P Unit (showEntries c n l) := by
  induction l generalizing n with
  | nil => exact parts.pure _
  | cons e l ih => exact parts.bind (parts.say _) fun _ => ih _

theorem history (args : List Text) : P Int (history c args) := by
  refine parts.bind parts.shell fun shell => ?_
  cases args with
  | nil => exact parts.bind (parts.showEntries _ _) fun _ => parts.pure _
  | cons arg r =>
    dsimp only
    split
    · exact parts.bind (parts.modifyShell _) fun _ => parts.pure _
    · split
      · exact parts.bind (parts.showEntries _ _) fun _ => parts.pure _
      · exact parts.bind (parts.fail _) fun _ => parts.pure _

/-- All commands, once it is known of those that change variables. -/
theorem command {name : Text} {args : List Text} (unsets : name = txt "unset" → P Int (unset args))
    (exports : name = txt "export" → P Int (exportVariables c args)) (moves : name = txt "cd" → P Int (cd c args)) :
    ∀ command, command? c name args = some command → P Int command := by
  have either : ∀ {p : Prop} [Decidable p] {a : Writing σ Int} {b : Option (Writing σ Int)}, (p → P Int a) →
      (∀ command, b = some command → P Int command) → ∀ command, (if p then some a else b) = some command →
        P Int command := by
    intro p _ a b first rest command known
    split at known
    · rename_i here
      exact Option.some.inj known ▸ first here
    · exact rest command known
  rw [command?]
  refine either (fun _ => parts.exit args) (either moves (either (fun _ => parts.pwd) ?_))
  refine either exports (either unsets (either (fun _ => parts.defineAliases args) ?_))
  refine either (fun _ => parts.unalias args) (either (fun _ => parts.jobs) (either (fun _ => parts.fg args) ?_))
  refine either (fun _ => parts.bg args) (either (fun _ => parts.history args) ?_)
  exact fun command known => nomatch known

end Parts

/-! ### Commands that change variables -/

/-- A property that goes from parts of actions to the whole, and that the parts of the built-in commands have that change
    variables. -/
structure Changing (P : ∀ α : Type, Writing σ α → Prop) (c : Channels) : Prop where
  pure : ∀ {α : Type} (v : α), P α (Pure.pure v)
  bind : ∀ {α β : Type} {a : Writing σ α} {f : α → Writing σ β}, P α a → (∀ v, P β (f v)) → P β (a >>= f)
  output : ∀ t, P Unit (print c.output t)
  errors : ∀ t, P Unit (print c.errors t)
  shell : P Shell (act Act.shell)
  setVariable : ∀ name value, P Unit (act (Act.setVariable name value))
  unsetVariable : ∀ name, P Unit (act (Act.unsetVariable name))
  changeDirectory : ∀ target, P _ (act (Act.changeDirectory target))

namespace Changing
variable (changing : Changing P c)
include changing

theorem cd (args : List Text) : P Int (cd c args) := by
  refine changing.bind changing.shell fun shell => ?_
  dsimp only
  split
  · exact changing.bind (changing.errors _) fun _ => changing.pure _
  · refine changing.bind (changing.changeDirectory _) fun moved => ?_
    cases moved with
    | error e => exact changing.bind (changing.errors _) fun _ => changing.pure _
    | ok =>
      dsimp only
      split
      · exact changing.bind changing.shell fun _ => changing.bind (changing.output _) fun _ => changing.pure _
      · exact changing.pure _

theorem exportAll (args : List Text) (status : Int) : P Int (exportAll c args status) := by
  induction args generalizing status with
  | nil => exact changing.pure _
  | cons arg r ih =>
    rw [Builtin.exportAll]
    dsimp only
    split
    · split
      · exact changing.bind (changing.setVariable _ _) fun _ => ih _
      · exact ih _
    · exact changing.bind (changing.errors _) fun _ => ih _

theorem exportVariables (args : List Text) : P Int (exportVariables c args) := by
  rw [Builtin.exportVariables]
  split
  · refine changing.bind changing.shell fun shell =>
      changing.bind (forIn_of_bind changing.pure changing.bind (fun p _ _ => ?_) _) fun _ => changing.pure _
    exact changing.bind (changing.output _) fun _ => changing.pure _
  · exact changing.exportAll _ _

theorem unset (args : List Text) : P Int (unset args) := by
  refine changing.bind (forIn_of_bind changing.pure changing.bind (fun name _ _ => ?_) _) fun _ => changing.pure _
  exact changing.bind (changing.unsetVariable name) fun _ => changing.pure _

end Changing
end
end Builtin
end JobShell

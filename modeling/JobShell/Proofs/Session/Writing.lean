import JobShell.Proofs.Session.Steady

/-!
# Actions that write

A command that writes ends early when its channel does not take what is written.
With channels that take everything it goes on to its end, unless the shell
breaks down on the way.
-/
namespace JobShell

namespace Act
variable {σ : Type} {α β : Type}

/-- An action that never breaks down. -/
def Total (a : Act σ α) : Prop := ∀ s, ∃ v t, Yields a s v t

theorem Steady.total {a : Act σ α} (steady : Steady a) : Total a := fun s =>
  have ⟨v,t,yields,_⟩ := steady s
  ⟨v,t,yields⟩

theorem total_pure (v : α) : Total (pure v : Act σ α) := (steady_pure v).total

theorem Total.bind {a : Act σ α} {f : α → Act σ β} (first : Total a) (rest : ∀ v, Total (f v)) : Total (a >>= f) := by
  intro s
  obtain ⟨v,t,yields⟩ := first s
  obtain ⟨w,u,later⟩ := rest v t
  exact ⟨w,u,yields.bind later⟩

theorem total_modifyShell (f : Shell → Shell) : Total (modifyShell f : Act σ Unit) :=
  fun s => ⟨_,_,yields_modifyShell f s⟩

/-- The shell breaks down: a variable is named or bound that no environment can have. -/
def Breaks (a : Act σ α) (s : Session σ) : Prop := ∃ name t, a.run s = (.error (.badVariable name),t)

theorem Breaks.bind {a : Act σ α} {s : Session σ} (broken : Breaks a s) (f : α → Act σ β) : Breaks (a >>= f) s := by
  obtain ⟨name,t,run⟩ := broken
  exact ⟨name,t,run_bind_of_run run f⟩

theorem Yields.breaks {a : Act σ α} {f : α → Act σ β} {s t : Session σ} {v : α} (first : Yields a s v t)
    (broken : Breaks (f v) t) : Breaks (a >>= f) s := by
  rw [Breaks,first.run_bind]
  exact broken

end Act

/-! ### With channels that take everything -/

/-- A channel takes all that is written to it. -/
def Kernel.Accepts (σ : Type) [Kernel σ] (c : Channel) : Prop := ∀ b (s : σ), ∃ t, Kernel.write c b s = .ok t

theorem Act.not_untold_of_accepts {σ α : Type} [Kernel σ] (accepts : Kernel.Accepts σ .errors) {a : Act σ α}
    {s t : Session σ} : ¬Untold a s t := by
  rintro ⟨text,e,lost,-⟩
  obtain ⟨u,told⟩ := accepts (Utf8.encode text) t.system
  rw [lost] at told
  cases told

/-- A system whose shell writes to memory. -/
structure Recorded (σ : Type) where
  system : σ
  /-- What was written and where, from first to last. -/
  written : List (Channel × Bytes)

namespace Recorded
variable {σ α ε : Type}

/-- The same record for another state of the system. -/
def along (s : Recorded σ) (t : σ) : Recorded σ := { s with system := t }

/-- What an operation of the system yields, with the record of before. -/
def carry (s : Recorded σ) (r : α × σ) : α × Recorded σ := (r.1,s.along r.2)

instance [Kernel σ] : Kernel (Recorded σ) where
  environment s := Kernel.environment s.system
  setEnvironment b s := s.along (Kernel.setEnvironment b s.system)
  homeOf s := Kernel.homeOf s.system
  directory s := Kernel.directory s.system
  changeDirectory target s := (Kernel.changeDirectory target s.system).map s.along
  kindOf s := Kernel.kindOf s.system
  namesIn s := Kernel.namesIn s.system
  contentOf s := Kernel.contentOf s.system
  appendFile path b s := (Kernel.appendFile path b s.system).map s.along
  replaceFile path b s := (Kernel.replaceFile path b s.system).map s.along
  createDirectories path s := s.along (Kernel.createDirectories path s.system)
  openFile mode path s := (Kernel.openFile mode path s.system).map s.carry
  pipe s := (Kernel.pipe s.system).map s.carry
  close h s := s.along (Kernel.close h s.system)
  write c b s := .ok { s with written := s.written ++ [(c,b)] }
  spawn l s := s.carry (Kernel.spawn l s.system)
  fork group w s := s.carry (Kernel.fork group w s.system)
  endFork status s := s.along (Kernel.endFork status s.system)
  beginCapture s := (Kernel.beginCapture s.system).map s.along
  endCapture status s := s.carry (Kernel.endCapture status s.system)
  signalGroup group n s := s.carry (Kernel.signalGroup group n s.system)
  waitGroup group s := s.carry (Kernel.waitGroup group s.system)
  waitProcess pid s := s.carry (Kernel.waitProcess pid s.system)
  poll group s := s.carry (Kernel.poll group s.system)
  foreground s := Kernel.foreground s.system
  setForeground group s := s.along (Kernel.setForeground group s.system)
  giveTerminal group s := s.along (Kernel.giveTerminal group s.system)
  log l t s := s.along (Kernel.log l t s.system)
  events s := Kernel.events s.system
  log_events l t s := Kernel.log_events l t s.system
  waitGroup_events group s := Kernel.waitGroup_events group s.system
  waitProcess_events pid s := Kernel.waitProcess_events pid s.system
  poll_events group s := Kernel.poll_events group s.system

theorem accepts [Kernel σ] (c : Channel) : Kernel.Accepts (Recorded σ) c := fun _ _ => ⟨_,rfl⟩

end Recorded

namespace Writing
variable {σ : Type} {α β : Type}

/-- The action comes to its end with a value, and all that it wrote was taken. -/
def Ends (a : Writing σ α) (s : Session σ) (v : α) (t : Session σ) : Prop := Act.Yields a.run s (.ok v) t

/-- An action that always comes to its end. -/
def Total (a : Writing σ α) : Prop := ∀ s, ∃ v t, Ends a s v t

theorem ends_pure (v : α) (s : Session σ) : Ends (pure v) s v s := rfl

theorem Ends.bind {a : Writing σ α} {f : α → Writing σ β} {s t u : Session σ} {v : α} {w : β} (first : Ends a s v t)
    (rest : Ends (f v) t w u) : Ends (a >>= f) s w u := Act.Yields.bind (f := ExceptT.bindCont f) first rest

theorem Ends.run_bind {a : Writing σ α} {s t : Session σ} {v : α} (first : Ends a s v t) (f : α → Writing σ β) :
    (a >>= f).run.run s = (f v).run.run t := Act.Yields.run_bind first (ExceptT.bindCont f)

theorem Ends.breaks {a : Writing σ α} {f : α → Writing σ β} {s t : Session σ} {v : α} (first : Ends a s v t)
    (broken : Act.Breaks (f v).run t) : Act.Breaks (a >>= f).run s :=
  Act.Yields.breaks (f := ExceptT.bindCont f) first broken

theorem run_act (a : Act σ α) : (act a).run = a >>= fun v => pure (.ok v) := (bind_pure_comp Except.ok a).symm

theorem ends_act {a : Act σ α} {s t : Session σ} {v : α} (yields : Act.Yields a s v t) : Ends (act a) s v t := by
  rw [Ends,run_act]
  exact yields.bind (Act.yields_pure _ t)

theorem exists_ends_of_yields {a : Act σ α} {f : α → Writing σ β} {s t : Session σ} {v : α}
    (yields : Act.Yields a s v t) (rest : ∃ w u, Ends (f v) t w u) : ∃ w u, Ends (act a >>= f) s w u :=
  have ⟨w,u,ends⟩ := rest
  ⟨w,u,(ends_act yields).bind ends⟩

theorem breaks_bind {a : Writing σ α} {s : Session σ} (broken : Act.Breaks a.run s) (f : α → Writing σ β) :
    Act.Breaks (a >>= f).run s := broken.bind (ExceptT.bindCont f)

theorem breaks_act {a : Act σ α} {s : Session σ} (broken : Act.Breaks a s) : Act.Breaks (act a).run s := by
  rw [run_act]
  exact broken.bind _

theorem total_pure (v : α) : Total (pure v : Writing σ α) := fun s => ⟨v,s,ends_pure v s⟩

theorem Total.bind {a : Writing σ α} {f : α → Writing σ β} (first : Total a) (rest : ∀ v, Total (f v)) :
    Total (a >>= f) := by
  intro s
  obtain ⟨v,t,ends⟩ := first s
  obtain ⟨w,u,later⟩ := rest v t
  exact ⟨w,u,ends.bind later⟩

theorem total_act {a : Act σ α} (total : Act.Total a) : Total (act a) := fun s =>
  have ⟨v,t,yields⟩ := total s
  ⟨v,t,ends_act yields⟩

/-- A property that goes from parts of actions to the whole goes from the turns of a loop to the loop. -/
theorem forIn_of_bind {P : ∀ α : Type, Writing σ α → Prop} (pure : ∀ {α : Type} (v : α), P α (Pure.pure v))
    (bind : ∀ {α β : Type} {a : Writing σ α} {f : α → Writing σ β}, P α a → (∀ v, P β (f v)) → P β (a >>= f))
    {γ : Type} {f : γ → β → Writing σ (ForInStep β)} {l : List γ} (each : ∀ x ∈ l, ∀ b, P _ (f x b)) (b : β) :
    P β (forIn l b f) := by
  induction l generalizing b with
  | nil => exact pure b
  | cons x l ih =>
    rw [List.forIn_cons]
    refine bind (each x List.mem_cons_self b) fun step => ?_
    cases step with
    | done b => exact pure b
    | yield b => exact ih (fun x mem => each x (List.mem_cons_of_mem _ mem)) b

theorem total_forIn {γ : Type} {f : γ → β → Writing σ (ForInStep β)} {l : List γ}
    (each : ∀ x ∈ l, ∀ b, Total (f x b)) (b : β) : Total (forIn l b f) :=
  forIn_of_bind (P := fun _ a => Total a) total_pure Total.bind each b

theorem total_print [Kernel σ] {c : Channel} (accepts : Kernel.Accepts σ c) (t : Text) :
    Total (print c t : Writing σ Unit) := by
  intro s
  obtain ⟨after,written⟩ := accepts (Utf8.encode t) s.system
  exact ⟨(),_,Act.yields_attempt (by rw [written]; rfl)⟩

end Writing
end JobShell

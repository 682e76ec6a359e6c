import JobShell.Session.State

/-!
# What an action comes to

Actions are put together from few operations on a shell and its operating
system; what a composite action comes to follows from what its parts come to.
-/
namespace JobShell
namespace Act

section
variable {σ : Type} {α β : Type}

/-- The action ends without a breakdown, with a value and in a session. -/
def Yields (a : Act σ α) (s : Session σ) (v : α) (t : Session σ) : Prop := a.run s = (.ok v,t)

theorem yields_pure (v : α) (s : Session σ) : Yields (pure v) s v s := rfl

theorem run_bind_of_run {a : Act σ α} {s t : Session σ} {x : Except Crash α} (result : a.run s = (x,t))
    (f : α → Act σ β) : (a >>= f).run s = ExceptT.bindCont f x t := by
  change (match a.run s with | (x,t) => ExceptT.bindCont f x t) = _
  rw [result]

/-- An action after one that is done goes on where that ended. -/
theorem Yields.run_bind {a : Act σ α} {s t : Session σ} {v : α} (first : Yields a s v t) (f : α → Act σ β) :
    (a >>= f).run s = (f v).run t := run_bind_of_run first f

/-- One action after another. -/
theorem Yields.bind {a : Act σ α} {f : α → Act σ β} {s t u : Session σ} {v : α} {w : β} (first : Yields a s v t)
    (rest : Yields (f v) t w u) : Yields (a >>= f) s w u := (first.run_bind f).trans rest

/-- An action after another one ends only when both do. -/
theorem Yields.exists_of_bind {a : Act σ α} {f : α → Act σ β} {s u : Session σ} {w : β}
    (whole : Yields (a >>= f) s w u) : ∃ v t, Yields a s v t ∧ Yields (f v) t w u := by
  have step : ExceptT.run (a >>= f) s = (match ExceptT.run a s with | (x,t) => ExceptT.bindCont f x t) := rfl
  rw [Yields,step] at whole
  cases first : ExceptT.run a s with
  | mk x t =>
    rw [first] at whole
    cases x with
    | error c => cases whole
    | ok v => exact ⟨v,t,first,whole⟩

/-- An action yields one thing. -/
theorem Yields.unique {a : Act σ α} {s t u : Session σ} {v w : α} (one : Yields a s v t) (other : Yields a s w u) :
    v = w ∧ t = u := by
  rw [Yields] at one other
  rw [one] at other
  cases other
  exact ⟨rfl,rfl⟩

theorem yields_modifyShell (f : Shell → Shell) (s : Session σ) :
    Yields (modifyShell f) s () ⟨f s.shell,s.system⟩ := rfl

theorem yields_shell (s : Session σ) : Yields shell s s.shell s := rfl

theorem yields_system (s : Session σ) : Yields system s s.system s := rfl

theorem yields_modifySystem (f : σ → σ) (s : Session σ) : Yields (modifySystem f) s () ⟨s.shell,f s.system⟩ := rfl

theorem yields_attempt {ε : Type} {f : σ → Except ε (α × σ)} {s : Session σ} {v : α} {t : σ}
    (succeeds : f s.system = .ok (v,t)) : Yields (attempt f) s (.ok v) ⟨s.shell,t⟩ := by
  refine (yields_system s).bind ?_
  simp only [succeeds]
  exact (yields_modifySystem (fun _ => t) s).bind (yields_pure _ _)

theorem yields_attempt_error {ε : Type} {f : σ → Except ε (α × σ)} {s : Session σ} {e : ε}
    (fails : f s.system = .error e) : Yields (attempt f) s (.error e) s := by
  refine (yields_system s).bind ?_
  simp only [fails]
  exact yields_pure _ s

theorem yields_operate {f : σ → α × σ} {s : Session σ} {v : α} {t : σ} (result : f s.system = (v,t)) :
    Yields (operate f) s v ⟨s.shell,t⟩ := by
  refine (yields_system s).bind ?_
  rw [result]
  exact (yields_modifySystem (fun _ => t) s).bind (yields_pure _ _)

end

section
variable {σ : Type} [Kernel σ] {s : Session σ}

/-- A command that makes no entry changes nothing. -/
theorem yields_remember_none {command : Text} {status : Int} {time : Nat}
    (nothing : s.shell.history.entry? command status time = none) :
    Yields (remember command status time) s false s := by
  refine (yields_shell s).bind ?_
  simp only [nothing]
  exact yields_pure false s

/-- An entry is added to the file and to the history. -/
theorem yields_remember_some {command : Text} {status : Int} {time : Nat} {e : HistoryEntry} {file : Text} {t : σ}
    (kept : s.shell.history.entry? command status time = some e) (filed : s.shell.history.file = some file)
    (appended : Kernel.appendFile file e.bytes s.system = .ok t) :
    Yields (remember command status time) s true ⟨{ s.shell with history := s.shell.history.push e },t⟩ := by
  refine (yields_shell s).bind ?_
  simp only [kept,filed]
  have wrote : Yields (attempt fun s => (Kernel.appendFile file e.bytes s).map (fun s => ((),s))) s (.ok ())
      ⟨s.shell,t⟩ := yields_attempt (by rw [appended]; rfl)
  refine wrote.bind ?_
  refine (yields_modifyShell _ _).bind ?_
  exact yields_pure true _

/-- A file that holds no more than the history is left as it is. -/
theorem yields_saveHistory_none (current : s.shell.history.replacement? = none) :
    Yields saveHistory s (.ok ()) s := by
  refine (yields_shell s).bind ?_
  simp only [current]
  exact yields_pure _ s

/-- The file is replaced by the history. -/
theorem yields_saveHistory_some {file : Text} {content : Bytes} {t : σ}
    (due : s.shell.history.replacement? = some (file,content))
    (replaced : Kernel.replaceFile file content s.system = .ok t) :
    Yields saveHistory s (.ok ()) ⟨{ s.shell with history := s.shell.history.written },t⟩ := by
  refine (yields_shell s).bind ?_
  simp only [due]
  have wrote : Yields (attempt fun s => (Kernel.replaceFile file content s).map (fun s => ((),s))) s (.ok ())
      ⟨s.shell,t⟩ := yields_attempt (by rw [replaced]; rfl)
  refine wrote.bind ?_
  refine (yields_modifyShell _ _).bind ?_
  exact yields_pure _ _

/-! ### Telling the user -/

theorem yields_tell {t : Text} {system : σ} (told : Kernel.write .errors (Utf8.encode t) s.system = .ok system) :
    Yields (tell t) s () ⟨s.shell,system⟩ := by
  have wrote : Yields (writeText .errors t) s (.ok ()) ⟨s.shell,system⟩ := yields_attempt (by rw [told]; rfl)
  exact wrote.bind (yields_pure () _)

theorem run_tell_error {t : Text} {e : SystemError} (lost : Kernel.write .errors (Utf8.encode t) s.system = .error e) :
    (tell t).run s = (.error (.untold e),s) := by
  have failed : Yields (writeText .errors t) s (.error e) s := yields_attempt_error (by rw [lost]; rfl)
  rw [tell,failed.run_bind]
  rfl

/-- The shell breaks down: something that the user is to be told cannot be written, in the session in which it is left. -/
def Untold {α : Type} (a : Act σ α) (s t : Session σ) : Prop :=
  ∃ text e, Kernel.write .errors (Utf8.encode text) t.system = .error e ∧ a.run s = (.error (.untold e),t)

section
variable {α β : Type} {a : Act σ α} {t u : Session σ}

theorem Untold.bind (untold : Untold a s t) (f : α → Act σ β) : Untold (a >>= f) s t := by
  obtain ⟨text,e,lost,run⟩ := untold
  exact ⟨text,e,lost,run_bind_of_run run f⟩

theorem Yields.untold {f : α → Act σ β} {v : α} (first : Yields a s v t) (rest : Untold (f v) t u) :
    Untold (a >>= f) s u := by
  rw [Untold,first.run_bind]
  exact rest

theorem Untold.not_yields (untold : Untold a s t) {v : α} : ¬Yields a s v u := by
  obtain ⟨text,e,-,run⟩ := untold
  intro yields
  rw [Yields,run] at yields
  cases yields

end

/-- The user is told something, or the shell breaks down where it is. -/
theorem tell_cases (t : Text) (s : Session σ) :
    (∃ system, Kernel.write .errors (Utf8.encode t) s.system = .ok system ∧ Yields (tell t) s () ⟨s.shell,system⟩) ∨
      Untold (tell t) s s := by
  cases told : Kernel.write .errors (Utf8.encode t) s.system with
  | ok system => exact .inl ⟨system,rfl,yields_tell told⟩
  | error e => exact .inr ⟨t,e,told,run_tell_error told⟩

end
end Act
end JobShell

import JobShell.Proofs.Session.OwnCommand
import JobShell.Proofs.Session.Preparing
import JobShell.System.Machine.Shell
import Mathlib.Data.List.Forall2
import Mathlib.Logic.Function.Basic

/-!
# Where redirections lead

The redirections of a command stand in an order. Its files are opened in this
order; but when a process is started its descriptors are first bound to files and
only then made duplicates of each other. This comes to the same as the order in
which the redirections stand unless a file takes the place of what an earlier
duplication has read or made.
-/
namespace JobShell

/-- The descriptor that a redirection to a file binds. -/
def FileMode.descriptor : FileMode → Int
  | .input => 0
  | .output | .append => 1
  | .error => 2

/-- The descriptors that every process has. -/
def standard : List Int := [0,1,2]

namespace Redirection

/-- What descriptors are bound to after redirections that take effect from left to right. What the files are when they
    are open is given, and what the descriptors are bound to before. -/
def bindings {α : Type} : List Redirection → List α → (Int → α) → Int → α
  | .duplicate d source :: r, opened, b => bindings r opened (Function.update b d (b source))
  | .file mode _ :: r, h :: opened, b => bindings r opened (Function.update b mode.descriptor h)
  | _, _, b => b

/-- The duplications among redirections, in their order. -/
def duplicates (l : List Redirection) : List (Int × Int) := l.filterMap fun
  | .file _ _ => none
  | .duplicate d source => some (d,source)

/-- The redirections to files, as they are done. -/
def toFiles (l : List (FileMode × Text)) : List Redirection := l.map fun f => .file f.1 f.2

/-- The duplications, as they are done. -/
def toDuplicates (l : List (Int × Int)) : List Redirection := l.map fun d => .duplicate d.1 d.2

/-- The same redirections with all files before all duplications. -/
def filesFirst (l : List Redirection) : List Redirection := toFiles (files l) ++ toDuplicates (duplicates l)

/-- Only standard descriptors are duplicated, and only these become duplicates. -/
def Plain (l : List Redirection) : Prop := ∀ d source, .duplicate d source ∈ l → d ∈ standard ∧ source ∈ standard

section
variable {α β : Type}

theorem rel_update {R : α → β → Prop} {b : Int → α} {c : Int → β} (same : ∀ k ∈ standard, R (b k) (c k)) (d : Int)
    {x : α} {y : β} (new : R x y) : ∀ k ∈ standard, R (Function.update b d x k) (Function.update c d y k) := by
  intro k inside
  by_cases here : k = d
  · subst here
    rw [Function.update_self,Function.update_self]
    exact new
  · rw [Function.update_of_ne here,Function.update_of_ne here]
    exact same k inside

/-- Redirections do nothing but move about what descriptors and files are. -/
theorem bindings_rel {R : α → β → Prop} {l : List Redirection} (plain : Plain l) {b : Int → α} {c : Int → β}
    (same : ∀ k ∈ standard, R (b k) (c k)) {hs : List α} {gs : List β} (opened : List.Forall₂ R hs gs) :
    ∀ k ∈ standard, R (bindings l hs b k) (bindings l gs c k) := by
  induction l generalizing b c hs gs with
  | nil => exact same
  | cons r l ih =>
    have rest : Plain l := fun d source mem => plain d source (List.mem_cons_of_mem _ mem)
    cases r with
    | duplicate d source =>
      obtain ⟨-,reads⟩ := plain d source List.mem_cons_self
      exact ih rest (rel_update same d (same source reads)) opened
    | file mode path =>
      cases opened with
      | nil => exact same
      | cons first opened => exact ih rest (rel_update same _ first) opened

theorem bindings_append (l m : List Redirection) {hs : List α} (enough : hs.length = (files l).length) (gs : List α)
    (b : Int → α) : bindings (l ++ m) (hs ++ gs) b = bindings m gs (bindings l hs b) := by
  induction l generalizing hs b with
  | nil =>
    obtain rfl : hs = [] := List.length_eq_zero_iff.mp enough
    rfl
  | cons r l ih =>
    cases r with
    | duplicate d source => exact ih enough _
    | file mode path =>
      cases hs with
      | nil => simp [files] at enough
      | cons h hs => exact ih (by simpa [files] using enough) _

theorem files_toFiles (l : List (FileMode × Text)) : files (toFiles l) = l := by
  simp [files,toFiles,List.filterMap_map]

theorem bindings_filesFirst (l : List Redirection) {hs : List α} (enough : hs.length = (files l).length) (b : Int → α) :
    bindings (filesFirst l) hs b = bindings (toDuplicates (duplicates l)) [] (bindings (toFiles (files l)) hs b) := by
  have apart := bindings_append (toFiles (files l)) (toDuplicates (duplicates l)) (by rwa [files_toFiles]) [] b
  rwa [List.append_nil] at apart

/-! ### When the order does not matter -/

/-- Where a descriptor is bound to in the end: to what a standard descriptor was bound to before, or, counted from three
    on, to a file. -/
def origins (l : List Redirection) : Int → Nat := bindings l (List.range' 3 (files l).length) Int.toNat

/-- The files can as well come before all duplications. -/
def InOrder (l : List Redirection) : Prop := ∀ k ∈ standard, origins (filesFirst l) k = origins l k

instance (l : List Redirection) : Decidable (InOrder l) := inferInstanceAs (Decidable (∀ k ∈ standard, _))

theorem forall₂_range' (before hs : List α) :
    List.Forall₂ (fun i h => (before ++ hs)[i]? = some h) (List.range' before.length hs.length) hs := by
  induction hs generalizing before with
  | nil => exact .nil
  | cons h hs ih =>
    have rest := ih (before ++ [h])
    rw [List.append_assoc,List.length_append] at rest
    exact .cons (by simp) rest

/-- What descriptors are bound to is found where they come from. -/
theorem getElem?_origins {l : List Redirection} (plain : Plain l) {hs : List α} (enough : hs.length = (files l).length)
    (b : Int → α) : ∀ k ∈ standard, ([b 0,b 1,b 2] ++ hs)[origins l k]? = some (bindings l hs b k) := by
  -- The places of a list are moved about as what stands at them.
  rw [origins,← enough]
  refine bindings_rel (R := fun i h => ([b 0,b 1,b 2] ++ hs)[i]? = some h) plain ?_ (forall₂_range' [b 0,b 1,b 2] hs)
  intro k inside
  simp only [standard,List.mem_cons,List.not_mem_nil,or_false] at inside
  rcases inside with rfl | rfl | rfl <;> rfl

theorem files_filesFirst (l : List Redirection) : files (filesFirst l) = files l := by
  have none : files (toDuplicates (duplicates l)) = [] := by simp [files,toDuplicates]
  have both : files (filesFirst l) = files (toFiles (files l)) ++ files (toDuplicates (duplicates l)) :=
    List.filterMap_append
  rw [both,files_toFiles,none,List.append_nil]

theorem mem_duplicates {l : List Redirection} {d source : Int} :
    (d,source) ∈ duplicates l ↔ .duplicate d source ∈ l := by
  simp only [duplicates,List.mem_filterMap]
  constructor
  · rintro ⟨r,mem,same⟩
    cases r <;> cases same
    exact mem
  · intro mem
    exact ⟨_,mem,rfl⟩

theorem Plain.filesFirst {l : List Redirection} (plain : Plain l) : Plain (filesFirst l) := by
  intro d source mem
  apply plain
  simpa [Redirection.filesFirst,toFiles,toDuplicates,mem_duplicates] using mem

theorem bindings_of_inOrder {l : List Redirection} (plain : Plain l) (order : InOrder l) {hs : List α}
    (enough : hs.length = (files l).length) (b : Int → α) :
    ∀ k ∈ standard, bindings (filesFirst l) hs b k = bindings l hs b k := by
  intro k inside
  have first := getElem?_origins plain.filesFirst (by rwa [files_filesFirst]) b k inside
  rw [order k inside,getElem?_origins plain enough b k inside] at first
  exact (Option.some.inj first).symm

/-- It is seen when the files come first, unless two descriptors were bound to the same before. -/
theorem inOrder_of_bindings {l : List Redirection} (plain : Plain l) {hs : List α} (enough : hs.length = (files l).length)
    {b : Int → α} (distinct : ([b 0,b 1,b 2] ++ hs).Nodup)
    (same : ∀ k ∈ standard, bindings (filesFirst l) hs b k = bindings l hs b k) : InOrder l := by
  intro k inside
  have first := getElem?_origins plain.filesFirst (by rwa [files_filesFirst]) b k inside
  have written := getElem?_origins plain enough b k inside
  rw [← same k inside] at written
  obtain ⟨inside,-⟩ := List.getElem?_eq_some_iff.mp first
  exact (List.getElem?_inj inside distinct).mp (first.trans written.symm)

/-- No file takes the place of what an earlier duplication has read or made. -/
def Apart (l : List Redirection) : Prop := l.Pairwise fun r r' => ∀ d source mode path,
  r = .duplicate d source → r' = .file mode path → mode.descriptor ≠ d ∧ mode.descriptor ≠ source

theorem bindings_toFiles_update {fs : List (FileMode × Text)} {d source : Int}
    (apart : ∀ f ∈ fs, f.1.descriptor ≠ d ∧ f.1.descriptor ≠ source) (hs : List α) (b : Int → α) :
    bindings (toFiles fs) hs (Function.update b d (b source)) =
      Function.update (bindings (toFiles fs) hs b) d (bindings (toFiles fs) hs b source) := by
  induction fs generalizing hs b with
  | nil => cases hs <;> rfl
  | cons f fs ih =>
    obtain ⟨⟨other,unread⟩,apart⟩ := List.forall_mem_cons.mp apart
    cases hs with
    | nil => rfl
    | cons h hs =>
      have moved : Function.update (Function.update b d (b source)) f.1.descriptor h =
          Function.update (Function.update b f.1.descriptor h) d (Function.update b f.1.descriptor h source) := by
        rw [Function.update_comm other,Function.update_of_ne unread.symm]
      exact (congrArg (bindings (toFiles fs) hs) moved).trans (ih apart hs _)

theorem bindings_of_apart {l : List Redirection} (apart : Apart l) {hs : List α} (enough : hs.length = (files l).length)
    (b : Int → α) : bindings (filesFirst l) hs b = bindings l hs b := by
  induction l generalizing hs b with
  | nil => rfl
  | cons r l ih =>
    obtain ⟨here,rest⟩ := List.pairwise_cons.mp apart
    cases r with
    | file mode path =>
      cases hs with
      | nil => simp [files] at enough
      | cons h hs => exact ih rest (by simpa [files] using enough) _
    | duplicate d source =>
      -- No later file is for a descriptor that is read or made here, so this can as well be done after all files.
      have free : ∀ f ∈ files l, f.1.descriptor ≠ d ∧ f.1.descriptor ≠ source := by
        intro f mem
        obtain ⟨r,inside,same⟩ := List.mem_filterMap.mp mem
        cases r <;> cases same
        exact here _ inside _ _ _ _ rfl rfl
      rw [bindings,← ih rest enough,bindings_filesFirst l enough,bindings_toFiles_update free,
        bindings_filesFirst (.duplicate d source :: l) enough]
      rfl

/-- Both outputs go to a file, and the errors to the output. -/
example : InOrder [.file .output ['f'],.duplicate 2 1] := by decide

end
end Redirection

/-! ### What a new process is given -/

namespace Rebinding

/-- What descriptors are bound to when one is bound anew. -/
def bind (b : Int → Handle) (r : Rebinding) : Int → Handle :=
  Function.update b r.descriptor <| match r.source with
    | .handle h => h
    | .descriptor d => b d

/-- What descriptors are bound to when some are bound anew, one after another. -/
def rebound (l : List Rebinding) (b : Int → Handle) : Int → Handle := l.foldl bind b

theorem rebound_append (l m : List Rebinding) (b : Int → Handle) : rebound (l ++ m) b = rebound m (rebound l b) :=
  List.foldl_append

/-- Only standard descriptors are concerned. -/
def Standard (r : Rebinding) : Prop := r.descriptor ∈ standard ∧ ∀ d, r.source = .descriptor d → d ∈ standard

end Rebinding

/-- Systems where it is seen what standard descriptors are bound to. A process that is started has those of the shell, but
    for those that are bound anew, one after another, and so has a copy of the shell. Whether they are started is another
    matter. -/
class Descriptors (σ : Type) [Kernel σ] where
  /-- The shell has its standard descriptors bound as told. -/
  ShellBinds : σ → (Int → Handle) → Prop
  /-- From one state to another a process was started that has its standard descriptors bound as told. -/
  Starts : σ → σ → Pid → (Int → Handle) → Prop
  congr : ∀ {s t pid b c}, Starts s t pid b → (∀ k ∈ standard, b k = c k) → Starts s t pid c
  unique : ∀ {s t pid b c}, Starts s t pid b → Starts s t pid c → ∀ k ∈ standard, b k = c k
  spawned : ∀ {s t pid b} {l : Launch}, ShellBinds s b → (∀ r ∈ l.rebindings, r.Standard) →
    Kernel.spawn l s = (.ok pid,t) → Starts s t pid (Rebinding.rebound l.rebindings b)
  forked : ∀ {s t pid b group} {l : List Rebinding}, ShellBinds s b → (∀ r ∈ l, r.Standard) →
    Kernel.fork group l s = (.ok pid,t) → Starts s t pid (Rebinding.rebound l b)
  spawn_answer : ∀ {s b} {l : Launch}, ShellBinds s b → (∀ r ∈ l.rebindings, r.Standard) →
    (Kernel.spawn l s).1 = (Kernel.spawn { l with rebindings := [] } s).1
  fork_answer : ∀ {s b group} {l : List Rebinding}, ShellBinds s b → (∀ r ∈ l, r.Standard) →
    (Kernel.fork group l s).1 = (Kernel.fork group [] s).1

namespace Wiring

/-- Descriptors with one bound to a handle, if there is one. -/
def place (k : Int) (h : Option Handle) (b : Int → Handle) : Int → Handle :=
  match h with
  | some d => Function.update b k d
  | none => b

/-- What descriptors are bound to by a wiring, apart from its duplications. -/
def placed (w : Wiring) (b : Int → Handle) : Int → Handle := place 2 w.errors (place 1 w.output (place 0 w.input b))

theorem place_comm {k d : Int} (other : k ≠ d) (h g : Option Handle) (b : Int → Handle) :
    place k h (place d g b) = place d g (place k h b) := by
  cases h with
  | none => rfl
  | some h =>
    cases g with
    | none => rfl
    | some g => exact (Function.update_comm other h g b).symm

theorem place_or (k : Int) (h g : Option Handle) (b : Int → Handle) : place k (h.or g) b = place k h (place k g b) := by
  cases h with
  | none => rfl
  | some h =>
    cases g with
    | none => rfl
    | some g => exact (Function.update_idem g h b).symm

theorem placed_bind (w : Wiring) (h : Handle) (mode : FileMode) (b : Int → Handle) :
    (w.bind h mode).placed b = Function.update (w.placed b) mode.descriptor h := by
  have replaced : ∀ (k : Int) (g : Option Handle) b, place k (some h) b = place k (some h) (place k g b) :=
    fun k g b => place_or k (some h) g b
  have output : place 2 w.errors (place 1 (some h) (place 0 w.input b)) = place 1 (some h) (w.placed b) := by
    rw [placed,place_comm (by decide : (1:Int) ≠ 2),← replaced]
  cases mode with
  | input =>
    change place 2 w.errors (place 1 w.output (place 0 (some h) b)) = place 0 (some h) (w.placed b)
    rw [placed,place_comm (by decide : (0:Int) ≠ 2),place_comm (by decide : (0:Int) ≠ 1),← replaced]
  | output => exact output
  | append => exact output
  | error => exact replaced 2 w.errors _

/-- What descriptors are bound to when some are bound anew, one after another. -/
theorem rebound_rebindings (w : Wiring) (b : Int → Handle) :
    Rebinding.rebound w.rebindings b = Redirection.bindings (Redirection.toDuplicates w.duplicates) [] (w.placed b) := by
  have one : ∀ (k : Int) (h : Option Handle) b,
      Rebinding.rebound (h.toList.map (fun h => ⟨k,.handle h⟩)) b = place k h b := by
    intro k h b
    cases h <;> rfl
  have duplicated : ∀ (ds : List (Int × Int)) b, Rebinding.rebound (ds.map (fun d => ⟨d.1,.descriptor d.2⟩)) b =
      Redirection.bindings (Redirection.toDuplicates ds) [] b := by
    intro ds
    induction ds with
    | nil => exact fun _ => rfl
    | cons d ds ih => exact fun b => ih _
  rw [rebindings,Rebinding.rebound_append,Rebinding.rebound_append,Rebinding.rebound_append,one,one,one,duplicated,placed]

/-- A wiring is only about standard descriptors when its duplicates are. -/
theorem standard_rebindings {w : Wiring} (inside : ∀ d ∈ w.duplicates, d.1 ∈ standard ∧ d.2 ∈ standard) :
    ∀ r ∈ w.rebindings, r.Standard := by
  intro r mem
  simp only [rebindings,List.mem_append,List.mem_map] at mem
  rcases mem with ((⟨h,-,rfl⟩ | ⟨h,-,rfl⟩) | ⟨h,-,rfl⟩) | ⟨d,mem,rfl⟩
  · exact ⟨(by decide : (0:Int) ∈ standard),nofun⟩
  · exact ⟨(by decide : (1:Int) ∈ standard),nofun⟩
  · exact ⟨(by decide : (2:Int) ∈ standard),nofun⟩
  · refine ⟨(inside d mem).1,fun source same => ?_⟩
    cases same
    exact (inside d mem).2

theorem placed_between (w : Wiring) (input output : Option Handle) (b : Int → Handle) :
    (w.between input output).placed b = w.placed ((inherited.between input output).placed b) := by
  simp only [placed,between,inherited,Option.none_or,place_or]
  rw [← place_comm (by decide : (0:Int) ≠ 1) w.input output]
  rfl

end Wiring

/-- Files of redirections are opened one after another, each with its handle. Handles may be closed in between. -/
inductive Redirection.Opened {σ : Type} [Kernel σ] : List Redirection → σ → List Handle → σ → Prop where
  | nothing {s : σ} : Opened [] s [] s
  | duplicate {l : List Redirection} {s t : σ} {hs : List Handle} (d source : Int) (later : Opened l s hs t) :
      Opened (.duplicate d source :: l) s hs t
  | file {l : List Redirection} {s t u : σ} {hs : List Handle} {mode : FileMode} {path : Text} {h : Handle}
      (result : Kernel.openFile mode path s = .ok (h,u)) (closed : List Handle)
      (later : Opened l (Kernel.closeAll closed u) hs t) : Opened (.file mode path :: l) s (h :: hs) t

namespace Redirection.Opened
variable {σ : Type} [Kernel σ] {l : List Redirection} {s t : σ} {hs : List Handle}

theorem length (opened : Opened l s hs t) : hs.length = (files l).length := by
  induction opened with
  | nothing => rfl
  | duplicate d source later ih => exact ih
  | file result closed later ih => exact congrArg (· + 1) ih

theorem exists_file {mode : FileMode} {path : Text} (opened : Opened (.file mode path :: l) s hs t) :
    ∃ h u r, Kernel.openFile mode path s = .ok (h,u) ∧ hs = h :: r ∧ r.length = (files l).length := by
  cases opened with
  | file result closed later => exact ⟨_,_,_,result,rfl,later.length⟩

end Redirection.Opened

namespace Act
open Redirection

theorem opened_of_yields {σ : Type} [Kernel σ] {l : List Redirection} {w w' : Wiring} {s t : Session σ}
    (yields : Yields (openRedirects l w) s (.ok w') t) :
    ∃ hs, Opened l s.system hs t.system ∧ w'.duplicates = w.duplicates ++ duplicates l ∧
      ∀ b, w'.placed b = bindings (toFiles (files l)) hs (w.placed b) := by
  induction l generalizing w s with
  | nil =>
    cases yields
    exact ⟨[],.nothing,(List.append_nil _).symm,fun _ => rfl⟩
  | cons r l ih =>
    cases r with
    | duplicate d source =>
      obtain ⟨hs,opened,after,placed⟩ := ih yields
      exact ⟨hs,.duplicate d source opened,after.trans (List.append_assoc _ _ _),placed⟩
    | file mode path =>
      obtain ⟨tried,u,attempted,later⟩ := yields.exists_of_bind
      cases result : Kernel.openFile mode path s.system with
      | error e =>
        obtain ⟨rfl,-⟩ := attempted.unique (yields_attempt_error result)
        dsimp only at later
        obtain ⟨_,_,-,ends⟩ := later.exists_of_bind
        cases ends
      | ok p =>
        obtain ⟨h,system⟩ := p
        obtain ⟨rfl,rfl⟩ := attempted.unique (yields_attempt result)
        dsimp only at later
        obtain ⟨_,v,closed,later⟩ := later.exists_of_bind
        obtain ⟨-,rfl⟩ := closed.unique (yields_closeAll _ _)
        obtain ⟨hs,opened,after,placed⟩ := ih later
        refine ⟨h :: hs,.file result _ opened,?_,fun b => ?_⟩
        · cases mode <;> exact after
        · rw [placed b,w.placed_bind h mode b]
          rfl

end Act

/-! ### What a process is started with -/

section
variable {σ : Type} [Kernel σ] {s after : σ} {w : Wiring} {pid : Pid}

/-- A process is started for a shell, with a program of its own or as a copy of the shell. -/
inductive Kernel.Begins (s : σ) (w : Wiring) (pid : Pid) (after : σ) : Prop where
  | spawned (program : Text) (args : List Text) (group : Pid)
      (result : Kernel.spawn ⟨program,args,group,w.rebindings⟩ s = (.ok pid,after))
  | forked (group : Pid) (result : Kernel.fork group w.rebindings s = (.ok pid,after))

namespace Act

theorem begins_of_startProgram {program : Text} {args : List Text} {group : Pid} {s t : Session σ}
    (started : Yields (startProgram program args group w) s (.ok pid) t) : ∃ after, Kernel.Begins s.system w pid after := by
  rw [startProgram] at started
  split at started
  · cases (started.unique (yields_pure _ _)).1
  · obtain ⟨r,u,spawned,later⟩ := started.exists_of_bind
    have yields := yields_operate (Prod.eta (Kernel.spawn ⟨program,args,group,w.rebindings⟩ s.system)).symm
    obtain ⟨rfl,-⟩ := spawned.unique yields
    cases result : Kernel.spawn ⟨program,args,group,w.rebindings⟩ s.system with
    | mk r after =>
      simp only [result] at later
      cases r with
      | error e => cases (later.unique (yields_pure _ _)).1
      | ok p =>
        obtain ⟨_,_,-,ends⟩ := later.exists_of_bind
        cases (ends.unique (yields_pure _ _)).1
        exact ⟨after,.spawned program args group result⟩

theorem begins_of_startBuiltin {args : List Text} {group : Pid} {s t : Session σ}
    (started : Yields (startBuiltin args group w) s (.ok pid) t) : ∃ after, Kernel.Begins s.system w pid after := by
  obtain ⟨r,u,forked,later⟩ := started.exists_of_bind
  have yields := yields_operate (Prod.eta (Kernel.fork group w.rebindings s.system)).symm
  obtain ⟨rfl,-⟩ := forked.unique yields
  cases result : Kernel.fork group w.rebindings s.system with
  | mk r after =>
    simp only [result] at later
    cases r with
    | error e => cases (later.unique (yields_pure _ _)).1
    | ok p =>
      obtain ⟨_,_,-,later⟩ := later.exists_of_bind
      obtain ⟨_,_,-,later⟩ := later.exists_of_bind
      obtain ⟨_,_,-,ends⟩ := later.exists_of_bind
      cases (ends.unique (yields_pure _ _)).1
      exact ⟨after,.forked group result⟩

/-- A stage is started by starting its program or by copying the shell. -/
theorem begins_of_startStage {stage : Stage} {group : Pid} {s t : Session σ}
    (started : Yields (startStage stage group w) s (.ok pid) t) : ∃ after, Kernel.Begins s.system w pid after := by
  rw [startStage] at started
  split at started
  · exact begins_of_startProgram started
  · exact begins_of_startBuiltin started

end Act

open Descriptors
variable [Descriptors σ] {b : Int → Handle}

/-- Handles are bound first, and then the duplicates. -/
theorem Kernel.Begins.starts (begins : Kernel.Begins s w pid after) (binds : ShellBinds s b)
    (inside : ∀ d ∈ w.duplicates, d.1 ∈ standard ∧ d.2 ∈ standard) :
    Starts s after pid (Redirection.bindings (Redirection.toDuplicates w.duplicates) [] (w.placed b)) := by
  rw [← w.rebound_rebindings]
  cases begins with
  | spawned program args group result => exact Descriptors.spawned binds (Wiring.standard_rebindings inside) result
  | forked group result => exact Descriptors.forked binds (Wiring.standard_rebindings inside) result

namespace Stage
open Redirection

/-- **Redirections of a command.** Let the files be opened that the redirections of a command name, and only standard
    descriptors be duplicated. A stage that is then started, be it a program or a copy of the shell, has its standard
    descriptors bound as by the redirections to files from left to right, and after these the duplications from left to
    right; before that they are bound to ends of pipes, or as those of the shell. This is as by all redirections in
    the order in which they stand if the files can as well come before all duplications, so if no file takes the place of
    what an earlier duplication has read or made; and only if they can, when all that is bound or opened is different. No
    start is refused for its redirections. -/
theorem starts_files_first {l : List Redirection} (plain : Plain l) {s t : Session σ} {w : Wiring}
    (opens : Act.Yields (Act.openRedirects l .inherited) s (.ok w) t) :
    ∃ hs, Opened l s.system hs t.system ∧
    ∀ (m : σ) (b : Int → Handle) (input output : Option Handle), ShellBinds m b →
      let wiring := w.between input output
      let entry := (Wiring.inherited.between input output).placed b
      (∀ stage group shell pid u, Act.Yields (Act.startStage stage group wiring) ⟨shell,m⟩ (.ok pid) u →
        ∃ after, Kernel.Begins m wiring pid after) ∧
      (∀ pid after, Kernel.Begins m wiring pid after →
        Starts m after pid (bindings (filesFirst l) hs entry) ∧
        (InOrder l → Starts m after pid (bindings l hs entry)) ∧
        (Apart l → Starts m after pid (bindings l hs entry)) ∧
        (([entry 0,entry 1,entry 2] ++ hs).Nodup → Starts m after pid (bindings l hs entry) → InOrder l)) ∧
      (∀ group, (Kernel.fork group wiring.rebindings m).1 = (Kernel.fork group [] m).1) ∧
      ∀ program args group, (Kernel.spawn ⟨program,args,group,wiring.rebindings⟩ m).1 =
        (Kernel.spawn ⟨program,args,group,[]⟩ m).1 := by
  obtain ⟨hs,opened,made,placed⟩ := Act.opened_of_yields opens
  refine ⟨hs,opened,fun m b input output binds => ?_⟩
  have same : (w.between input output).duplicates = duplicates l := made
  have inside : ∀ d ∈ (w.between input output).duplicates, d.1 ∈ standard ∧ d.2 ∈ standard := by
    rw [same]
    exact fun d mem => plain d.1 d.2 (mem_duplicates.mp mem)
  have concerned := Wiring.standard_rebindings inside
  refine ⟨fun stage group shell pid u started => Act.begins_of_startStage started,fun pid after begins => ?_,
    fun group => fork_answer binds concerned,fun program args group => spawn_answer binds concerned⟩
  have starts := begins.starts binds inside
  rw [same,Wiring.placed_between,placed,← bindings_filesFirst l opened.length] at starts
  refine ⟨starts,fun order => congr starts (bindings_of_inOrder plain order opened.length _),fun apart => ?_,
    fun distinct written => ?_⟩
  · rwa [bindings_of_apart apart opened.length] at starts
  · exact inOrder_of_bindings plain opened.length distinct (unique starts written)

end Stage
end

/-! ### Machines -/

namespace Machine
open Redirection

/-- Descriptors are bound as told, as far as every process has them. -/
def Binds (l : List (Nat × DescriptionId)) (b : Int → DescriptionId) : Prop :=
  ∀ k ∈ standard, (l.find? (·.1 == k.toNat)).map Prod.snd = some (b k)

/-- There is one more process, which has a number and descriptors that are bound as told. -/
def Starts (before after : Machine) (pid : Pid) (b : Int → DescriptionId) : Prop :=
  ∃ p : Process, after.processes = before.processes ++ [p] ∧ p.pid = pid ∧
    ∀ k ∈ standard, p.description? k.toNat = some (b k)

section
variable {l : List (Nat × DescriptionId)} {b : Int → DescriptionId}

theorem Binds.update (binds : Binds l b) {d : Int} (inside : d ∈ standard) (x : DescriptionId) :
    Binds (Process.bindDescriptor d.toNat x l) (Function.update b d x) := by
  intro k inside'
  by_cases here : k = d
  · subst here
    rw [Process.bindDescriptor,Function.update_self]
    simp
  · have other : d.toNat ≠ k.toNat := by
      simp only [standard,List.mem_cons,List.not_mem_nil,or_false] at inside inside'
      omega
    rw [Function.update_of_ne here,← binds k inside',Process.bindDescriptor,List.find?_cons_of_neg (by simpa using other),
      List.find?_filter]
    congr 2
    funext e
    by_cases same : e.1 = k.toNat
    · simp [same,other.symm]
    · simp [same]

/-- Binding standard descriptors anew does not fail. -/
theorem exists_rebindAll (strict : Bool) {rs : List Rebinding} (inside : ∀ r ∈ rs, r.Standard) (binds : Binds l b) :
    ∃ l', rebindAll strict rs l = .ok l' ∧ Binds l' (Rebinding.rebound rs b) := by
  induction rs generalizing l b with
  | nil => exact ⟨l,rfl,binds⟩
  | cons r rs ih =>
    obtain ⟨fd,source⟩ := r
    obtain ⟨⟨makes,reads⟩,rest⟩ := List.forall_mem_cons.mp inside
    cases source with
    | handle h => exact ih rest (binds.update makes h)
    | descriptor d =>
      have reads := reads d rfl
      have numbers : (isDescriptor fd && isDescriptor d) = true := by
        simp only [standard,List.mem_cons,List.not_mem_nil,or_false] at makes reads
        rcases makes with h | h | h <;> rcases reads with g | g | g <;> rw [h,g] <;> rfl
      obtain ⟨⟨k,x⟩,found,bound⟩ := Option.map_eq_some_iff.mp (binds d reads)
      obtain rfl : x = b d := bound
      obtain ⟨l',done,binds'⟩ := ih rest (binds.update makes (b d))
      refine ⟨l',?_,binds'⟩
      rw [rebindAll,if_pos numbers,found]
      exact done

end

section
variable {m after : Machine} {pid : Pid} {b c : Int → DescriptionId}

theorem Starts.congr (starts : m.Starts after pid b) (same : ∀ k ∈ standard, b k = c k) : m.Starts after pid c := by
  obtain ⟨p,added,number,binds⟩ := starts
  exact ⟨p,added,number,fun k inside => (binds k inside).trans (congrArg some (same k inside))⟩

/-- A process has its descriptors bound in one way. -/
theorem Starts.unique (starts : m.Starts after pid b) (other : m.Starts after pid c) : ∀ k ∈ standard, b k = c k := by
  obtain ⟨p,added,-,binds⟩ := starts
  obtain ⟨q,added',-,binds'⟩ := other
  obtain rfl : p = q := List.cons_eq_cons.mp (List.append_cancel_left (added.symm.trans added')) |>.1
  intro k inside
  exact Option.some.inj ((binds k inside).symm.trans (binds' k inside))

/-- The shell has its standard descriptors bound as told. -/
def ShellBinds (m : Machine) (b : Int → DescriptionId) : Prop :=
  ∀ k ∈ standard, m.shell?.bind (·.description? k.toNat) = some (b k)

instance (m : Machine) (b : Int → DescriptionId) : Decidable (m.ShellBinds b) :=
  inferInstanceAs (Decidable (∀ k ∈ standard, _))

theorem ShellBinds.exists_shell (binds : m.ShellBinds b) : ∃ p, m.shell? = some p ∧ m.here = p.here ∧ Binds p.descriptors b := by
  obtain ⟨p,shell,-⟩ := Option.bind_eq_some_iff.mp (binds 0 (by decide))
  refine ⟨p,shell,?_,fun k inside => ?_⟩
  · rw [here,(Option.filter_eq_some_iff.mp shell).1]
    rfl
  · have bound := binds k inside
    rw [shell] at bound
    exact bound

variable {l : List Rebinding} (binds : m.ShellBinds b) (inside : ∀ r ∈ l, r.Standard)
include binds inside

theorem starts_of_spawn {program : Text} {args : List Text} {group : Pid}
    (result : m.spawn ⟨program,args,group,l⟩ = (.ok pid,after)) : m.Starts after pid (Rebinding.rebound l b) := by
  obtain ⟨p,shell,-,binds⟩ := binds.exists_shell
  obtain ⟨ds,rebound,bound⟩ := exists_rebindAll true inside binds
  simp only [spawn,shell,rebound,launch] at result
  split at result
  · cases result
  · cases result
    exact ⟨_,rfl,rfl,bound⟩

theorem starts_of_fork {group : Pid} (result : m.fork group l = (.ok pid,after)) :
    m.Starts after pid (Rebinding.rebound l b) := by
  obtain ⟨p,shell,-,binds⟩ := binds.exists_shell
  obtain ⟨ds,rebound,bound⟩ := exists_rebindAll false inside binds
  simp only [fork,shell,rebound] at result
  cases result
  exact ⟨_,rfl,rfl,bound⟩

theorem fst_fork (group : Pid) : (m.fork group l).1 = .ok m.nextPid := by
  obtain ⟨p,shell,-,binds⟩ := binds.exists_shell
  obtain ⟨ds,rebound,-⟩ := exists_rebindAll false inside binds
  simp only [fork,shell,rebound]
  rfl

/-- Whether a program is started does not depend on its descriptors. -/
theorem fst_spawn (program : Text) (args : List Text) (group : Pid) :
    (m.spawn ⟨program,args,group,l⟩).1 = (m.spawn ⟨program,args,group,[]⟩).1 := by
  obtain ⟨p,shell,-,binds⟩ := binds.exists_shell
  obtain ⟨ds,rebound,-⟩ := exists_rebindAll true inside binds
  have unchanged : rebindAll true [] p.descriptors = .ok p.descriptors := rfl
  simp only [spawn,shell,rebound,unchanged,launch]
  split <;> rfl

end

instance : Descriptors Machine where
  ShellBinds := ShellBinds
  Starts := Starts
  congr := Starts.congr
  unique := Starts.unique
  spawned binds inside result := starts_of_spawn binds inside result
  forked binds inside result := starts_of_fork binds inside result
  spawn_answer binds inside := fst_spawn binds inside ..
  fork_answer binds inside := (fst_fork binds inside _).trans (fst_fork binds (List.forall_mem_nil _) _).symm

end Machine

namespace Stage
open Redirection

/-- A new session in which the files of redirections have been opened. -/
def openedSession (l : List Redirection) : Session Machine := ((Act.openRedirects l .inherited).run Act.freshSession).2

/-- Both outputs go to a file. -/
theorem starts_files_first_both :
    let l := [.file .output ['f'],.duplicate 2 1]
    let w : Wiring := ⟨none,some 3,none,[(2,1)]⟩
    Plain l ∧ Act.Yields (Act.openRedirects l .inherited) Act.freshSession (.ok w) (openedSession l) ∧
    ∃ pid after, (openedSession l).system.fork 0 w.rebindings = (.ok pid,after) ∧
      (openedSession l).system.Starts after pid (fun k => if k = 0 then 0 else 3) := by
  intro l w
  have plain : Plain l := by
    intro d source mem
    simp only [l,List.mem_cons,List.not_mem_nil,or_false,reduceCtorEq,false_or] at mem
    cases mem
    decide
  have opens : Act.Yields (Act.openRedirects l .inherited) Act.freshSession (.ok w) (openedSession l) := rfl
  obtain ⟨hs,opened,started⟩ := starts_files_first plain opens
  obtain ⟨h,u,r,result,rfl,rest⟩ := opened.exists_file
  obtain rfl : r = [] := List.length_eq_zero_iff.mp rest
  have third : (Kernel.openFile .output ['f'] Act.freshSession.system).map Prod.fst = .ok 3 := rfl
  rw [result] at third
  cases third
  have binds : (openedSession l).system.ShellBinds Int.toNat := by decide
  obtain ⟨-,starts,forks,-⟩ := started _ Int.toNat none none binds
  have answered : ((openedSession l).system.fork 0 w.rebindings).1 = .ok (Machine.shellPid + 1) := (forks 0).trans rfl
  have forked := Prod.ext answered rfl
  refine ⟨plain,opens,_,_,forked,?_⟩
  exact Machine.Starts.congr ((starts _ _ (.forked 0 forked)).2.1 (by decide)) (by decide)

/-- The errors go where the output goes, and not to the file that is named last for them. -/
theorem starts_duplicate_last :
    let l := [.duplicate 2 1,.file .error ['f']]
    let w : Wiring := ⟨none,none,some 3,[(2,1)]⟩
    Act.Yields (Act.openRedirects l .inherited) Act.freshSession (.ok w) (openedSession l) ∧
    Opened l Act.freshSession.system [3] (openedSession l).system ∧ bindings l [3] Int.toNat 2 = 3 ∧
    ∃ pid after, Kernel.Begins (openedSession l).system w pid after ∧
      ¬(openedSession l).system.Starts after pid (bindings l [3] Int.toNat) := by
  intro l w
  have binds : (openedSession l).system.ShellBinds Int.toNat := by decide
  have inside : ∀ d ∈ w.duplicates, d.1 ∈ standard ∧ d.2 ∈ standard := by decide
  have result := Prod.ext (Machine.fst_fork binds (Wiring.standard_rebindings inside) 0) rfl
  have begins : Kernel.Begins (openedSession l).system w _ _ := .forked 0 result
  refine ⟨rfl,.duplicate 2 1 (.file rfl [] .nothing),rfl,_,_,begins,fun written => ?_⟩
  have starts : (openedSession l).system.Starts _ _ _ := begins.starts (b := Int.toNat) binds inside
  exact absurd (starts.unique written 2 (by decide)) (by decide)

end Stage
end JobShell

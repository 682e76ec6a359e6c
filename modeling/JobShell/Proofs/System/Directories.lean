import JobShell.Proofs.System.KeptFile
import Mathlib.Tactic.SplitIfs

/-!
# Going to directories

The environment of a process and its directory change only when the process
changes them, and a directory that it has been to can be gone to again by its
path. An operating system has these properties in some of its states
(`KeepsPlace`); a machine has them when the path of each directory is that of a
text and leads to the directory (`Machine.keepsPlace`).
-/
namespace JobShell

/-- In the states of `usual` the environment and the directory of the process are what it made them, and the directories
    of `there` can be gone to by their paths, the current one among them. -/
structure KeepsPlace {σ : Type} [Kernel σ] (usual : σ → Prop) (there : Text → σ → Prop) : Prop where
  bind : ∀ s b, usual s → usual (Kernel.setEnvironment b s) ∧ Kernel.environment (Kernel.setEnvironment b s) = b ∧
    Kernel.directory (Kernel.setEnvironment b s) = Kernel.directory s ∧
    ∀ d, there d s → there d (Kernel.setEnvironment b s)
  go : ∀ s t path, usual s → Kernel.changeDirectory path s = .ok t →
    usual t ∧ Kernel.environment t = Kernel.environment s ∧ ∀ d, there d s → there d t
  write : ∀ s t c b, usual s → Kernel.write c b s = .ok t →
    usual t ∧ Kernel.environment t = Kernel.environment s ∧ Kernel.directory t = Kernel.directory s ∧
    ∀ d, there d s → there d t
  here : ∀ s, usual s → there (Kernel.directory s) s
  back : ∀ s d, usual s → there d s → '\x00' ∉ d ∧ ∃ t, Kernel.changeDirectory d s = .ok t ∧ Kernel.directory t = d

namespace FileSystem

/-! ### File systems that differ in what files hold -/

def HasFile (fs : FileSystem) (p : Place) : Prop := ∃ runnable content, fs.node? p = some (.file runnable content)

/-- The file systems differ in nothing but what their files hold. -/
def SameTree (fs gs : FileSystem) : Prop := ∀ p, gs.node? p = fs.node? p ∨ fs.HasFile p ∧ gs.HasFile p

theorem SameTree.refl (fs : FileSystem) : SameTree fs fs := fun _ => .inl rfl

theorem SameTree.symm {fs gs : FileSystem} (same : SameTree fs gs) : SameTree gs fs := by
  intro p
  rcases same p with equal | ⟨file,file'⟩
  · exact .inl equal.symm
  · exact .inr ⟨file',file⟩

theorem SameTree.node? {fs gs : FileSystem} (same : SameTree fs gs) {p : Place} {n : Node} (found : fs.node? p = some n)
    (other : ∀ runnable content, n ≠ .file runnable content) : gs.node? p = some n := by
  rcases same p with equal | ⟨⟨runnable,content,file⟩,-⟩
  · rw [equal,found]
  · rw [found] at file
    exact absurd (Option.some.inj file) (other runnable content)

theorem sameTree_modify (fs : FileSystem) (p : Place) (f : Bytes → Bytes) : SameTree fs (fs.modify p f) := by
  intro q
  rw [modify]
  split
  · rename_i runnable content file
    have nonempty : p ≠ [] := by
      rintro rfl
      cases file
    by_cases here : q = p
    · right
      rw [here]
      exact ⟨⟨runnable,content,file⟩,⟨runnable,f content,by rw [node?_put nonempty,if_pos rfl]⟩⟩
    · left
      rw [node?_put nonempty,if_neg here]
  · exact .inl rfl

/-- What leads to a directory does so whatever the files hold. -/
theorem Leads.sameTree {fs gs : FileSystem} (same : SameTree fs gs) {making : Bool} {fuel links : Nat} {here : Place}
    {names : List Raw} {slash : Bool} {p : Place} (leads : fs.Leads making fuel links here names slash (.found p .directory)) :
    gs.Leads making fuel links here names slash (.found p .directory) := by
  generalize target : Target.found p .directory = t at leads ⊢
  induction leads with
  | ended there =>
    cases target
    exact .ended (same.node? there (by simp))
  | stay _ ih => exact .stay (ih target)
  | up _ ih => exact .up (ih target)
  | link looked there filled _ ih => exact .link looked (same.node? there (by simp)) filled (ih target)
  | inside looked there _ ih => exact .inside looked (same.node? there (by simp)) (ih target)
  | last _ _ _ noDirectory =>
    cases target
    exact absurd rfl noDirectory
  | free => cases target

theorem find_eq_ok_iff {fs : FileSystem} {here : Place} {path : Raw} {p : Place} {n : Node} :
    fs.find here path = .ok (p,n) ↔ fs.locate false here path = .ok (.found p n) := by
  rw [find]
  cases fs.locate false here path with
  | error e => simp
  | ok t => cases t <;> simp

theorem SameTree.find {fs gs : FileSystem} (same : SameTree fs gs) {here : Place} {path : Raw} {p : Place}
    (leads : fs.find here path = .ok (p,.directory)) : gs.find here path = .ok (p,.directory) := by
  obtain ⟨filled,short,leads⟩ := locate_eq_ok_iff.mp (find_eq_ok_iff.mp leads)
  exact find_eq_ok_iff.mpr (locate_eq_ok_iff.mpr ⟨filled,short,leads.sameTree same⟩)

/-! ### Paths of directories -/

/-- The path of a place as a shell shows it. -/
def shownPath (p : Place) : Text := Raw.toText (pathOf p)

/-- A place has a path that is that of a text and leads to it. -/
structure HasPath (fs : FileSystem) (p : Place) : Prop where
  leads : fs.find [] (pathOf p) = .ok (p,.directory)
  text : Raw.ofText (shownPath p) = pathOf p
  clean : '\x00' ∉ shownPath p

def Navigable (fs : FileSystem) : Prop := ∀ p, fs.node? p = some .directory → fs.HasPath p

theorem pathOf_head? (p : Place) : (pathOf p).head? = some '/' := by
  rw [pathOf]
  cases p <;> rfl

/-- An absolute path leads to the same from everywhere. -/
theorem HasPath.find {fs : FileSystem} {p : Place} (path : fs.HasPath p) (here : Place) :
    fs.find here (Raw.ofText (shownPath p)) = .ok (p,.directory) := by
  have same : fs.find here (pathOf p) = fs.find [] (pathOf p) := by
    rw [FileSystem.find,FileSystem.find,locate,locate,if_pos (pathOf_head? p),if_pos (pathOf_head? p)]
  rw [path.text,same,path.leads]

theorem Navigable.sameTree {fs gs : FileSystem} (navigable : fs.Navigable) (same : SameTree fs gs) : gs.Navigable := by
  intro p directory
  obtain ⟨leads,text,clean⟩ := navigable p (same.symm.node? directory (by simp))
  exact ⟨same.find leads,text,clean⟩

theorem hasPath_iff (fs : FileSystem) (p : Place) : fs.HasPath p ↔
    (fs.find [] (pathOf p)).toOption = some (p,.directory) ∧ Raw.ofText (shownPath p) = pathOf p ∧ '\x00' ∉ shownPath p := by
  have found : (fs.find [] (pathOf p)).toOption = some (p,.directory) ↔ fs.find [] (pathOf p) = .ok (p,.directory) := by
    cases fs.find [] (pathOf p) <;> simp [Except.toOption]
  rw [found]
  exact ⟨fun path => ⟨path.leads,path.text,path.clean⟩,fun ⟨leads,text,clean⟩ => ⟨leads,text,clean⟩⟩

instance (fs : FileSystem) (p : Place) : Decidable (fs.HasPath p) := decidable_of_iff _ (fs.hasPath_iff p).symm

theorem navigable_iff (fs : FileSystem) :
    fs.Navigable ↔ ∀ p ∈ [] :: fs.nodes.map Prod.fst, fs.node? p = some .directory → fs.HasPath p := by
  constructor
  · intro navigable p _
    exact navigable p
  · intro used p directory
    apply used p _ directory
    by_cases root : p = []
    · rw [root]
      exact List.mem_cons_self
    · rw [node?,if_neg (by simpa using root)] at directory
      obtain ⟨q,found,-⟩ := Option.map_eq_some_iff.mp directory
      have key : q.1 = p := by simpa using List.find?_some found
      rw [← key]
      exact List.mem_cons_of_mem _ (List.mem_map_of_mem (List.mem_of_find?_eq_some found))

instance (fs : FileSystem) : Decidable fs.Navigable := decidable_of_iff _ fs.navigable_iff.symm

end FileSystem

namespace Machine
open FileSystem

/-! ### The process of the shell -/

theorem isCurrent_of_process? {m : Machine} {p : Process} (found : m.process? m.current = some p) :
    (p.pid == m.current) = true :=
  List.find?_some (p := fun p : Process => p.pid == m.current) found

theorem shell?_update {m : Machine} {p : Process} (alive : m.shell? = some p) (f : Process → Process)
    (sameNumber : ∀ p, (f p).pid = p.pid) (sameState : ∀ p, (f p).hasEnded = p.hasEnded) :
    (m.update m.current f).shell? = some (f p) := by
  obtain ⟨current,goesOn⟩ := Option.filter_eq_some_iff.mp alive
  have key : ((fun p : Process => p.pid == m.current) ∘ fun p => if p.pid == m.current then f p else p) =
      fun p => p.pid == m.current := by
    funext p
    simp only [Function.comp_def]
    split_ifs
    · rw [sameNumber]
    · rfl
  have found : (m.update m.current f).process? m.current = some (f p) := by
    rw [process?,update,List.find?_map,key]
    rw [process?] at current
    rw [current,Option.map_some,if_pos (isCurrent_of_process? current)]
  refine Option.filter_eq_some_iff.mpr ⟨found,?_⟩
  rw [sameState]
  exact goesOn

theorem here_of_shell? {m : Machine} {p : Process} (alive : m.shell? = some p) : m.here = p.here := by
  have found : m.process? m.current = some p := (Option.filter_eq_some_iff.mp alive).1
  rw [here,found]
  rfl

theorem pid_of_shell? {m : Machine} {p : Process} (alive : m.shell? = some p) : p.pid = m.current := by
  have found : m.process? m.current = some p := (Option.filter_eq_some_iff.mp alive).1
  exact beq_iff_eq.mp (isCurrent_of_process? found)

/-- A process has gone on from one machine to the other with the same directory and the same environment, and no more has
    happened to the files than that they were written. -/
structure GoesOn (m n : Machine) (p q : Process) : Prop where
  alive : n.shell? = some q
  here : q.here = p.here
  environment : q.environment = p.environment
  files : SameTree m.files n.files

theorem goesOn_refl {m : Machine} {p : Process} (alive : m.shell? = some p) : GoesOn m m p p :=
  ⟨alive,rfl,rfl,.refl _⟩

/-- Writing changes descriptions, pipes, what is kept and what files hold. -/
theorem goesOn_written {m n : Machine} {p : Process} (alive : m.shell? = some p) {d : DescriptionId} {b left : Bytes}
    (wrote : m.write d b = .written left n) : GoesOn m n p p := by
  unfold write at wrote
  split at wrote
  · split at wrote
    · cases wrote
      exact ⟨alive,rfl,rfl,sameTree_modify _ _ _⟩
    · cases wrote
  · split at wrote
    · cases wrote
      exact goesOn_refl alive
    · cases wrote
  · split at wrote
    · cases wrote
    · split at wrote
      · cases wrote
        exact goesOn_refl alive
      · cases wrote
  · cases wrote
    exact ⟨alive,rfl,rfl,.refl _⟩
  · split at wrote
    · cases wrote
      exact goesOn_refl alive
    · split at wrote
      · dsimp only at wrote
        split at wrote
        · cases wrote
        · cases wrote
          exact ⟨alive,rfl,rfl,.refl _⟩
      · cases wrote
  · cases wrote
    exact ⟨alive,rfl,rfl,.refl _⟩
  all_goals cases wrote

theorem exists_goesOn_writeTo {m n : Machine} {p : Process} (alive : m.shell? = some p) {d : DescriptionId} {b : Bytes}
    (wrote : m.writeTo p d b = .ok n) : ∃ q, GoesOn m n p q := by
  unfold writeTo at wrote
  split at wrote
  · cases wrote
    exact ⟨p,goesOn_refl alive⟩
  · split at wrote
    · cases wrote
      rw [pid_of_shell? alive]
      exact ⟨_,shell?_update alive _ (fun _ => rfl) (fun _ => rfl),rfl,rfl,.refl _⟩
    · split at wrote
      · rename_i left n' written
        cases wrote
        exact ⟨p,goesOn_written alive written⟩
      · cases wrote
        exact ⟨p,goesOn_refl alive⟩
      · cases wrote

theorem exists_goesOn_writeStandard {m n : Machine} {p : Process} (alive : m.shell? = some p) {fd : Nat} {b : Bytes}
    (wrote : m.writeStandard p fd b = .ok n) : ∃ q, GoesOn m n p q := by
  unfold writeStandard at wrote
  split at wrote
  · cases wrote
    exact ⟨p,goesOn_refl alive⟩
  · split at wrote
    · rename_i n' written
      cases wrote
      exact exists_goesOn_writeTo alive written
    · split at wrote
      · cases wrote
        exact ⟨p,goesOn_refl alive⟩
      · cases wrote

theorem of_lift_eq_ok {α : Type} {x : Except Errno α} {a : α} (lifted : lift x = .ok a) : x = .ok a := by
  cases x with
  | error e => cases lifted
  | ok b =>
    cases lifted
    rfl

theorem exists_goesOn_write {m n : Machine} {p : Process} (alive : m.shell? = some p) {c : Channel} {b : Bytes}
    (wrote : m.writeShell c b = .ok n) : ∃ q, GoesOn m n p q := by
  unfold writeShell at wrote
  rw [alive] at wrote
  have wrote := of_lift_eq_ok wrote
  cases c with
  | output => exact exists_goesOn_writeStandard alive wrote
  | errors => exact exists_goesOn_writeStandard alive wrote
  | handle h => exact exists_goesOn_writeTo alive wrote

/-! ### Where the shell is -/

/-- The shell goes on in a directory, and all directories have paths. -/
def Stands (m : Machine) : Prop :=
  m.files.Navigable ∧ ∃ p, m.shell? = some p ∧ m.files.node? p.here = some .directory

def HasDirectory (d : Text) (m : Machine) : Prop := ∃ p, m.files.node? p = some .directory ∧ shownPath p = d

theorem changeDirectory_eq_ok_iff {m n : Machine} {path : Text} :
    Kernel.changeDirectory path m = .ok n ↔ '\x00' ∉ path ∧
      ∃ p, m.files.find m.here (Raw.ofText path) = .ok (p,.directory) ∧
        n = m.update m.current (fun q => { q with here := p }) := by
  simp only [Kernel.changeDirectory,rawPath,bind,Except.bind]
  by_cases nul : '\x00' ∈ path
  · simp [nul]
  · cases leads : m.files.find m.here (Raw.ofText path) with
    | error e => simp [nul,leads,lift]
    | ok target =>
      obtain ⟨p,k⟩ := target
      cases k <;> simp [nul,leads,lift,pure,Except.pure,eq_comm]

theorem environment_of_shell? {m : Machine} {p : Process} (alive : m.shell? = some p) :
    Kernel.environment m = p.environment := by
  change (m.shell?.map (·.environment)).getD [] = _
  rw [alive]
  rfl

theorem directory_of_shell? {m : Machine} {p : Process} (alive : m.shell? = some p) :
    Kernel.directory m = shownPath p.here := by
  change Raw.toText (pathOf m.here) = _
  rw [here_of_shell? alive]
  rfl

/-- A machine keeps the environment and the directory of its shell. -/
theorem keepsPlace : KeepsPlace Stands HasDirectory where
  bind m b := by
    rintro ⟨navigable,p,alive,directory⟩
    have changed : (Kernel.setEnvironment b m).shell? = some { p with environment := b } :=
      shell?_update alive _ (fun _ => rfl) (fun _ => rfl)
    refine ⟨⟨navigable,_,changed,directory⟩,environment_of_shell? changed,?_,fun _ there => there⟩
    rw [directory_of_shell? changed,directory_of_shell? alive]
  go m n path := by
    rintro ⟨navigable,p,alive,-⟩ went
    obtain ⟨-,q,leads,rfl⟩ := changeDirectory_eq_ok_iff.mp went
    have changed := shell?_update alive (fun p => { p with here := q }) (fun _ => rfl) (fun _ => rfl)
    have directory : m.files.node? q = some .directory := stands_of_locate (find_eq_ok_iff.mp leads)
    refine ⟨⟨navigable,_,changed,directory⟩,?_,fun _ there => there⟩
    rw [environment_of_shell? changed,environment_of_shell? alive]
  write m n c b := by
    rintro ⟨navigable,p,alive,directory⟩ wrote
    obtain ⟨q,later,here,environment,files⟩ := exists_goesOn_write alive wrote
    refine ⟨⟨navigable.sameTree files,q,later,?_⟩,?_,?_,?_⟩
    · rw [here]
      exact files.node? directory (by simp)
    · rw [environment_of_shell? later,environment_of_shell? alive,environment]
    · rw [directory_of_shell? later,directory_of_shell? alive,here]
    · rintro d ⟨place,there,shown⟩
      exact ⟨place,files.node? there (by simp),shown⟩
  here m := by
    rintro ⟨-,p,alive,directory⟩
    exact ⟨p.here,directory,(directory_of_shell? alive).symm⟩
  back m d := by
    rintro ⟨navigable,p,alive,-⟩ ⟨place,there,rfl⟩
    have path := navigable place there
    have changed := shell?_update alive (fun p => { p with here := place }) (fun _ => rfl) (fun _ => rfl)
    refine ⟨path.clean,_,changeDirectory_eq_ok_iff.mpr ⟨path.clean,place,path.find m.here,rfl⟩,?_⟩
    rw [directory_of_shell? changed]

end Machine
end JobShell

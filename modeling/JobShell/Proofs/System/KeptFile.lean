import JobShell.Proofs.System.Ways
import JobShell.System.Machine.Shell

/-!
# A file that is written and read

What is added to a file, or put in its place, is what is read from it afterwards.
An operating system has this property for a path in some of its states
(`KeepsFile`); a machine has it in every state where the path leads to a file,
or to a free name in a directory (`Machine.keepsFile`).
-/
namespace JobShell

/-- In the states of `usual` the file at a path can be written, and is read as it was written. -/
structure KeepsFile {σ : Type} [Kernel σ] (path : Text) (usual : σ → Prop) : Prop where
  append : ∀ s b, usual s → ∃ t, Kernel.appendFile path b s = .ok t ∧ usual t ∧
    Kernel.contentOf t path = .ok ((Kernel.contentOf s path).toOption.getD [] ++ b)
  replace : ∀ s b, usual s → ∃ t, Kernel.replaceFile path b s = .ok t ∧ usual t ∧ Kernel.contentOf t path = .ok b

namespace FileSystem

/-! ### The ways of a file system -/

/-- What a way ends with, as it stands in the file system. -/
def Stands (fs : FileSystem) : Target → Prop
  | .found p n => fs.node? p = some n
  | .free p => p ≠ [] ∧ fs.node? p = none

/-- A way ends with what stands there. -/
theorem Leads.stands {fs : FileSystem} {making : Bool} {fuel links : Nat} {here : Place} {names : List Raw}
    {slash : Bool} {t : Target} (leads : fs.Leads making fuel links here names slash t) : fs.Stands t := by
  induction leads with
  | ended there => exact there
  | stay _ ih => exact ih
  | up _ ih => exact ih
  | link _ _ _ _ ih => exact ih
  | inside _ _ _ ih => exact ih
  | last _ there => exact there
  | free _ nothing => exact ⟨by simp,nothing⟩

/-- A place is free, or a file stands there. -/
def IsOpen (fs : FileSystem) (p : Place) : Prop :=
  fs.node? p = none ∨ ∃ runnable content, fs.node? p = some (.file runnable content)

theorem IsOpen.not_found {fs : FileSystem} {p : Place} {n : Node} (isOpen : fs.IsOpen p)
    (other : ∀ runnable content, n ≠ .file runnable content) : fs.node? p ≠ some n := by
  intro found
  rcases isOpen with free | ⟨runnable,content,file⟩
  · rw [free] at found
    cases found
  · rw [file,Option.some.injEq] at found
    exact other runnable content found.symm

/-- The file systems differ in nothing but files of the second, at places that are open in the first. -/
def Grows (fs gs : FileSystem) : Prop :=
  ∀ p, gs.node? p = fs.node? p ∨ fs.IsOpen p ∧ ∃ runnable content, gs.node? p = some (.file runnable content)

theorem Grows.refl (fs : FileSystem) : Grows fs fs := fun _ => .inl rfl

/-- What leads on in a file system leads on in every one that it grows to. -/
theorem Grows.node? {fs gs : FileSystem} (grows : Grows fs gs) {p : Place} {n : Node} (found : fs.node? p = some n)
    (other : ∀ runnable content, n ≠ .file runnable content) : gs.node? p = some n := by
  rcases grows p with same | ⟨isOpen,_⟩
  · rw [same,found]
  · exact absurd found (isOpen.not_found other)

/-- Where a way ends. -/
def Target.place : Target → Place
  | .found p _ => p
  | .free p => p

/-- The end of a way in another file system. -/
def ending (gs : FileSystem) (t : Target) : Target :=
  match gs.node? t.place with
  | some n => .found t.place n
  | none => .free t.place

theorem ending_of_stands {fs : FileSystem} {t : Target} (stands : fs.Stands t) : fs.ending t = t := by
  cases t with
  | found p n =>
    have there : fs.node? p = some n := stands
    rw [ending,Target.place,there]
  | free p => rw [ending,Target.place,stands.2]

theorem ending_of_found {gs : FileSystem} {t : Target} {n : Node} (there : gs.node? t.place = some n) :
    gs.ending t = .found t.place n := by
  rw [ending,there]

/-- A way on which something may be made is the same way after the file system has grown, whether or not something is
    made on it. -/
theorem Leads.grows {fs gs : FileSystem} (grows : Grows fs gs) (making : Bool) {fuel links : Nat} {here : Place}
    {names : List Raw} {slash : Bool} {t : Target} (leads : fs.Leads true fuel links here names slash t) :
    gs.Leads making fuel links here names slash (gs.ending t) := by
  induction leads with
  | @ended fuel links here slash n there =>
    rcases grows here with same | ⟨_,runnable,content,file⟩
    · rw [ending_of_found (same.trans there)]
      exact .ended (same.trans there)
    · rw [ending_of_found file]
      exact .ended file
  | stay _ ih => exact .stay ih
  | up _ ih => exact .up ih
  -- Links and directories are no places where files are made, so they lead on as before.
  | link looked there filled _ ih => exact .link (looked.of_making making) (grows.node? there (by simp)) filled ih
  | inside looked there _ ih => exact .inside (looked.of_making making) (grows.node? there (by simp)) ih
  | @last fuel links here name n looked there noLink noDirectory =>
    rcases grows (here ++ [name]) with same | ⟨_,runnable,content,file⟩
    · rw [ending_of_found (same.trans there)]
      exact .last (looked.of_making making) (same.trans there) noLink noDirectory
    · rw [ending_of_found file]
      exact .last (looked.of_making making) file (by simp) (by simp)
  -- Afterwards a free name is free still, or a file stands there, which no slash can come after.
  | @free fuel links here name slash looked nothing =>
    rcases grows (here ++ [name]) with same | ⟨_,runnable,content,file⟩
    · have free : gs.ending (.free (here ++ [name])) = .free (here ++ [name]) := by
        rw [ending,Target.place,same,nothing]
      rw [free]
      exact .free (looked.of_making making) (same.trans nothing)
    · rw [ending_of_found file]
      obtain rfl := looked.slash_eq_false
      exact .last (looked.of_making making) file (by simp) (by simp)

/-! ### Changing one place -/

theorem find?_replaced (l : List (Place × Node)) (p : Place) (n : Node) (q : Place) :
    (l.map (fun x => if x.1 == p then (p,n) else x)).find? (·.1 == q) =
      (l.find? (·.1 == q)).map (fun x => if x.1 == p then (p,n) else x) := by
  have key : ∀ x : Place × Node, (if x.1 == p then (p,n) else x).1 = x.1 := by
    intro x
    split_ifs with same
    · exact (beq_iff_eq.mp same).symm
    · rfl
  rw [List.find?_map]
  simp only [Function.comp_def,key]

theorem node?_put {fs : FileSystem} {p : Place} (nonempty : p ≠ []) (n : Node) (q : Place) :
    (fs.put p n).node? q = if q = p then some n else fs.node? q := by
  by_cases root : q.isEmpty
  · have other : q ≠ p := by
      rintro rfl
      exact nonempty (List.isEmpty_iff.mp root)
    rw [node?,node?,if_pos root,if_pos root,if_neg other]
  rw [node?,node?,if_neg root,if_neg root,put]
  by_cases used : fs.nodes.any (·.1 == p)
  · rw [if_pos used,find?_replaced,Option.map_map]
    cases found : fs.nodes.find? (·.1 == q) with
    | none =>
      have other : q ≠ p := by
        rintro rfl
        rw [List.find?_eq_none] at found
        obtain ⟨x,mem,here⟩ := List.any_eq_true.mp used
        exact found x mem here
      rw [if_neg other]
      rfl
    | some x =>
      have key : x.1 = q := by simpa using List.find?_some found
      by_cases same : q = p
      · simp [key,same]
      · simp [key,same]
  · rw [if_neg used,List.find?_append]
    by_cases same : q = p
    · subst same
      have free : fs.nodes.find? (·.1 == q) = none :=
        List.find?_eq_none.mpr fun x mem here => used (List.any_eq_true.mpr ⟨x,mem,here⟩)
      rw [free]
      simp
    · have other : (p == q) = false := beq_false_of_ne (Ne.symm same)
      simp [same,other]

/-- What stands at a place, as far as it can be read. -/
def contentAt (fs : FileSystem) (p : Place) : Bytes := ((fs.node? p).map Node.content).getD []

/-- The file systems differ in nothing but a place, where the second has a file with some content. -/
def Written (fs gs : FileSystem) (p : Place) (content : Bytes) : Prop :=
  (∃ runnable, gs.node? p = some (.file runnable content)) ∧ ∀ q, q ≠ p → gs.node? q = fs.node? q

theorem Written.modify {fs gs : FileSystem} {p : Place} {content : Bytes} (written : Written fs gs p content)
    (f : Bytes → Bytes) : Written fs (gs.modify p f) p (f content) := by
  obtain ⟨⟨runnable,there⟩,same⟩ := written
  have nonempty : p ≠ [] := by
    rintro rfl
    cases there
  rw [FileSystem.modify,there]
  refine ⟨⟨runnable,?_⟩,fun q other => ?_⟩
  · rw [node?_put nonempty,if_pos rfl]
  · rw [node?_put nonempty,if_neg other,same q other]

/-! ### The place of a path -/

/-- A path leads to a file at a place, or to the place when it is free. -/
def Spot (fs : FileSystem) (here : Place) (path : Raw) (p : Place) : Prop :=
  ∃ t, fs.locate true here path = .ok t ∧ t.place = p ∧ fs.IsOpen p

theorem locate_eq_ok_iff {fs : FileSystem} {making : Bool} {here : Place} {path : Raw} {t : Target} :
    fs.locate making here path = .ok t ↔ path.isEmpty = false ∧ path.length < pathLimit ∧
      fs.Leads making walkLimit linkLimit (if path.head? = some '/' then [] else here) (steps path) (endsInSlash path)
        t := by
  rw [locate,← walk_eq_ok_iff]
  by_cases empty : path.isEmpty
  · simp [empty]
  · rw [if_neg empty]
    by_cases long : path.length ≥ pathLimit
    · simp [long,Nat.not_lt.mpr long]
    · rw [if_neg long]
      simp [empty,Nat.lt_of_not_ge long]

theorem stands_of_locate {fs : FileSystem} {making : Bool} {here : Place} {path : Raw} {t : Target}
    (way : fs.locate making here path = .ok t) : fs.Stands t :=
  (locate_eq_ok_iff.mp way).2.2.stands

theorem Grows.locate {fs gs : FileSystem} (grows : Grows fs gs) (making : Bool) {here : Place} {path : Raw} {t : Target}
    (way : fs.locate true here path = .ok t) : gs.locate making here path = .ok (gs.ending t) := by
  obtain ⟨filled,short,leads⟩ := locate_eq_ok_iff.mp way
  exact locate_eq_ok_iff.mpr ⟨filled,short,leads.grows grows making⟩

/-- A way on which something may be made is a way. -/
theorem locate_making {fs : FileSystem} {here : Place} {path : Raw} {t : Target}
    (way : fs.locate true here path = .ok t) (making : Bool) : fs.locate making here path = .ok t := by
  have same := (Grows.refl fs).locate making way
  rwa [ending_of_stands (stands_of_locate way)] at same

theorem Spot.written {fs gs : FileSystem} {here : Place} {path : Raw} {p : Place} {content : Bytes}
    (spot : fs.Spot here path p) (written : Written fs gs p content) : gs.Spot here path p := by
  obtain ⟨t,way,rfl,isOpen⟩ := spot
  obtain ⟨⟨runnable,there⟩,same⟩ := written
  have grows : Grows fs gs := fun q => by
    by_cases here : q = t.place
    · exact .inr (here ▸ ⟨isOpen,runnable,content,there⟩)
    · exact .inl (same q here)
  have later := grows.locate true way
  rw [ending_of_found there] at later
  exact ⟨_,later,rfl,.inr ⟨runnable,content,there⟩⟩

/-- The file system with a file where a way ends. -/
def made (fs : FileSystem) : Target → FileSystem
  | .found _ _ => fs
  | .free p => fs.put p (.file false [])

theorem written_made {fs : FileSystem} {t : Target} (stands : fs.Stands t) (isOpen : fs.IsOpen t.place) :
    Written fs (fs.made t) t.place (fs.contentAt t.place) := by
  cases t with
  | found p n =>
    have here : fs.node? p = some n := stands
    rcases isOpen with free | ⟨runnable,content,there⟩
    · exact absurd (here.symm.trans free) (by simp)
    · exact ⟨⟨runnable,by rw [contentAt,there]; exact there⟩,fun _ _ => rfl⟩
  | free p =>
    obtain ⟨nonempty,free⟩ := stands
    have nothing : fs.contentAt p = [] := by rw [contentAt,free]; rfl
    refine ⟨⟨false,?_⟩,fun q other => ?_⟩
    · rw [made,Target.place,nothing,node?_put nonempty,if_pos rfl]
    · rw [made,node?_put nonempty]
      exact if_neg other

end FileSystem

namespace Machine
open FileSystem

/-- The machine with other files and descriptions. -/
def withFiles (m : Machine) (fs : FileSystem) (ds : Array Description) : Machine :=
  { m with files := fs, descriptions := ds }

@[simp] theorem withFiles_files (m : Machine) (fs : FileSystem) (ds : Array Description) :
    (m.withFiles fs ds).files = fs := rfl

@[simp] theorem withFiles_shell? (m : Machine) (fs : FileSystem) (ds : Array Description) :
    (m.withFiles fs ds).shell? = m.shell? := rfl

@[simp] theorem withFiles_withFiles (m : Machine) (fs gs : FileSystem) (ds es : Array Description) :
    (m.withFiles fs ds).withFiles gs es = m.withFiles gs es := rfl

theorem withFiles_description? (m : Machine) (fs : FileSystem) (ds : Array Description) (d : Description) :
    (m.withFiles fs (ds.push d)).description? ds.size = some d := Array.getElem?_push_size

/-- The shell goes on, and a path leads to a file at a place, or to the place when it is free. -/
def HasSpot (path : Text) (place : Place) (m : Machine) : Prop :=
  ∃ p, m.shell? = some p ∧ path.contains '\x00' = false ∧ m.files.Spot p.here (Raw.ofText path) place

theorem openAs_made {m : Machine} {p : Process} {path : Raw} {t : Target}
    (way : m.files.locate true p.here path = .ok t) {runnable : Bool} {content : Bytes}
    (there : (m.files.made t).node? t.place = some (.file runnable content)) (cut append : Bool) :
    m.openAs p path true cut append false true = .ok (m.descriptions.size,
      m.withFiles (if cut then (m.files.made t).modify t.place (fun _ => []) else m.files.made t)
        (m.descriptions.push (.file t.place 0 append false true))) := by
  cases t with
  | free q =>
    simp only [made,Target.place] at there
    simp only [openAs,way,bind,Except.bind,there,if_true,Option.getD_some,describeNode,made,Target.place]
    cases cut <;> rfl
  | found q n =>
    simp only [made,Target.place] at there
    have stands : m.files.node? q = some n := stands_of_locate way
    rw [there] at stands
    cases stands
    simp only [openAs,way,bind,Except.bind,there,Option.getD_some,describeNode,made,Target.place]
    cases cut <;> rfl

/-- A file that is opened for writing is there afterwards. -/
theorem openAs_spot {m : Machine} {p : Process} {path : Raw} {place : Place} (spot : m.files.Spot p.here path place)
    (cut append : Bool) :
    ∃ fs, Written m.files fs place (if cut then [] else m.files.contentAt place) ∧
      m.openAs p path true cut append false true = .ok (m.descriptions.size,
        m.withFiles fs (m.descriptions.push (.file place 0 append false true))) := by
  obtain ⟨t,way,rfl,isOpen⟩ := spot
  have written := written_made (stands_of_locate way) isOpen
  obtain ⟨runnable,there⟩ := written.1
  refine ⟨_,?_,openAs_made way there cut append⟩
  cases cut with
  | false => exact written
  | true => exact written.modify (fun _ => [])

/-- What is written to a description of a file comes after what the file holds, at its end or when it is empty. -/
theorem writeTo_file {m : Machine} {d : DescriptionId} {place : Place} {append : Bool} {content : Bytes}
    (described : m.description? d = some (.file place 0 append false true)) (atEnd : append = true ∨ content = [])
    {fs : FileSystem} (written : Written fs m.files place content) (p : Process) (b : Bytes) :
    ∃ gs ds, m.writeTo p d b = .ok (m.withFiles gs ds) ∧ Written fs gs place (content ++ b) := by
  by_cases nothing : b.isEmpty
  · have same : content ++ b = content := by rw [List.isEmpty_iff.mp nothing,List.append_nil]
    exact ⟨m.files,m.descriptions,by rw [writeTo,if_pos nothing]; rfl,by rw [same]; exact written⟩
  · obtain ⟨runnable,there⟩ := written.1
    have position : (if append then content.length else 0) = content.length := by
      rcases atEnd with rfl | rfl
      · rfl
      · cases append <;> rfl
    have whole : overwrite content content.length b = content ++ b := by
      rw [overwrite,List.take_length,Nat.sub_self,List.drop_eq_nil_of_le (by omega)]
      simp
    have changed := written.modify (fun content' => overwrite content' content.length b)
    rw [whole] at changed
    refine ⟨_,m.descriptions.set! d (.file place (content.length + b.length) append false true),?_,changed⟩
    rw [writeTo,if_neg nothing,described]
    simp only [write,described,there,if_true,position]
    rfl

/-- A file that is opened and written holds what was written, after its content or in its place. -/
theorem writePath_spot {m : Machine} {path : Text} {place : Place} (spot : HasSpot path place m) (b : Bytes)
    (cut : Bool) {mode : FileMode} (writes : mode = if cut then .output else .append) :
    ∃ n, writePath mode path b m = .ok n ∧ HasSpot path place n ∧
      Written m.files n.files place ((if cut then [] else m.files.contentAt place) ++ b) := by
  obtain ⟨p,alive,noNul,leads⟩ := spot
  obtain ⟨fs,emptied,opened⟩ := openAs_spot leads cut (!cut)
  have atEnd : (!cut) = true ∨ (if cut then [] else m.files.contentAt place) = [] := by
    cases cut
    · exact .inl rfl
    · exact .inr rfl
  obtain ⟨gs,ds,wrote,written⟩ := writeTo_file (withFiles_description? m fs m.descriptions _) atEnd emptied p b
  have shown : m.openShell mode (Raw.ofText path) = m.openAs p (Raw.ofText path) true cut (!cut) false true := by
    subst writes
    cases cut <;> simp only [openShell,alive] <;> rfl
  refine ⟨m.withFiles gs ds,?_,⟨p,alive,noNul,leads.written written⟩,written⟩
  simp only [writePath,rawPath,noNul,shown,opened,lift,bind,Except.bind,withFiles_shell?,alive,wrote,
    withFiles_withFiles,Bool.false_eq_true,if_false]

theorem openAs_read {m : Machine} {p : Process} {path : Raw} {place : Place} {runnable : Bool} {content : Bytes}
    (way : m.files.locate false p.here path = .ok (.found place (.file runnable content))) :
    m.openAs p path false false false true false = .ok (m.descriptions.size,
      m.withFiles m.files (m.descriptions.push (.file place 0 false true false))) := by
  have stands : m.files.node? place = some (.file runnable content) := stands_of_locate way
  simp only [openAs,way,bind,Except.bind,stands,Option.getD_some,describeNode]
  rfl

/-- What is read from a file that is there. -/
theorem contentOf_file {m : Machine} {path : Text} {place : Place} (spot : HasSpot path place m) {runnable : Bool}
    {content : Bytes} (there : m.files.node? place = some (.file runnable content)) :
    Kernel.contentOf m path = .ok content := by
  obtain ⟨p,alive,noNul,t,way,rfl,_⟩ := spot
  have stands := stands_of_locate way
  cases t with
  | free q => exact absurd (there.symm.trans stands.2) (by simp)
  | found q n =>
    have here : m.files.node? q = some (.file runnable content) := there
    obtain rfl : n = .file runnable content := Option.some.inj (stands.symm.trans there)
    have shown : m.openShell .input (Raw.ofText path) = m.openAs p (Raw.ofText path) false false false true false := by
      rw [openShell,alive]; rfl
    simp only [Kernel.contentOf,rawPath,noNul,shown,openAs_read (locate_making way false),lift,bind,Except.bind,
      Bool.false_eq_true,if_false,wholeContent,withFiles_description?,withFiles_files,here,Option.map_some,
      Option.getD_some,Node.content]

/-- What is read from a file, and nothing when there is none. -/
theorem contentOf_spot {m : Machine} {path : Text} {place : Place} (spot : HasSpot path place m) :
    (Kernel.contentOf m path).toOption.getD [] = m.files.contentAt place := by
  have found := spot
  obtain ⟨p,alive,noNul,t,way,rfl,isOpen⟩ := spot
  rw [contentAt]
  rcases isOpen with free | ⟨runnable,content,there⟩
  · have stands := stands_of_locate way
    cases t with
    | found q n => exact absurd (free.symm.trans stands) (by simp)
    | free q =>
      have shown : m.openShell .input (Raw.ofText path) = .error Errno.noEntry := by
        rw [openShell,alive]
        simp only [openFor,openAs,locate_making way false,bind,Except.bind,Bool.false_eq_true,if_false]
      simp only [Kernel.contentOf,rawPath,noNul,shown,lift,bind,Except.bind,Bool.false_eq_true,if_false,free]
      rfl
  · rw [contentOf_file found there,there]
    rfl

/-- A machine keeps the file of a path. -/
theorem keepsFile (path : Text) (place : Place) : KeepsFile path (HasSpot path place) where
  append m b spot := by
    obtain ⟨n,wrote,kept,⟨runnable,there⟩,_⟩ := writePath_spot spot b false rfl
    exact ⟨n,wrote,kept,by rw [contentOf_spot spot]; exact contentOf_file kept there⟩
  replace m b spot := by
    obtain ⟨n,wrote,kept,⟨runnable,there⟩,_⟩ := writePath_spot spot b true rfl
    exact ⟨n,wrote,kept,contentOf_file kept there⟩

end Machine
end JobShell

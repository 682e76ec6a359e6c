import JobShell.Proofs.System.Listing
import JobShell.Proofs.Text.Order
import JobShell.Session.Lookup
import JobShell.Session.Vocabulary
import JobShell.System.Machine.Start

/-!
# The search path

Completion reads the directories of the search path and keeps the names of the
executable files, whereas a command is looked up in one directory after the
other. On a system whose directories list their files (`Kernel.ListsFiles`), as
those of a machine do (`Machine.listsFiles`), both know the same commands, and the
first directory decides which file is run (`Lookup.command_searchPath`).
-/
namespace JobShell

namespace Lookup
variable {kindOf : Text → Option FileKind} {name : Text}

/-- The first file that may be executed is run; one that may not be is a reason only when there is none. -/
theorem firstRunnable_eq (denied : Bool) (files : List Text) :
    firstRunnable kindOf name denied files =
      match files.find? (fun file => kindOf file = some (.regular true)) with
      | some file => .ok file
      | none =>
        .error (if denied || files.any (fun file => kindOf file = some (.regular false)) then .notRunnable name
          else .notFound name) := by
  fun_induction firstRunnable kindOf name denied files with
  | case1 denied => simp
  | case2 denied file r found => simp [found]
  | case3 denied file r found ih => simp [ih,found]
  | case4 denied file r other other' ih =>
    have notRunnable : kindOf file ≠ some (.regular true) := fun found => other found
    have notDenied : kindOf file ≠ some (.regular false) := fun found => other' found
    simp [ih,notRunnable,notDenied]

end Lookup

section
variable {σ : Type} [Kernel σ] {s : σ} {name : Text}

/-- The kind of what a name leads to in a directory. -/
def Kernel.kindIn (s : σ) (name d : Text) : Option FileKind := (Kernel.kindOf s (FileSystem.inside d name)).toOption

/-- The directories of the search path, as they are written between the colons. -/
def Kernel.searchDirectories (s : σ) : List Text := Text.splitOn ':' (Kernel.searchPath s)

/-- What is found by a name in a directory, other than a directory, has that name among those that are read from the
    directory. -/
def Kernel.ListsFiles (s : σ) : Prop :=
  ∀ d name kind, d ≠ [] → name ≠ [] → '/' ∉ name → Kernel.kindOf s (FileSystem.inside d name) = .ok kind →
    kind ≠ .directory → ∃ names, Kernel.namesIn s d = .ok names ∧ name ∈ names

theorem Kernel.kindIn_eq_some_iff {d : Text} {kind : FileKind} :
    Kernel.kindIn s name d = some kind ↔ Kernel.kindOf s (FileSystem.inside d name) = .ok kind := by
  rw [Kernel.kindIn]
  cases Kernel.kindOf s (FileSystem.inside d name) <;> simp [Except.toOption]

theorem Lookup.command_eq (filled : ∀ d ∈ Kernel.searchDirectories s, d ≠ []) (nonempty : name ≠ [])
    (noSlash : '/' ∉ name) :
    Lookup.command s name =
      match (Kernel.searchDirectories s).find? (fun d => Kernel.kindIn s name d = some (.regular true)) with
      | some d => .ok (FileSystem.inside d name)
      | none =>
        .error (if (Kernel.searchDirectories s).any (fun d => Kernel.kindIn s name d = some (.regular false)) then
          .notRunnable name else .notFound name) := by
  have directories : Lookup.directories (Kernel.searchPath s) = Kernel.searchDirectories s := by
    have same : ∀ d ∈ Kernel.searchDirectories s, (if d.isEmpty then ['.'] else d) = d := by
      intro d mem
      rw [if_neg (by simpa using filled d mem)]
    rw [Lookup.directories]
    exact (List.map_congr_left same).trans (List.map_id' _)
  have plain : name.contains '/' = false := by simpa using noSlash
  have command : Lookup.command s name = Lookup.firstRunnable (fun path => (Kernel.kindOf s path).toOption) name false
      ((Kernel.searchDirectories s).map (fun d => FileSystem.inside d name)) := by
    rw [← directories,Lookup.command,Lookup.file,plain,if_neg (by simp),if_neg (by simpa using nonempty)]
    rfl
  have first : ((Kernel.searchDirectories s).map (fun d => FileSystem.inside d name)).find?
      (fun file => (Kernel.kindOf s file).toOption = some (.regular true)) =
      ((Kernel.searchDirectories s).find? (fun d => Kernel.kindIn s name d = some (.regular true))).map
        (fun d => FileSystem.inside d name) := List.find?_map ..
  have any : ((Kernel.searchDirectories s).map (fun d => FileSystem.inside d name)).any
      (fun file => (Kernel.kindOf s file).toOption = some (.regular false)) =
      (Kernel.searchDirectories s).any (fun d => Kernel.kindIn s name d = some (.regular false)) := List.any_map
  rw [command,Lookup.firstRunnable_eq,first,any,Bool.false_or]
  cases (Kernel.searchDirectories s).find? (fun d => Kernel.kindIn s name d = some (.regular true)) <;> rfl

theorem Kernel.find?_eq_none_iff :
    (Kernel.searchDirectories s).find? (fun d => Kernel.kindIn s name d = some (.regular true)) = none ↔
      ∀ d ∈ Kernel.searchDirectories s, Kernel.kindIn s name d ≠ some (.regular true) := by
  simp

theorem Kernel.of_find?_eq_some {d : Text}
    (found : (Kernel.searchDirectories s).find? (fun d => Kernel.kindIn s name d = some (.regular true)) = some d) :
    d ∈ Kernel.searchDirectories s ∧ Kernel.kindIn s name d = some (.regular true) :=
  ⟨List.mem_of_find?_eq_some found,by simpa using List.find?_some found⟩

theorem Lookup.exists_command_iff (filled : ∀ d ∈ Kernel.searchDirectories s, d ≠ []) (nonempty : name ≠ [])
    (noSlash : '/' ∉ name) :
    (∃ file, Lookup.command s name = .ok file) ↔
      ∃ d ∈ Kernel.searchDirectories s, Kernel.kindIn s name d = some (.regular true) := by
  rw [Lookup.command_eq filled nonempty noSlash]
  cases found : (Kernel.searchDirectories s).find? (fun d => Kernel.kindIn s name d = some (.regular true)) with
  | none =>
    refine iff_of_false (fun ⟨_,ran⟩ => by cases ran) ?_
    rintro ⟨d,mem,runnable⟩
    exact Kernel.find?_eq_none_iff.mp found d mem runnable
  | some d => exact iff_of_true ⟨_,rfl⟩ ⟨d,Kernel.of_find?_eq_some found⟩

/-- The first directory with an executable file of the name is that of the command. -/
theorem Lookup.command_eq_ok_iff (filled : ∀ d ∈ Kernel.searchDirectories s, d ≠ []) (nonempty : name ≠ [])
    (noSlash : '/' ∉ name) (file : Text) :
    Lookup.command s name = .ok file ↔
      ∃ front d back, Kernel.searchDirectories s = front ++ d :: back ∧ file = FileSystem.inside d name ∧
        Kernel.kindIn s name d = some (.regular true) ∧ ∀ e ∈ front, Kernel.kindIn s name e ≠ some (.regular true) := by
  rw [Lookup.command_eq filled nonempty noSlash]
  have first : ∀ d, (Kernel.searchDirectories s).find? (fun d => Kernel.kindIn s name d = some (.regular true)) = some d ↔
      ∃ front back, Kernel.searchDirectories s = front ++ d :: back ∧ Kernel.kindIn s name d = some (.regular true) ∧
        ∀ e ∈ front, Kernel.kindIn s name e ≠ some (.regular true) := by
    intro d
    rw [List.find?_eq_some_iff_append]
    simp only [decide_eq_true_eq,Bool.not_eq_true',decide_eq_false_iff_not]
    exact ⟨fun ⟨runnable,front,back,split,before⟩ => ⟨front,back,split,runnable,before⟩,
      fun ⟨front,back,split,runnable,before⟩ => ⟨runnable,front,back,split,before⟩⟩
  cases found : (Kernel.searchDirectories s).find? (fun d => Kernel.kindIn s name d = some (.regular true)) with
  | none =>
    refine iff_of_false (fun ran => by cases ran) ?_
    rintro ⟨front,d,back,split,-,runnable,before⟩
    rw [(first d).mpr ⟨front,back,split,runnable,before⟩] at found
    cases found
  | some d =>
    constructor
    · intro ran
      cases ran
      obtain ⟨front,back,split,runnable,before⟩ := (first d).mp found
      exact ⟨front,d,back,split,rfl,runnable,before⟩
    · rintro ⟨front,d',back,split,rfl,runnable,before⟩
      rw [(first d').mpr ⟨front,back,split,runnable,before⟩] at found
      cases found
      rfl

/-- Without an executable file of the name, one that may not be executed decides the reason. -/
theorem Lookup.command_eq_error_iff (filled : ∀ d ∈ Kernel.searchDirectories s, d ≠ []) (nonempty : name ≠ [])
    (noSlash : '/' ∉ name) :
    (Lookup.command s name = .error (.notRunnable name) ↔
      (∃ d ∈ Kernel.searchDirectories s, ∃ runnable, Kernel.kindIn s name d = some (.regular runnable)) ∧
        ∀ d ∈ Kernel.searchDirectories s, Kernel.kindIn s name d ≠ some (.regular true)) ∧
    (Lookup.command s name = .error (.notFound name) ↔
      ∀ d ∈ Kernel.searchDirectories s, ∀ runnable, Kernel.kindIn s name d ≠ some (.regular runnable)) := by
  rw [Lookup.command_eq filled nonempty noSlash,← Kernel.find?_eq_none_iff]
  cases found : (Kernel.searchDirectories s).find? (fun d => Kernel.kindIn s name d = some (.regular true)) with
  | some d =>
    obtain ⟨mem,runnable⟩ := Kernel.of_find?_eq_some found
    refine ⟨iff_of_false (fun failed => by cases failed) (fun failed => by cases failed.2),
      iff_of_false (fun failed => by cases failed) (fun nowhere => nowhere d mem true runnable)⟩
  | none =>
    have nowhere := Kernel.find?_eq_none_iff.mp found
    have denied : (Kernel.searchDirectories s).any (fun d => Kernel.kindIn s name d = some (.regular false)) = true ↔
        ∃ d ∈ Kernel.searchDirectories s, ∃ runnable, Kernel.kindIn s name d = some (.regular runnable) := by
      simp only [List.any_eq_true,decide_eq_true_eq]
      constructor
      · rintro ⟨d,mem,kind⟩
        exact ⟨d,mem,false,kind⟩
      · rintro ⟨d,mem,runnable,kind⟩
        cases runnable with
        | false => exact ⟨d,mem,kind⟩
        | true => exact absurd kind (nowhere d mem)
    split_ifs with refused
    · obtain ⟨d,mem,runnable,kind⟩ := denied.mp refused
      exact ⟨iff_of_true rfl ⟨⟨d,mem,runnable,kind⟩,rfl⟩,
        iff_of_false (fun failed => by cases failed) (fun absent => absent d mem runnable kind)⟩
    · exact ⟨iff_of_false (fun failed => by cases failed) (fun failed => refused (denied.mpr failed.1)),
        iff_of_true rfl fun d mem runnable kind => refused (denied.mpr ⟨d,mem,runnable,kind⟩)⟩

/-- The name of a command is kept when some directory has an executable file of that name. -/
theorem PathCache.hasCommand_renewed {c : PathCache} (built : c.path ≠ some (Kernel.searchPath s))
    (filled : ∀ d ∈ Kernel.searchDirectories s, d ≠ [])
    (listed : ∀ d ∈ Kernel.searchDirectories s, Kernel.kindIn s name d = some (.regular true) →
      ∃ names, Kernel.namesIn s d = .ok names ∧ name ∈ names) :
    (c.renewed s).1.hasCommand name = true ↔
      ∃ d ∈ Kernel.searchDirectories s, Kernel.kindIn s name d = some (.regular true) := by
  have directories : PathCache.directories (Kernel.searchPath s) = Kernel.searchDirectories s := by
    rw [PathCache.directories]
    exact List.filter_eq_self.mpr fun d mem => by simpa using filled d mem
  have runnable : ∀ d, Kernel.isRunnable s (FileSystem.inside d name) = true ↔
      Kernel.kindIn s name d = some (.regular true) := by
    intro d
    rw [Kernel.kindIn_eq_some_iff,Kernel.isRunnable]
    split
    · rename_i runnable kind
      simp [kind]
    · rename_i other
      exact iff_of_false (by simp) (other true)
  rw [PathCache.renewed,PathCache.refresh,if_neg built,PathCache.hasCommand,List.contains_iff_mem,Text.mem_sortUnique,
    directories,List.mem_flatMap]
  refine exists_congr fun d => and_congr_right fun mem => ?_
  rw [← runnable,Kernel.executables]
  constructor
  · intro kept
    split at kept
    · exact (List.mem_filter.mp kept).2
    · cases kept
  · intro executable
    obtain ⟨names,read,inside⟩ := listed d mem ((runnable d).mp executable)
    rw [read]
    exact List.mem_filter.mpr ⟨inside,executable⟩

/-- **What is completed is what runs.** When no directory of the search path is empty, the names that are read from these
    directories are those of the commands that are found; the file of a command is in the first directory where the
    name is that of an executable file, and the reason why there is none is that no directory has a file of that name,
    or that those that have one must not execute it. -/
theorem Lookup.command_searchPath (lists : Kernel.ListsFiles s) {c : PathCache} (built : c.path ≠ some (Kernel.searchPath s))
    (filled : ∀ d ∈ Kernel.searchDirectories s, d ≠ []) (nonempty : name ≠ []) (noSlash : '/' ∉ name) :
    ((c.renewed s).1.hasCommand name = true ↔ ∃ file, Lookup.command s name = .ok file) ∧
    (∀ file, Lookup.command s name = .ok file ↔
      ∃ front d back, Kernel.searchDirectories s = front ++ d :: back ∧ file = FileSystem.inside d name ∧
        Kernel.kindIn s name d = some (.regular true) ∧ ∀ e ∈ front, Kernel.kindIn s name e ≠ some (.regular true)) ∧
    (Lookup.command s name = .error (.notRunnable name) ↔
      (∃ d ∈ Kernel.searchDirectories s, ∃ runnable, Kernel.kindIn s name d = some (.regular runnable)) ∧
        ∀ d ∈ Kernel.searchDirectories s, Kernel.kindIn s name d ≠ some (.regular true)) ∧
    (Lookup.command s name = .error (.notFound name) ↔
      ∀ d ∈ Kernel.searchDirectories s, ∀ runnable, Kernel.kindIn s name d ≠ some (.regular runnable)) := by
  refine ⟨?_,Lookup.command_eq_ok_iff filled nonempty noSlash,Lookup.command_eq_error_iff filled nonempty noSlash⟩
  rw [Lookup.exists_command_iff filled nonempty noSlash]
  refine PathCache.hasCommand_renewed built filled fun d mem runnable => ?_
  exact lists d name _ (filled d mem) nonempty noSlash (Kernel.kindIn_eq_some_iff.mp runnable) (by simp)

end

/-- The directories of a machine list their files. -/
theorem Machine.listsFiles {m : Machine} (rooted : m.files.Rooted) (way : m.files.Passable m.here) : Kernel.ListsFiles m :=
  fun _ _ _ filled nonempty noSlash found other => Machine.lists rooted way filled nonempty noSlash found other

/-- A file that may not be executed, a link that leads nowhere, a directory and a link to an executable file, all of one
    name, in directories of the search path. -/
theorem Lookup.command_searchPath_shadowed :
    let fs : FileSystem := ⟨[([txt "a"],.directory),([txt "a",txt "x"],.file false []),
      ([txt "b"],.directory),([txt "b",txt "x"],.link (txt "missing")),
      ([txt "c"],.directory),([txt "c",txt "x"],.directory),
      ([txt "d"],.directory),([txt "d",txt "x"],.link (txt "../e/y")),
      ([txt "e"],.directory),([txt "e",txt "y"],.program (txt "y"))]⟩
    let m := fun path => Machine.start fs [(txt "PATH",path)] [] .empty 0
    (PathCache.empty.renewed (m (txt "/a:/none:/b:/c/:d:/e"))).1.hasCommand ['x'] = true ∧
      Lookup.command (m (txt "/a:/none:/b:/c/:d:/e")) ['x'] = .ok (txt "d/x") ∧
      Lookup.command (m (txt "/b:/a:/c")) ['x'] = .error (.notRunnable ['x']) ∧
      Lookup.command (m (txt "/b:/c")) ['x'] = .error (.notFound ['x']) := by
  intro fs m
  have rooted : fs.Rooted := by decide +kernel
  have lists : ∀ path, Kernel.ListsFiles (m path) := fun _ => Machine.listsFiles rooted (.root fs)
  have built : ∀ path, PathCache.empty.path ≠ some (Kernel.searchPath (m path)) := fun _ => nofun
  have nonempty : (['x'] : Text) ≠ [] := nofun
  have facts := fun path (filled : ∀ d ∈ Kernel.searchDirectories (m path), d ≠ []) =>
    Lookup.command_searchPath (lists path) (built path) filled nonempty (by decide)
  obtain ⟨same,first,-⟩ := facts (txt "/a:/none:/b:/c/:d:/e") (by decide +kernel)
  have ran : Lookup.command (m (txt "/a:/none:/b:/c/:d:/e")) ['x'] = .ok (txt "d/x") :=
    (first _).mpr ⟨[txt "/a",txt "/none",txt "/b",txt "/c/"],['d'],[txt "/e"],by decide +kernel,by decide +kernel,
      by decide +kernel,by decide +kernel⟩
  obtain ⟨-,-,denied,-⟩ := facts (txt "/b:/a:/c") (by decide +kernel)
  obtain ⟨-,-,-,missing⟩ := facts (txt "/b:/c") (by decide +kernel)
  refine ⟨same.mpr ⟨_,ran⟩,ran,denied.mpr ⟨⟨txt "/a",by decide +kernel,false,by decide +kernel⟩,by decide +kernel⟩,?_⟩
  exact missing.mpr (by decide +kernel)

end JobShell

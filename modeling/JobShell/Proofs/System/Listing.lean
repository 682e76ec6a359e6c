import JobShell.Proofs.System.KeptFile
import JobShell.Proofs.Text.Octets
import Mathlib.Data.List.Infix

/-!
# Directories list what is in them

A file that a path leads to, through links or not, is found by a name in a
directory, and the directory of the path lists that name (`Machine.lists`). This
holds in a file system where everything stands in a directory (`FileSystem.Rooted`),
from a current directory that can be gone to (`FileSystem.Passable`).
-/
namespace JobShell

namespace Text

theorem splitOn_ne_nil (c : Char) (t : Text) : splitOn c t ≠ [] := by
  fun_induction splitOn c t <;> simp

/-- Each occurrence of the separator ends a piece. -/
theorem splitOn_append (c : Char) (a b : Text) : splitOn c (a ++ c :: b) = splitOn c a ++ splitOn c b := by
  induction a with
  | nil => simp [splitOn]
  | cons x r ih =>
    rw [List.cons_append,splitOn,splitOn]
    split_ifs with separator
    · rw [ih,List.cons_append]
    · cases pieces : splitOn c r with
      | nil => exact absurd pieces (splitOn_ne_nil c r)
      | cons p ps => rw [ih,pieces,List.cons_append,List.cons_append]

theorem splitOn_of_not_mem {c : Char} {t : Text} (inside : c ∉ t) : splitOn c t = [t] := by
  induction t with
  | nil => rfl
  | cons x r ih =>
    rw [List.mem_cons,not_or] at inside
    rw [splitOn,if_neg (Ne.symm inside.1),ih inside.2]

/-- A character below 0x80 is among the bytes of a text when it is in the text. -/
theorem mem_octets {d : Char} (low : Low d) {t : Text} : d ∈ octets t ↔ d ∈ t := by
  induction t with
  | nil => simp [octets,Utf8.encode]
  | cons c r ih =>
    have split : octets (c :: r) = octets [c] ++ octets r := octets_append [c] r
    rw [split,List.mem_append,ih,List.mem_cons]
    refine or_congr_left ?_
    by_cases low' : Low c
    · rw [octets_low low',List.mem_singleton]
    · exact iff_of_false (fun mem => not_low_of_mem_octets low' mem low) (fun same => low' (same ▸ low))

end Text

namespace FileSystem

/-- Everything stands in a directory. Places with an empty name are left out, since no path leads there. -/
def Rooted (fs : FileSystem) : Prop := ∀ q ∈ fs.nodes, [] ∉ q.1 → fs.node? q.1.dropLast = some .directory

instance (fs : FileSystem) : Decidable fs.Rooted := inferInstanceAs (Decidable (∀ q ∈ fs.nodes, _ → _))

/-- Paths may lead to a place, and whatever is on the way there is a directory. -/
def Passable (fs : FileSystem) (here : Place) : Prop :=
  [] ∉ here ∧ ∀ p ∈ here.inits, ∀ n ∈ fs.node? p, n = .directory

instance (fs : FileSystem) (here : Place) : Decidable (fs.Passable here) := inferInstanceAs (Decidable (_ ∧ _))

theorem Passable.at {fs : FileSystem} {here : Place} (way : fs.Passable here) {n : Node}
    (found : fs.node? here = some n) : n = .directory :=
  way.2 here ((List.mem_inits here here).mpr (List.prefix_refl here)) n found

theorem Passable.of_prefix {fs : FileSystem} {p here : Place} (way : fs.Passable here) (start : p <+: here) :
    fs.Passable p := by
  refine ⟨fun empty => way.1 (start.subset empty),fun q before => ?_⟩
  exact way.2 q ((List.mem_inits q here).mpr (((List.mem_inits q p).mp before).trans start))

theorem Passable.root (fs : FileSystem) : fs.Passable [] := by
  refine ⟨List.not_mem_nil,fun p start n found => ?_⟩
  rw [List.inits,List.mem_singleton] at start
  subst start
  exact (Option.some.inj found).symm

theorem Passable.concat {fs : FileSystem} {here : Place} (way : fs.Passable here) {name : Raw} (nonempty : name ≠ [])
    (found : fs.node? (here ++ [name]) = some .directory) : fs.Passable (here ++ [name]) := by
  refine ⟨by simp [way.1,Ne.symm nonempty],fun p start n there => ?_⟩
  rcases List.prefix_concat_iff.mp ((List.mem_inits p _).mp start) with whole | before
  · rw [whole,found] at there
    exact (Option.some.inj there).symm
  · exact way.2 p ((List.mem_inits p here).mpr before) n there

/-- A way without names ends where it is, and there is nothing but directories on the way. -/
theorem Passable.ended {fs : FileSystem} {here : Place} (way : fs.Passable here) {making : Bool} {fuel links : Nat}
    {slash : Bool} {p : Place} {n : Node} (leads : fs.Leads making fuel links here [] slash (.found p n)) :
    n = .directory := by
  cases leads with
  | ended there => exact way.at there

/-- What is in use below a place is one of its names, and the place is that of a directory. -/
theorem Rooted.used {fs : FileSystem} (rooted : fs.Rooted) {p : Place} {name : Raw} (named : [] ∉ p ++ [name]) {n : Node}
    (found : fs.node? (p ++ [name]) = some n) : fs.node? p = some .directory ∧ name ∈ fs.names p := by
  rw [node?,if_neg (by simp)] at found
  obtain ⟨q,here,-⟩ := Option.map_eq_some_iff.mp found
  have mem := List.mem_of_find?_eq_some here
  have key : q.1 = p ++ [name] := by simpa using List.find?_some here
  refine ⟨?_,List.mem_filterMap.mpr ⟨q,mem,by simp [key]⟩⟩
  have parent := rooted q mem
  rw [key,List.dropLast_concat] at parent
  exact parent named

theorem nil_not_mem_steps (path : Raw) : [] ∉ steps path := by
  simp [steps]

/-- The last name is used in the directory that was come to. -/
theorem Rooted.last {fs : FileSystem} (rooted : fs.Rooted) {here : Place} (way : fs.Passable here) {name : Raw}
    (named : [] ∉ [name]) {n : Node} (there : fs.node? (here ++ [name]) = some n) (fuel links : Nat) :
    ∃ q, (∀ slash, fs.Leads false (fuel+1) links here [] slash (.found q .directory)) ∧ name ∈ fs.names q := by
  obtain ⟨parent,mem⟩ := rooted.used (by rw [List.mem_append,not_or]; exact ⟨way.1,named⟩) there
  exact ⟨here,fun _ => .ended parent,mem⟩

/-- A way to something else than a directory goes on from a directory by the name of something in it. -/
theorem Leads.before_last {fs : FileSystem} (rooted : fs.Rooted) {making : Bool} {fuel links : Nat} {here : Place}
    {path names : List Raw} {name : Raw} {slash : Bool} {p : Place} {n : Node} (way : fs.Passable here)
    (leads : fs.Leads making fuel links here path slash (.found p n)) (other : n ≠ .directory)
    (named : [] ∉ path) (split : path = names ++ [name]) :
    ∃ q, (∀ slash, fs.Leads false fuel links here names slash (.found q .directory)) ∧ name ∈ fs.names q := by
  generalize target : Target.found p n = t at leads
  induction leads generalizing names with
  | ended => simp at split
  | stay onward ih =>
    cases names with
    | nil =>
      cases split
      subst target
      exact absurd (way.ended onward) other
    | cons first rest' =>
      cases split
      obtain ⟨q,before,mem⟩ := ih way (fun mem => named (List.mem_cons_of_mem _ mem)) rfl target
      exact ⟨q,fun slash => .stay (before slash),mem⟩
  | @up fuel links here rest slash t onward ih =>
    have back := way.of_prefix (List.dropLast_prefix here)
    cases names with
    | nil =>
      cases split
      subst target
      exact absurd (back.ended onward) other
    | cons first rest' =>
      cases split
      obtain ⟨q,before,mem⟩ := ih back (fun mem => named (List.mem_cons_of_mem _ mem)) rfl target
      exact ⟨q,fun slash => .up (before slash),mem⟩
  | @link fuel links here first rest slash goal t looked there filled onward ih =>
    cases names with
    | nil =>
      cases split
      exact rooted.last way named there fuel (links+1)
    | cons first' rest' =>
      cases split
      have start : fs.Passable (if goal.head? = some '/' then [] else here) := by
        split_ifs
        · exact .root fs
        · exact way
      have further : [] ∉ steps goal ++ (rest' ++ [name]) := by
        rw [List.mem_append,not_or]
        exact ⟨nil_not_mem_steps goal,fun mem => named (List.mem_cons_of_mem _ mem)⟩
      obtain ⟨q,before,mem⟩ := ih start further (List.append_assoc _ _ _).symm target
      exact ⟨q,fun slash => .link (looked.reading rest' slash) there filled (before _),mem⟩
  | @inside fuel links here first rest slash t looked there onward ih =>
    cases names with
    | nil =>
      cases split
      exact rooted.last way named there fuel links
    | cons first' rest' =>
      cases split
      obtain ⟨nonempty,further⟩ := not_or.mp (List.mem_cons.not.mp named)
      obtain ⟨q,before,mem⟩ := ih (way.concat (Ne.symm nonempty) there) further rfl target
      exact ⟨q,fun slash => .inside (looked.reading rest' slash) there (before slash),mem⟩
  | @last fuel links here first n' looked there =>
    cases names with
    | nil =>
      cases split
      exact rooted.last way named there fuel links
    | cons first' rest' => simp at split
  | free => cases target

/-! ### The path of a name in a directory -/

theorem steps_append (a b : Raw) : steps (a ++ '/' :: b) = steps a ++ steps b := by
  rw [steps,Text.splitOn_append,List.filter_append]
  rfl

theorem steps_name {name : Raw} (nonempty : name ≠ []) (noSlash : '/' ∉ name) : steps name = [name] := by
  rw [steps,Text.splitOn_of_not_mem noSlash]
  simp [nonempty]

theorem ofText_append (a b : Text) : Raw.ofText (a ++ b) = Raw.ofText a ++ Raw.ofText b := Text.octets_append a b

theorem ofText_slash (a b : Text) : Raw.ofText (a ++ '/' :: b) = Raw.ofText a ++ '/' :: Raw.ofText b := by
  have slash : Raw.ofText ['/'] = ['/'] := Text.octets_low (by decide)
  rw [List.append_cons,ofText_append,ofText_append,slash,List.append_assoc,List.singleton_append]

theorem ofText_ne_nil {t : Text} (nonempty : t ≠ []) : Raw.ofText t ≠ [] := by
  intro empty
  have length : (Text.octets t).length = 0 := congrArg List.length empty
  rw [Text.length_octets] at length
  exact absurd length (Nat.ne_of_gt (Text.width_pos nonempty))

/-- The path of a name in a directory goes on from the directory by the name. -/
theorem inside_eq {d name : Text} (filled : d ≠ []) (nonempty : name ≠ []) (noSlash : '/' ∉ name) :
    ∃ rest, inside d name = d ++ rest ∧ steps (Raw.ofText (d ++ rest)) = steps (Raw.ofText d) ++ [Raw.ofText name] := by
  have last : steps (Raw.ofText name) = [Raw.ofText name] :=
    steps_name (ofText_ne_nil nonempty) (fun mem => noSlash ((Text.mem_octets (by decide)).mp mem))
  have relative : name.head? ≠ some '/' := fun start => noSlash (List.mem_of_mem_head? start)
  rw [inside,if_neg relative,if_neg (by simpa using filled)]
  split_ifs with slash
  · obtain ⟨front,rfl⟩ := List.getLast?_eq_some_iff.mp slash
    refine ⟨name,rfl,?_⟩
    rw [List.append_assoc,List.singleton_append,ofText_slash,ofText_slash,steps_append,steps_append,last]
    exact congrArg (· ++ _) (List.append_nil _).symm
  · refine ⟨'/' :: name,rfl,?_⟩
    rw [ofText_slash,steps_append,last]

/-- A path to something else than a directory, by a name in a directory, is a path to what the directory lists. -/
theorem find_inside {fs : FileSystem} (rooted : fs.Rooted) {here p : Place} (way : fs.Passable here) {d name : Text}
    (filled : d ≠ []) (nonempty : name ≠ []) (noSlash : '/' ∉ name) {n : Node}
    (found : fs.find here (Raw.ofText (inside d name)) = .ok (p,n)) (other : n ≠ .directory) :
    ∃ q, fs.find here (Raw.ofText d) = .ok (q,.directory) ∧ Raw.ofText name ∈ fs.names q := by
  obtain ⟨rest,path,names⟩ := inside_eq filled nonempty noSlash
  rw [path] at found
  have located : fs.locate false here (Raw.ofText (d ++ rest)) = .ok (.found p n) := by
    rw [find] at found
    split at found
    · cases found
    · cases found
      assumption
    · cases found
  obtain ⟨-,short,leads⟩ := locate_eq_ok_iff.mp located
  obtain ⟨b,bytes,split⟩ := List.exists_cons_of_ne_nil (ofText_ne_nil filled)
  have start : (Raw.ofText (d ++ rest)).head? = (Raw.ofText d).head? := by
    rw [ofText_append,split,List.cons_append,List.head?_cons,List.head?_cons]
  rw [start,names] at leads
  have passable : fs.Passable (if (Raw.ofText d).head? = some '/' then [] else here) := by
    split_ifs
    · exact .root fs
    · exact way
  obtain ⟨q,before,mem⟩ := leads.before_last rooted passable other (names ▸ nil_not_mem_steps _) rfl
  have directory : fs.locate false here (Raw.ofText d) = .ok (.found q .directory) := by
    refine locate_eq_ok_iff.mpr ⟨by rw [split]; rfl,?_,before _⟩
    rw [ofText_append,List.length_append] at short
    exact Nat.lt_of_le_of_lt (Nat.le_add_right _ _) short
  exact ⟨q,by rw [find,directory],mem⟩

end FileSystem

namespace Machine
open FileSystem

theorem kindOf_eq_ok_iff {m : Machine} {path : Text} {kind : FileKind} :
    Kernel.kindOf m path = .ok kind ↔
      path.contains '\x00' = false ∧ ∃ p n, m.files.find m.here (Raw.ofText path) = .ok (p,n) ∧ n.kind = kind := by
  simp only [Kernel.kindOf,rawPath,bind,Except.bind]
  cases nul : path.contains '\x00' with
  | true => simp
  | false =>
    cases leads : m.files.find m.here (Raw.ofText path) with
    | error e => simp [leads,lift]
    | ok target =>
      obtain ⟨p,n⟩ := target
      simp [leads,lift,pure,Except.pure]

/-- **Directories list their files.** What a path leads to by a name in a directory, other than a directory, has that
    name among those that are read from the directory. -/
theorem lists {m : Machine} (rooted : m.files.Rooted) (way : m.files.Passable m.here) {d name : Text} (filled : d ≠ [])
    (nonempty : name ≠ []) (noSlash : '/' ∉ name) {kind : FileKind}
    (found : Kernel.kindOf m (inside d name) = .ok kind) (other : kind ≠ .directory) :
    ∃ names, Kernel.namesIn m d = .ok names ∧ name ∈ names := by
  obtain ⟨rest,path,-⟩ := inside_eq filled nonempty noSlash
  obtain ⟨nul,p,n,leads,rfl⟩ := kindOf_eq_ok_iff.mp found
  have noNul : d.contains '\x00' = false := by
    rw [path,List.contains_eq_mem,decide_eq_false_iff_not,List.mem_append,not_or] at nul
    rw [List.contains_eq_mem,decide_eq_false_iff_not]
    exact nul.1
  have notDirectory : n ≠ .directory := by
    rintro rfl
    exact other rfl
  obtain ⟨q,directory,mem⟩ := find_inside rooted way filled nonempty noSlash leads notDirectory
  refine ⟨(m.files.names q).filterMap Raw.toText?,?_,List.mem_filterMap.mpr ⟨_,mem,?_⟩⟩
  · simp only [Kernel.namesIn,rawPath,noNul,Bool.false_eq_true,if_false,bind,Except.bind,directory,lift]
    rfl
  · rw [Raw.toText?,Raw.ofText,Raw.toBytes_ofBytes,Utf8.decode?_encode]

end Machine
end JobShell

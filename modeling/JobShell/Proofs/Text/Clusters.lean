import JobShell.Proofs.Text.Segments
import JobShell.Text.Cluster
import Mathlib.Tactic.SplitIfs

/-!
# Where clusters end

A text is cut into clusters from the left, and the memory of a whole text may
decide whether a cluster ends inside it. At a place where a cluster does end
nothing is remembered (`Memory.next_eq_start`): the text goes on from there as if
it began. So the clusters of two texts together are those of the first and those
of the second when the first one ends a cluster in front of the second (`Breaks`),
and the rules of Unicode make a lawful segmentation (`Cluster.lawful`).
-/
namespace JobShell

namespace ClusterClass

/-- Characters that are clusters of their own, apart from a carriage return with its line feed. -/
def isControl (k : ClusterClass) : Bool := k == .carriageReturn || k == .lineFeed || k == .control

/-- Characters that belong to the one before them. -/
def isMark (k : ClusterClass) : Bool := k == .extend || k == .joiner || k == .spacingMark

theorem isControl_of_isMark {k : ClusterClass} (mark : k.isMark = true) : k.isControl = false := by
  cases k <;> first | rfl | cases mark

end ClusterClass

namespace Cluster
open ClusterClass (isControl isMark isControl_of_isMark)

theorem isMark_of_isLinker {c : Char} (linker : isLinker c = true) : isMark (classOf c) = true := by
  have marks : ∀ p ∈ ClusterTable.linker, p.1 = p.2 ∧ isMark (classOfCode p.1) = true := by decide +kernel
  simp only [isLinker,Letter.inRanges,Bool.and_eq_true,List.any_eq_true,decide_eq_true_eq] at linker
  obtain ⟨_,p,mem,low,high⟩ := linker
  obtain ⟨one,mark⟩ := marks p mem
  have same : c.toNat = p.1 := by omega
  rwa [classOf,same]

theorem isMark_of_isConjunctExtend {c : Char} (inside : isConjunctExtend c = true) : isMark (classOf c) = true := by
  simp only [isConjunctExtend,Bool.and_eq_true,Bool.or_eq_true,beq_iff_eq] at inside
  obtain ⟨⟨extend | joiner,_⟩,_⟩ := inside
  · rw [extend]; rfl
  · rw [joiner]; rfl

/-! ### What is remembered -/

namespace Memory

/-- What the parts of a memory tell of its last character. -/
structure Sound (m : Memory) : Prop where
  regional : m.oddRegional = true → m.last = .regional
  picture : m.picture ≠ .none → m.last.isControl = false
  conjunct : m.conjunct ≠ .none → m.last.isControl = false

theorem sound_start (c : Char) : (start c).Sound where
  regional odd := by simpa [start] using odd
  picture some := by
    have picture : classOf c = .pictograph := by simpa [start] using some
    simp [start,picture,isControl]
  conjunct some := by
    have consonant : classOf c = .consonant := by simpa [start] using some
    simp [start,consonant,isControl]

theorem sound_next (m : Memory) (c : Char) : (m.next c).Sound where
  regional odd := by
    simp only [next,Bool.and_eq_true,beq_iff_eq] at odd
    exact odd.1
  picture some := by
    have visible : isControl (classOf c) = false := by
      cases kind : classOf c <;> first | rfl | (cases chain : m.picture <;> simp [next,kind,chain] at some)
    exact visible
  conjunct some := by
    have visible : isControl (classOf c) = false := by
      by_cases consonant : classOf c = .consonant
      · rw [consonant]; rfl
      by_cases linker : isLinker c = true
      · exact isControl_of_isMark (isMark_of_isLinker linker)
      by_cases inside : isConjunctExtend c = true
      · exact isControl_of_isMark (isMark_of_isConjunctExtend inside)
      cases chain : m.conjunct <;> simp [next,consonant,linker,inside,chain] at some
    exact visible

end Memory

/-- A mark belongs to the character before it. -/
theorem breaksBefore_mark {m : Memory} {c : Char} (visible : m.last.isControl = false)
    (mark : isMark (classOf c) = true) : breaksBefore m c = false := by
  have kinds : classOf c = .extend ∨ classOf c = .joiner ∨ classOf c = .spacingMark := by
    simpa [isMark,or_assoc] using mark
  rw [breaksBefore]
  rcases kinds with kind | kind | kind <;> rw [kind] <;> cases last : m.last <;> simp [last,isControl] at visible ⊢

/-- **A break forgets.** After a break the memory is that of a text that begins. -/
theorem Memory.next_eq_start {m : Memory} (sound : m.Sound) {c : Char} (breaks : breaksBefore m c = true) :
    m.next c = .start c := by
  have unmarked : m.last.isControl = false → isMark (classOf c) = false := by
    intro visible
    cases mark : isMark (classOf c) with
    | false => rfl
    | true => rw [breaksBefore_mark visible mark] at breaks; cases breaks
  have odd : (classOf c == .regional && !m.oddRegional) = (classOf c == .regional) := by
    cases odd : m.oddRegional with
    | false => simp
    | true =>
      have other : classOf c ≠ .regional := by
        intro regional
        rw [breaksBefore,sound.regional odd,regional] at breaks
        simp [odd] at breaks
      simp [other]
  have picture : (m.next c).picture = (start c).picture := by
    by_cases pictograph : classOf c = .pictograph
    · simp [next,start,pictograph]
    cases chain : m.picture with
    | none => simp [next,start,pictograph,chain]
    | linked => simp [next,start,pictograph,chain]
    | started =>
      have unmarked := unmarked (sound.picture (by rw [chain]; decide))
      have noExtend : classOf c ≠ .extend := by rintro same; rw [same] at unmarked; cases unmarked
      have noJoiner : classOf c ≠ .joiner := by rintro same; rw [same] at unmarked; cases unmarked
      simp [next,start,pictograph,chain,noExtend,noJoiner]
  have conjunct : (m.next c).conjunct = (start c).conjunct := by
    by_cases consonant : classOf c = .consonant
    · simp [next,start,consonant]
    by_cases none : m.conjunct = .none
    · simp [next,start,consonant,none]
    have unmarked := unmarked (sound.conjunct none)
    have noLinker : isLinker c ≠ true := fun linker => by rw [isMark_of_isLinker linker] at unmarked; cases unmarked
    have outside : isConjunctExtend c ≠ true :=
      fun inside => by rw [isMark_of_isConjunctExtend inside] at unmarked; cases unmarked
    cases chain : m.conjunct <;> simp [next,start,consonant,chain,noLinker,outside]
  rw [next,start,Memory.mk.injEq]
  exact ⟨rfl,odd,picture,conjunct⟩

/-- The memory after more characters. -/
def Memory.after (m : Memory) (t : Text) : Memory := t.foldl Memory.next m

/-- The memory after a text; none after the empty one. -/
def memory? : Text → Option Memory
  | [] => none
  | c :: r => some ((Memory.start c).after r)

/-! ### Texts that do not join -/

/-- The first text ends a cluster in front of the second. -/
def Breaks (a b : Text) : Prop := ∀ m ∈ memory? a, ∀ c ∈ b.head?, breaksBefore m c = true

theorem breaks_nil_left (b : Text) : Breaks [] b := by simp [Breaks,memory?]

theorem breaks_nil_right (a : Text) : Breaks a [] := by simp [Breaks]

theorem breaks_cons {c d : Char} {a b : Text} :
    Breaks (c :: a) (d :: b) ↔ breaksBefore ((Memory.start c).after a) d = true := by
  simp [Breaks,memory?]

instance decidableBreaks : ∀ a b, Decidable (Breaks a b)
  | [],b => isTrue (breaks_nil_left b)
  | c :: a,[] => isTrue (breaks_nil_right (c :: a))
  | _ :: _,_ :: _ => decidable_of_iff _ breaks_cons.symm

/-! ### The clusters of a text -/

theorem flatten_clustersAfter (m : Memory) (current t : Text) :
    (clustersAfter m current t).flatten = current.reverse ++ t := by
  induction t generalizing m current with
  | nil => simp [clustersAfter]
  | cons c r ih =>
    rw [clustersAfter]
    split_ifs with breaks
    · rw [List.flatten_cons,ih,List.reverse_singleton,List.singleton_append]
    · rw [ih,List.reverse_cons,List.append_assoc,List.singleton_append]

theorem flatten_clusters (t : Text) : (clusters t).flatten = t := by
  cases t with
  | nil => rfl
  | cons c r => exact flatten_clustersAfter _ _ _

theorem ne_nil_of_mem_clustersAfter {m : Memory} {current t g : Text} (begun : current ≠ [])
    (mem : g ∈ clustersAfter m current t) : g ≠ [] := by
  induction t generalizing m current with
  | nil =>
    obtain rfl : g = current.reverse := by simpa [clustersAfter] using mem
    simpa using begun
  | cons c r ih =>
    rw [clustersAfter] at mem
    split_ifs at mem with breaks
    · rcases List.mem_cons.mp mem with rfl | later
      · simpa using begun
      · exact ih (List.cons_ne_nil c []) later
    · exact ih (List.cons_ne_nil c current) mem

theorem ne_nil_of_mem_clusters {t g : Text} (mem : g ∈ clusters t) : g ≠ [] := by
  cases t with
  | nil => cases mem
  | cons c r => exact ne_nil_of_mem_clustersAfter (List.cons_ne_nil c []) mem

theorem clustersAfter_append {m : Memory} (sound : m.Sound) (current a : Text) {c : Char} {b : Text}
    (breaks : breaksBefore (m.after a) c = true) :
    clustersAfter m current (a ++ c :: b) = clustersAfter m current a ++ clusters (c :: b) := by
  induction a generalizing m current with
  | nil =>
    rw [Memory.after,List.foldl_nil] at breaks
    rw [List.nil_append,clustersAfter,clustersAfter,if_pos breaks,Memory.next_eq_start sound breaks]
    rfl
  | cons d r ih =>
    have later := fun current => ih (Memory.sound_next m d) current breaks
    rw [List.cons_append,clustersAfter,clustersAfter]
    split_ifs
    · rw [later,List.cons_append]
    · exact later _

/-- The clusters of two texts that do not join are those of each. -/
theorem clusters_append {a b : Text} (breaks : Breaks a b) : clusters (a ++ b) = clusters a ++ clusters b := by
  cases a with
  | nil => rfl
  | cons c r =>
    cases b with
    | nil => rw [List.append_nil,clusters,clusters,List.append_nil]
    | cons d s => exact clustersAfter_append (Memory.sound_start c) [c] r (breaks_cons.mp breaks)

theorem exists_break_after (m : Memory) (current t : Text) (n : Nat) :
    ∃ x y, t = x ++ y ∧ ((clustersAfter m current t).take (n+1)).flatten = current.reverse ++ x ∧
      ∀ c ∈ y.head?, breaksBefore (m.after x) c = true := by
  induction t generalizing m current n with
  | nil => exact ⟨[],[],rfl,by simp [clustersAfter],by simp⟩
  | cons d r ih =>
    rw [clustersAfter]
    split_ifs with breaks
    · cases n with
      | zero => exact ⟨[],d :: r,rfl,by simp,by simpa [Memory.after] using breaks⟩
      | succ n =>
        obtain ⟨x,y,rfl,front,ends⟩ := ih (m.next d) [d] n
        exact ⟨d :: x,y,rfl,by rw [List.take_succ_cons,List.flatten_cons,front]; rfl,ends⟩
    · obtain ⟨x,y,rfl,front,ends⟩ := ih (m.next d) (d :: current) n
      exact ⟨d :: x,y,rfl,by rw [front]; simp,ends⟩

/-- Between two clusters of a text its parts do not join. -/
theorem breaks_take_clusters (t : Text) (n : Nat) :
    ∃ x y, t = x ++ y ∧ ((clusters t).take n).flatten = x ∧ Breaks x y := by
  cases n with
  | zero => exact ⟨[],t,rfl,rfl,breaks_nil_left t⟩
  | succ n =>
    cases t with
    | nil => exact ⟨[],[],rfl,rfl,breaks_nil_left []⟩
    | cons c r =>
      obtain ⟨x,y,rfl,front,ends⟩ := exists_break_after (.start c) [c] r n
      refine ⟨c :: x,y,rfl,front,fun m memory d begins => ?_⟩
      cases memory
      exact ends d begins

/-- What is added to a text changes no cluster but the last. -/
theorem clustersAfter_prefix (m : Memory) (current t more : Text) :
    (clustersAfter m current t).dropLast <+: clustersAfter m current (t ++ more) := by
  induction t generalizing m current with
  | nil => exact List.nil_prefix
  | cons c r ih =>
    rw [List.cons_append,clustersAfter,clustersAfter]
    split_ifs with breaks
    · have later : clustersAfter (m.next c) [c] r ≠ [] := by
        intro none
        have whole := flatten_clustersAfter (m.next c) [c] r
        rw [none] at whole
        cases whole
      rw [List.dropLast_cons_of_ne_nil later]
      exact List.prefix_cons_inj _ |>.mpr (ih _ _)
    · exact ih _ _

/-- The clusters of Unicode are those of a lawful segmentation. -/
instance lawful : Segmentation.Lawful where
  flatten_clusters := flatten_clusters
  ne_nil_of_mem_clusters := ne_nil_of_mem_clusters
  lastCluster?_split {t g n} last := by
    obtain ⟨_,found,same⟩ := Option.map_eq_some_iff.mp last
    cases same
    have whole := flatten_clusters t
    obtain ⟨front,pieces⟩ := List.getLast?_eq_some_iff.mp found
    rw [pieces,List.flatten_append,List.flatten_singleton] at whole
    refine ⟨ne_nil_of_mem_clusters (t := t) (by simp [pieces]),front.flatten,whole.symm,?_⟩
    rw [← whole,Text.width_append,Nat.add_sub_cancel]
  lastCluster?_eq t := by
    show ((clusters t).getLast?.map fun g => (Text.width t - Text.width g,g)).map Prod.snd = (clusters t).getLast?
    rw [Option.map_map]
    exact Option.map_id'
  clusters_cut t n := by
    obtain ⟨x,y,split,front,breaks⟩ := breaks_take_clusters t n
    have whole := flatten_clusters t
    rw [← List.take_append_drop n (clusters t),List.flatten_append,front] at whole
    have rest : ((clusters t).drop n).flatten = y := List.append_cancel_left (whole.trans split)
    show clusters t = clusters ((clusters t).take n).flatten ++ clusters ((clusters t).drop n).flatten
    rw [front,rest,← clusters_append breaks,← split]
  clusters_prefix t more := by
    cases t with
    | nil => exact List.nil_prefix
    | cons c r => exact clustersAfter_prefix (.start c) [c] r more

end Cluster
end JobShell

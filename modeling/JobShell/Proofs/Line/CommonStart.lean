import JobShell.Line.Completion
import JobShell.Proofs.Text.Encoding
import JobShell.Proofs.Text.Places
import Mathlib.Order.MinMax

/-!
# The common start by bytes

What candidates have in common is found by comparing bytes: those of the first
candidate are counted as far as all others have them, and the count goes back to
a boundary of the first candidate. Two characters that differ may share their
first bytes, but never all bytes of one of them. So what is left is the common
start by characters (`Completion.commonStart?_eq`), the greatest text that all
candidates begin with (`Completion.commonStart_greatest`).
-/
namespace JobShell

namespace Utf8

/-- The bytes of a character begin no text that begins with another one. -/
theorem eq_of_encodeChar_start {c d : Char} {t : Text} (start : encodeChar c <+: encode (d :: t)) : c = d := by
  obtain ⟨rest,whole⟩ := start
  obtain ⟨b,more,bytes,first⟩ := head_encodeChar c rest
  obtain ⟨b',more',bytes',first'⟩ := head_encodeChar d (encode t)
  rw [encode_cons,bytes,bytes',List.cons_append,List.cons_append] at whole
  obtain ⟨rfl,same⟩ := List.cons.inj whole
  rw [same,first'] at first
  cases first
  rfl

/-- A text begins another one when its bytes begin those of the other. -/
theorem encode_prefix_iff {a b : Text} : encode a <+: encode b ↔ a <+: b := by
  constructor
  · intro start
    induction a generalizing b with
    | nil => exact List.nil_prefix
    | cons c r ih =>
      rw [encode_cons] at start
      cases b with
      | nil =>
        obtain ⟨x,more,bytes,-⟩ := head_encodeChar c []
        rw [bytes] at start
        exact absurd (List.prefix_nil.mp start) (List.cons_ne_nil _ _)
      | cons d s =>
        obtain rfl := eq_of_encodeChar_start ((List.prefix_append _ _).trans start)
        rw [encode_cons,List.prefix_append_right_inj] at start
        exact List.cons_prefix_cons.mpr ⟨rfl,ih start⟩
  · rintro ⟨rest,rfl⟩
    rw [encode_append]
    exact List.prefix_append _ _

end Utf8

namespace Completion

/-- How many of the first bytes two texts share, looking at `n` of them at most. -/
def sharedBytes (a b : Text) (n : Nat) : Nat :=
  ((((Utf8.encode a).zip (Utf8.encode b)).take n).takeWhile (fun p => p.1 == p.2)).length

/-- The last byte position up to `n` that is on a boundary of a text. -/
def backOff (t : Text) : Nat → Nat
  | 0 => 0
  | n+1 => if (Text.cut? (n+1) t).isSome then n+1 else backOff t n

/-- The common start of texts, found by comparing their bytes. -/
def commonStart? : List Text → Option Text
  | [] => some []
  | first :: rest =>
    (Text.cut? (backOff first (rest.foldl (fun n t => sharedBytes first t n) (Text.width first))) first).map Prod.fst

/-! ### Bytes that are shared -/

/-- How many elements two lists share from the front. -/
def shared {α : Type} [BEq α] (a b : List α) : Nat := ((a.zip b).takeWhile (fun p => p.1 == p.2)).length

theorem sharedBytes_eq (a b : Text) (n : Nat) : sharedBytes a b n = min n (shared (Utf8.encode a) (Utf8.encode b)) := by
  rw [sharedBytes,← List.take_takeWhile,List.length_take,shared]

theorem shared_append {α : Type} [BEq α] [LawfulBEq α] (w a b : List α) :
    shared (w ++ a) (w ++ b) = w.length + shared a b := by
  induction w with
  | nil => simp
  | cons x r ih =>
    rw [shared] at ih
    simp [shared,ih]
    omega

theorem prefix_of_le_shared {α : Type} [BEq α] [LawfulBEq α] {w a b : List α} (all : w.length ≤ shared (w ++ a) b) :
    w <+: b := by
  induction w generalizing b with
  | nil => exact List.nil_prefix
  | cons x r ih =>
    cases b with
    | nil => simp [shared] at all
    | cons y s =>
      by_cases same : x = y
      · subst same
        have rest : r.length ≤ shared (r ++ a) s := by simpa [shared] using all
        exact (List.cons_prefix_cons).mpr ⟨rfl,ih rest⟩
      · simp [shared,same] at all

/-! ### Back to a boundary -/

theorem cut?_isSome_cons (c : Char) (t : Text) (n : Nat) :
    (Text.cut? (n+1) (c :: t)).isSome = (decide (c.utf8Size ≤ n+1) && (Text.cut? (n+1-c.utf8Size) t).isSome) := by
  rw [Text.cut?]
  split <;> simp_all

theorem backOff_cons (c : Char) (t : Text) (k : Nat) :
    backOff (c :: t) (c.utf8Size + k) = c.utf8Size + backOff t k := by
  have positive := c.utf8Size_pos
  induction k with
  | zero =>
    obtain ⟨n,size⟩ : ∃ n, c.utf8Size = n+1 := ⟨c.utf8Size-1,by omega⟩
    have here : (Text.cut? (n+1) (c :: t)).isSome = true := by
      rw [cut?_isSome_cons]
      simp [size,Text.cut?]
    rw [Nat.add_zero,size]
    exact if_pos here
  | succ k ih =>
    have here : (Text.cut? (c.utf8Size + k + 1) (c :: t)).isSome = (Text.cut? (k+1) t).isSome := by
      rw [cut?_isSome_cons,decide_eq_true (by omega),Bool.true_and]
      congr 2
      omega
    rw [← Nat.add_assoc,backOff,here,backOff]
    split_ifs
    · omega
    · exact ih

/-- Inside the first character there is no boundary. -/
theorem backOff_of_lt {c : Char} {t : Text} {k : Nat} (inside : k < c.utf8Size) : backOff (c :: t) k = 0 := by
  induction k with
  | zero => rfl
  | succ k ih =>
    have here : (Text.cut? (k+1) (c :: t)).isSome = false := by
      rw [cut?_isSome_cons,decide_eq_false (by omega),Bool.false_and]
    rw [backOff,here]
    exact ih (by omega)

theorem backOff_le (t : Text) (n : Nat) : backOff t n ≤ n := by
  induction n with
  | zero => exact Nat.le_refl 0
  | succ n ih =>
    rw [backOff]
    split_ifs <;> omega

theorem backOff_mono (t : Text) : Monotone (backOff t) := by
  apply monotone_nat_of_le_succ
  intro n
  rw [backOff]
  split_ifs
  · exact Nat.le_succ_of_le (backOff_le t n)
  · exact Nat.le_refl _

/-- The end of a part is a boundary. -/
theorem backOff_width (a b : Text) : backOff (a ++ b) (Text.width a) = Text.width a := by
  induction a with
  | nil => rfl
  | cons c r ih => rw [List.cons_append,Text.width_cons,backOff_cons,ih]

/-! ### The common start -/

/-- The bytes that two texts share are those of their common start, and perhaps some of the character after it. -/
theorem backOff_shared (a b : Text) :
    backOff a (shared (Utf8.encode a) (Utf8.encode b)) = Text.width (common a b) := by
  induction a generalizing b with
  | nil => rfl
  | cons c r ih =>
    cases b with
    | nil =>
      have none : shared (Utf8.encode (c :: r)) (Utf8.encode []) = 0 := by simp [shared,Utf8.encode]
      rw [none]
      rfl
    | cons d s =>
      rw [common]
      by_cases same : c = d
      · rw [if_pos same,same,Utf8.encode_cons,Utf8.encode_cons,shared_append,Utf8.length_encodeChar,backOff_cons,ih,
          Text.width_cons]
      · have less : shared (Utf8.encode (c :: r)) (Utf8.encode (d :: s)) < c.utf8Size := by
          by_contra all
          rw [← Utf8.length_encodeChar,Nat.not_lt,Utf8.encode_cons c r] at all
          exact same (Utf8.eq_of_encodeChar_start (prefix_of_le_shared all))
        rw [if_neg same,backOff_of_lt less]
        rfl

theorem common_start (a b : Text) : common a b <+: a := by
  induction a generalizing b with
  | nil => exact List.nil_prefix
  | cons c r ih =>
    cases b with
    | nil => exact List.nil_prefix
    | cons d s =>
      rw [common]
      split_ifs
      · exact List.cons_prefix_cons.mpr ⟨rfl,ih s⟩
      · exact List.nil_prefix

/-- The common start is the longest of all common starts. -/
theorem prefix_common_iff {p a b : Text} : p <+: common a b ↔ p <+: a ∧ p <+: b := by
  induction p generalizing a b with
  | nil => simp
  | cons x p ih =>
    cases a with
    | nil => simp [common]
    | cons c r =>
      cases b with
      | nil => simp [common]
      | cons d s =>
        rw [common]
        split_ifs with same
        · subst same
          simp only [List.cons_prefix_cons,ih]
          tauto
        · simp only [List.prefix_nil,List.cons_prefix_cons]
          refine iff_of_false (by simp) ?_
          rintro ⟨⟨rfl,-⟩,rfl,-⟩
          exact same rfl

theorem prefix_commonStart_iff {p : Text} {l : List Text} (nonempty : l ≠ []) :
    p <+: commonStart l ↔ ∀ t ∈ l, p <+: t := by
  have fold : ∀ (r : List Text) (s : Text), p <+: r.foldl common s ↔ p <+: s ∧ ∀ t ∈ r, p <+: t := by
    intro r
    induction r with
    | nil => simp
    | cons t r ih =>
      intro s
      rw [List.foldl_cons,ih,prefix_common_iff,List.forall_mem_cons,and_assoc]
  cases l with
  | nil => exact absurd rfl nonempty
  | cons s r => rw [commonStart,fold,List.forall_mem_cons]

/-- What a part of a text has in common with another text is no more than the part, and than what the whole has. -/
theorem width_common_append (a b t : Text) :
    Text.width (common a t) = min (Text.width a) (Text.width (common (a ++ b) t)) := by
  induction a generalizing t with
  | nil => simp [common]
  | cons c r ih =>
    cases t with
    | nil => simp [common]
    | cons d s =>
      rw [List.cons_append,common,common]
      split_ifs
      · rw [Text.width_cons,Text.width_cons,Text.width_cons,ih]
        omega
      · simp

/-- The count of shared bytes goes along with the common start. -/
theorem backOff_foldl {first x : Text} {n : Nat} (start : x <+: first) (count : backOff first n = Text.width x)
    (rest : List Text) :
    rest.foldl common x <+: first ∧
      backOff first (rest.foldl (fun n t => sharedBytes first t n) n) = Text.width (rest.foldl common x) := by
  induction rest generalizing x n with
  | nil => exact ⟨start,count⟩
  | cons t r ih =>
    apply ih ((common_start x t).trans start)
    obtain ⟨y,rfl⟩ := start
    show backOff (x ++ y) (sharedBytes (x ++ y) t n) = _
    rw [sharedBytes_eq,(backOff_mono _).map_min,count,backOff_shared]
    exact (width_common_append x y t).symm

/-- **The common start by bytes** is the one by characters, and is found on a boundary of the first text. -/
theorem commonStart?_eq (l : List Text) : commonStart? l = some (commonStart l) := by
  cases l with
  | nil => rfl
  | cons first rest =>
    have whole : backOff first (Text.width first) = Text.width first := by
      have ended := backOff_width first []
      rwa [List.append_nil] at ended
    obtain ⟨start,count⟩ := backOff_foldl (List.prefix_refl first) whole rest
    obtain ⟨tail,cut⟩ := Text.exists_cut?_of_prefix start
    rw [commonStart?,count,cut]
    rfl

/-! ### The greatest common start -/

/-- A text that texts begin with, and that begins with every text whose bytes they begin with. -/
structure IsGreatestStart (p : Text) (l : List Text) : Prop where
  begins : ∀ t ∈ l, p <+: t
  greatest : ∀ q, (∀ t ∈ l, Utf8.encode q <+: Utf8.encode t) → q <+: p

/-- There is one greatest common start at most. -/
theorem IsGreatestStart.unique {p q : Text} {l : List Text} (left : IsGreatestStart p l) (right : IsGreatestStart q l) :
    p = q := by
  have below : p <+: q := right.greatest p fun t mem => Utf8.encode_prefix_iff.mpr (left.begins t mem)
  have above : q <+: p := left.greatest q fun t mem => Utf8.encode_prefix_iff.mpr (right.begins t mem)
  exact below.eq_of_length_le above.length_le

theorem IsGreatestStart.perm {p : Text} {l m : List Text} (same : m.Perm l) (start : IsGreatestStart p l) :
    IsGreatestStart p m :=
  ⟨fun t mem => start.begins t (same.mem_iff.mp mem),
    fun _ all => start.greatest _ fun t mem => all t (same.mem_iff.mpr mem)⟩

theorem isGreatestStart_commonStart {l : List Text} (nonempty : l ≠ []) : IsGreatestStart (commonStart l) l where
  begins := (prefix_commonStart_iff nonempty).mp (List.prefix_refl _)
  greatest _ all := (prefix_commonStart_iff nonempty).mpr fun t mem => Utf8.encode_prefix_iff.mp (all t mem)

/-- In whatever order the texts stand, their common start is the same. -/
theorem commonStart_perm {l m : List Text} (same : m.Perm l) : commonStart m = commonStart l := by
  cases l with
  | nil => rw [same.eq_nil]
  | cons first rest =>
    have nonempty : m ≠ [] := fun none => List.cons_ne_nil first rest (same.symm.trans (none ▸ .refl _)).eq_nil
    exact (isGreatestStart_commonStart nonempty).unique ((isGreatestStart_commonStart (List.cons_ne_nil _ _)).perm same)

/-- **The common start is the greatest.** Comparing bytes and going back to a boundary of the first text always gives
    a text, the one that is found by characters. It ends on a boundary of the first text, all texts begin with it, it
    begins with every text that all begin with, and the order of the texts does not matter. Without texts it is empty. -/
theorem commonStart_greatest (l : List Text) :
    ∃ p, commonStart? l = some p ∧ commonStart l = p ∧ (l = [] → p = []) ∧
      (∀ first ∈ l.head?, ∃ tail, Text.cut? (Text.width p) first = some (p,tail)) ∧
      (l ≠ [] → IsGreatestStart p l) ∧
      ∀ m, m.Perm l → commonStart? m = some p ∧ commonStart m = p := by
  refine ⟨commonStart l,commonStart?_eq l,rfl,?empty,?boundary,isGreatestStart_commonStart,?reordered⟩
  case empty =>
    rintro rfl
    rfl
  case boundary =>
    intro first head
    have mem : first ∈ l := List.mem_of_head? head
    exact Text.exists_cut?_of_prefix ((isGreatestStart_commonStart (List.ne_nil_of_mem mem)).begins first mem)
  case reordered =>
    intro m same
    have start := commonStart_perm same
    exact ⟨(commonStart?_eq m).trans (congrArg some start),start⟩

/-- Accented letters that differ share their first byte, which is no part of the common start. -/
theorem commonStart_greatest_accents :
    let l := [txt "café",txt "cafè",txt "cafés"]
    sharedBytes (txt "café") (txt "cafè") 5 = 4 ∧ l ≠ [] ∧ commonStart? l = some (txt "caf") ∧
      IsGreatestStart (txt "caf") l ∧ commonStart? [txt "cafés",txt "café",txt "cafè"] = some (txt "caf") := by
  intro l
  have nonempty : l ≠ [] := List.cons_ne_nil _ _
  have turned : [txt "cafés",txt "café",txt "cafè"].Perm l := by decide
  have short : commonStart l = txt "caf" := by decide
  obtain ⟨p,bytes,characters,-,-,greatest,order⟩ := commonStart_greatest l
  obtain rfl : p = txt "caf" := characters.symm.trans short
  exact ⟨by decide,nonempty,bytes,greatest nonempty,(order _ turned).1⟩

end Completion
end JobShell

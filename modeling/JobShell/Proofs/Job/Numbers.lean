import JobShell.Proofs.Job.Notices
import JobShell.Proofs.Text.Numerals
import Mathlib.Data.List.Nodup
import Mathlib.Data.List.Perm.Subperm
import Mathlib.Order.Bounds.Defs

/-!
# The numbers of jobs

A job that comes is given the least number that no job of the table has, and
keeps it as long as it is there. So the numbers of a table are always different,
and an argument that names a job by its number finds the job that was given it
(`JobTable.numbers_kept`). The lines of a listing come in another order, that in
which the jobs came: a number that is given again belongs to a later job
(`JobTable.lines_by_arrival`).
-/
namespace JobShell
namespace JobTable

/-- The numbers of the jobs of a table, in its order. -/
def ids (t : JobTable) : List Nat := t.map (·.id)

/-! ### The least free number -/

theorem any_id_iff (t : JobTable) (n : Nat) : t.any (·.id == n) = true ↔ n ∈ t.ids := by
  simp [ids]

/-- A search through at most `fuel` numbers passes over those that are taken, and ends at one that is free unless all are
    taken. -/
theorem freeFrom_spec (t : JobTable) (n fuel : Nat) :
    n ≤ t.freeFrom n fuel ∧ t.freeFrom n fuel ≤ n + fuel ∧ (∀ k, n ≤ k → k < t.freeFrom n fuel → k ∈ t.ids) ∧
      (t.freeFrom n fuel ∈ t.ids → t.freeFrom n fuel = n + fuel) := by
  induction fuel generalizing n with
  | zero =>
    refine ⟨Nat.le_refl n,Nat.le_refl n,?_,fun _ => rfl⟩
    intro k low high
    exact absurd (Nat.lt_of_le_of_lt low high) (Nat.lt_irrefl n)
  | succ fuel ih =>
    rw [freeFrom]
    by_cases taken : t.any (·.id == n) = true
    · rw [if_pos taken]
      obtain ⟨low,high,passed,free⟩ := ih (n+1)
      refine ⟨by omega,by omega,?_,fun held => by have := free held; omega⟩
      intro k first last
      by_cases same : k = n
      · rw [same]
        exact (any_id_iff t n).mp taken
      · exact passed k (by omega) last
    · rw [if_neg taken]
      refine ⟨Nat.le_refl n,by omega,?_,fun held => absurd ((any_id_iff t n).mpr held) taken⟩
      intro k low high
      omega

/-- **The least free number.** A table of `n` jobs leaves one of the numbers from 1 to `n+1` free, and the least one is
    given. -/
theorem isLeast_freeId (t : JobTable) :
    IsLeast {n | 1 ≤ n ∧ n ∉ t.ids} t.freeId ∧ t.freeId ≤ t.length + 1 := by
  obtain ⟨positive,bound,passed,last⟩ := freeFrom_spec t 1 t.length
  -- were the last number looked at taken, `n+1` different numbers would be those of `n` jobs
  have free : t.freeId ∉ t.ids := by
    intro held
    have whole : t.freeId = 1 + t.length := last held
    have taken : List.range' 1 (t.length+1) ⊆ t.ids := by
      intro k mem
      obtain ⟨low,high⟩ := List.mem_range'_1.mp mem
      by_cases same : k = t.freeId
      · rw [same]
        exact held
      · have below : k < t.freeId := by omega
        exact passed k low below
    have fewer := ((List.nodup_range' (s := 1) (n := t.length+1)).subperm taken).length_le
    rw [List.length_range',ids,List.length_map] at fewer
    omega
  refine ⟨⟨⟨positive,free⟩,?_⟩,by unfold freeId; omega⟩
  rintro k ⟨low,unused⟩
  by_contra less
  exact unused (passed k low (by unfold freeId at less; omega))

/-! ### The jobs that come, and those that stay -/

/-- What is done with a table: an operation, the adoption of a job that may have been told before, or a removal. -/
inductive Action where
  | operate (op : Operation)
  | adopt (j : Job)
  | remove (id : Nat)

/-- What an action prints, and the table after it. -/
def Action.perform (t : JobTable) : Action → Text × JobTable
  | .operate op => op.perform t
  | .adopt j => ([],(t.adopt j).1)
  | .remove id => ([],t.remove id)

/-- The table after actions. -/
def actAll (t : JobTable) (actions : List Action) : JobTable := actions.foldl (fun t a => (a.perform t).2) t

/-- The job that comes with an action. -/
def Action.comes? : Action → Option Job
  | .operate (.insert group command pids) => some (.start group command pids)
  | .operate (.adopt j _) => some j
  | .adopt j => some j
  | _ => none

/-- The number that an action gives to the job that comes with it. -/
def Action.number? (t : JobTable) (a : Action) : Option Nat := a.comes?.map (fun j => (t.adopt j).2)

namespace Ledger

/-- An action on a table with numbered jobs. -/
def act (l : Ledger) : Action → Ledger
  | .operate op => l.perform op
  | .adopt j => l.add j
  | .remove id => { l with jobs := l.jobs.eraseP (·.2.id == id) }

/-- What came as the how many-th job, and its number in the table. -/
def numbers (l : Ledger) : List (Nat × Nat) := l.jobs.map (fun x => (x.1,x.2.id))

theorem ids_eq (l : Ledger) : l.table.ids = l.numbers.map (·.2) := by
  simp [ids,table,numbers]

end Ledger

theorem remove_eq_eraseP (t : JobTable) (id : Nat) : t.remove id = List.eraseP (·.id == id) t := by
  induction t with
  | nil => rfl
  | cons j r ih =>
    rw [remove,List.eraseP_cons]
    by_cases here : (j.id == id) = true
    · rw [if_pos here,here]
      rfl
    · rw [if_neg here,Bool.eq_false_iff.mpr here,ih]
      rfl

theorem ids_mark (t : JobTable) (pid : Pid) (raw : WaitStatus) : (t.mark pid raw).ids = t.ids := by
  induction t with
  | nil => rfl
  | cons j r ih =>
    rw [mark]
    split_ifs
    · rfl
    · exact congrArg (j.id :: ·) ih

theorem ids_modify (t : JobTable) (id : Nat) {f : Job → Job} (kept : ∀ j, (f j).id = j.id) :
    (t.modify id f).ids = t.ids := by
  induction t with
  | nil => rfl
  | cons j r ih =>
    rw [modify]
    split_ifs
    · exact congrArg (· :: ids r) (kept j)
    · exact congrArg (j.id :: ·) ih

theorem id_shown (j : Job) : (shown j).id = j.id := by
  rw [shown]
  split_ifs <;> rfl

namespace Ledger

theorem table_act (l : Ledger) (a : Action) : (l.act a).table = (a.perform l.table).2 := by
  cases a with
  | operate op => exact table_perform l op
  | adopt j => simp [act,add,table,Action.perform,JobTable.adopt]
  | remove id =>
    show (l.jobs.eraseP _).map (·.2) = l.table.remove id
    rw [remove_eq_eraseP,table,List.eraseP_map]
    rfl

/-- A job that comes is put at the end, with the least free number. -/
theorem act_of_comes {a : Action} {j : Job} (comes : a.comes? = some j) (l : Ledger) : l.act a = l.add j := by
  cases a with
  | operate op =>
    cases op with
    | insert group command pids => cases comes; rfl
    | adopt k untold => cases comes; rfl
    | mark | markStopped | markRunning | list | notify => cases comes
  | adopt k => cases comes; rfl
  | remove id => cases comes

theorem numbers_update {l : Ledger} {t : JobTable} (same : t.ids = l.table.ids) : (l.update t).numbers = l.numbers := by
  have right : t.map (·.id) = l.jobs.map (·.2.id) := same.trans (by simp [ids,table])
  calc (l.update t).numbers = ((l.jobs.map (·.1)).zip t).map (Prod.map id (·.id)) := rfl
    _ = (l.jobs.map (·.1)).zip (t.map (·.id)) := by rw [← List.zip_map_right]
    _ = l.numbers := by rw [right,List.zip_map']; rfl

theorem numbers_tell (l : Ledger) (lines : List (Nat × Text)) : (l.tell lines).numbers.Sublist l.numbers := by
  have shownNumbers : (l.jobs.map (fun x => (x.1,shown x.2))).map (fun x => (x.1,x.2.id)) = l.numbers := by
    simp [numbers,id_shown]
  rw [← shownNumbers]
  exact List.filter_sublist.map _

/-- Without a job that comes, the jobs that stay keep their order and their numbers. -/
theorem numbers_of_stays {a : Action} (stays : a.comes? = none) (l : Ledger) :
    (l.act a).numbers.Sublist l.numbers ∧ (l.act a).count = l.count := by
  have same : ∀ {k : Ledger}, k.numbers = l.numbers → k.numbers.Sublist l.numbers :=
    fun equal => equal ▸ List.Sublist.refl _
  cases a with
  | operate op =>
    cases op with
    | insert | adopt => cases stays
    | mark pid raw => exact ⟨same (numbers_update (ids_mark ..)),rfl⟩
    | markStopped id => exact ⟨same (numbers_update (ids_modify _ _ (fun _ => rfl))),rfl⟩
    | markRunning id => exact ⟨same (numbers_update (ids_modify _ _ (fun _ => rfl))),rfl⟩
    | list => exact ⟨numbers_tell ..,rfl⟩
    | notify => exact ⟨numbers_tell ..,rfl⟩
  | adopt j => cases stays
  | remove id => exact ⟨List.eraseP_sublist.map _,rfl⟩

end Ledger

/-! ### What was given -/

/-- A job came: the number that it was given, and those that the jobs of the table had then. -/
structure Arrival where
  number : Nat
  held : List Nat

/-- A table whose jobs have the numbers in which they came, and an arrival for each job that came. -/
structure Register where
  ledger : Ledger
  arrivals : List Arrival

namespace Register

def empty : Register := ⟨.empty,[]⟩

/-- An action, and the arrival of the job that comes with it. -/
def act (r : Register) (a : Action) : Register where
  ledger := r.ledger.act a
  arrivals := r.arrivals ++ ((a.number? r.ledger.table).map (fun n => ⟨n,r.ledger.table.ids⟩)).toList

/-- The register after actions on an empty table. -/
def after (actions : List Action) : Register := actions.foldl act empty

/-- The number that was given to the job that came as the `k`-th. -/
def given? (r : Register) (k : Nat) : Option Nat := r.arrivals[k]?.map (·.number)

/-- The jobs stand in the order in which they came, with different numbers, which are those that they were given. Each was
    the least free one then. -/
structure Sound (r : Register) : Prop where
  count : r.arrivals.length = r.ledger.count
  order : (r.ledger.numbers.map (·.1)).Pairwise (· < ·)
  distinct : r.ledger.table.ids.Nodup
  given : ∀ x ∈ r.ledger.numbers, r.given? x.1 = some x.2
  least : ∀ a ∈ r.arrivals, IsLeast {n | 1 ≤ n ∧ n ∉ a.held} a.number

theorem sound_empty : empty.Sound := by
  constructor <;> simp [empty,Ledger.empty,Ledger.numbers,Ledger.table,ids]

section
variable {r : Register}

theorem lt_of_given {k n : Nat} (given : r.given? k = some n) : k < r.arrivals.length := by
  obtain ⟨a,here,-⟩ := Option.map_eq_some_iff.mp given
  exact (List.getElem?_eq_some_iff.mp here).1

/-- What was given is not given back. -/
theorem given?_act (a : Action) {k n : Nat} (given : r.given? k = some n) : (r.act a).given? k = some n := by
  rw [given?,act,List.getElem?_append_left (lt_of_given given)]
  exact given

/-- A job comes. -/
theorem Sound.comes (sound : r.Sound) {a : Action} {j : Job} (comes : a.comes? = some j) : (r.act a).Sound := by
  have least := isLeast_freeId r.ledger.table
  have arrivals : (r.act a).arrivals = r.arrivals ++ [⟨r.ledger.table.freeId,r.ledger.table.ids⟩] := by
    simp [act,Action.number?,comes,JobTable.adopt]
  have numbers : (r.act a).ledger.numbers = r.ledger.numbers ++ [(r.ledger.count,r.ledger.table.freeId)] := by
    simp [act,Ledger.act_of_comes comes,Ledger.add,Ledger.numbers]
  constructor
  · rw [arrivals,List.length_append,sound.count,act,Ledger.act_of_comes comes]
    rfl
  · rw [numbers,List.map_append,List.pairwise_append]
    refine ⟨sound.order,List.pairwise_singleton ..,?_⟩
    intro k mem n last
    obtain ⟨x,inside,rfl⟩ := List.mem_map.mp mem
    obtain rfl : n = r.ledger.count := by simpa using last
    exact sound.count ▸ lt_of_given (sound.given x inside)
  · rw [Ledger.ids_eq,numbers,List.map_append,← Ledger.ids_eq,List.nodup_append]
    refine ⟨sound.distinct,by simp,?_⟩
    intro n held m last
    obtain rfl : m = r.ledger.table.freeId := by simpa using last
    rintro rfl
    exact least.1.1.2 held
  · intro x mem
    rw [numbers] at mem
    rcases List.mem_append.mp mem with old | new
    · exact given?_act a (sound.given x old)
    · cases List.mem_singleton.mp new
      rw [given?,arrivals,← sound.count,List.getElem?_concat_length]
      rfl
  · intro b mem
    rw [arrivals] at mem
    rcases List.mem_append.mp mem with old | new
    · exact sound.least b old
    · cases List.mem_singleton.mp new
      exact least.1

/-- No job comes. -/
theorem Sound.stays (sound : r.Sound) {a : Action} (stays : a.comes? = none) : (r.act a).Sound := by
  obtain ⟨fewer,count⟩ := Ledger.numbers_of_stays stays r.ledger
  have arrivals : (r.act a).arrivals = r.arrivals := by simp [act,Action.number?,stays]
  constructor
  · rw [arrivals,sound.count]
    exact count.symm
  · exact sound.order.sublist (fewer.map _)
  · have distinct := sound.distinct
    rw [Ledger.ids_eq] at distinct ⊢
    exact distinct.sublist (fewer.map _)
  · intro x mem
    rw [given?,arrivals]
    exact sound.given x (fewer.subset mem)
  · rw [arrivals]
    exact sound.least

/-- One action. -/
theorem Sound.act (sound : r.Sound) (a : Action) : (r.act a).Sound := by
  cases comes : a.comes? with
  | none => exact sound.stays comes
  | some j => exact sound.comes comes

end

/-- All actions. -/
theorem sound_after (actions : List Action) : (after actions).Sound := by
  have all : ∀ r : Register, r.Sound → (actions.foldl act r).Sound := by
    induction actions with
    | nil => exact fun _ sound => sound
    | cons a rest ih => exact fun r sound => ih _ (sound.act a)
  exact all empty sound_empty

theorem table_after (actions : List Action) : (after actions).ledger.table = actAll [] actions := by
  have all : ∀ r : Register, (actions.foldl act r).ledger.table = actAll r.ledger.table actions := by
    induction actions with
    | nil => exact fun _ => rfl
    | cons a rest ih =>
      intro r
      rw [List.foldl_cons,ih]
      exact congrArg (actAll · rest) (Ledger.table_act r.ledger a)
  exact all empty

/-- The job of the table that has a number is the one that came when this number was given to it. -/
theorem Sound.job?_eq_some_iff {r : Register} (sound : r.Sound) (n : Nat) (j : Job) :
    r.ledger.table.job? n = some j ↔ ∃ k, (k,j) ∈ r.ledger.jobs ∧ r.given? k = some n := by
  have given : ∀ {k j}, (k,j) ∈ r.ledger.jobs → r.given? k = some j.id :=
    fun mem => sound.given _ (List.mem_map_of_mem mem)
  constructor
  · intro found
    obtain ⟨⟨k,i⟩,mem,rfl⟩ := List.mem_map.mp (List.mem_of_find?_eq_some found)
    have number : i.id = n := by simpa using List.find?_some found
    exact ⟨k,mem,number ▸ given mem⟩
  · rintro ⟨k,mem,number⟩
    obtain rfl : j.id = n := Option.some.inj ((given mem).symm.trans number)
    have inside : j ∈ r.ledger.table := List.mem_map_of_mem mem
    cases found : r.ledger.table.job? j.id with
    | none => exact absurd (List.find?_eq_none.mp found j inside) (by simp)
    | some i =>
      have same : i.id = j.id := by simpa using List.find?_some found
      exact congrArg some (List.inj_on_of_nodup_map sound.distinct (List.mem_of_find?_eq_some found) inside same)

end Register

/-! ### Jobs that are named by their numbers -/

theorem isSome_job?_iff (t : JobTable) (n : Nat) : (t.job? n).isSome = true ↔ n ∈ t.ids := by
  simp [job?,ids]

/-- What naming a number with an argument comes to. -/
def named (t : JobTable) (n : Nat) (arg : Text) : Except JobError Nat :=
  if n ∈ t.ids then .ok n else .error (.noSuchJob arg)

theorem resolve_digits {t : JobTable} {n : UInt64} {arg : Text}
    (digits : (if arg.head? = some '%' then arg.tail else arg) = Numeral.ofNat n.toNat) :
    t.resolve (some arg) = t.named n.toNat arg := by
  simp only [resolve,digits,Numeral.readNat_uint64,isSome_job?_iff,named]

theorem resolve_ofNat (t : JobTable) (n : UInt64) :
    t.resolve (some (Numeral.ofNat n.toNat)) = t.named n.toNat (Numeral.ofNat n.toNat) := by
  apply resolve_digits
  apply if_neg
  intro percent
  exact Numeral.notMem_ofNat (by decide) _ (List.mem_of_mem_head? percent)

theorem resolve_percent (t : JobTable) (n : UInt64) :
    t.resolve (some ('%' :: Numeral.ofNat n.toNat)) = t.named n.toNat ('%' :: Numeral.ofNat n.toNat) :=
  resolve_digits (if_pos rfl)

theorem resolve_none_iff (t : JobTable) (n : Nat) : t.resolve none = .ok n ↔ IsGreatest {n | n ∈ t.ids} n := by
  have highest : t.highestId? = some n ↔ IsGreatest {n | n ∈ t.ids} n := List.max?_eq_some_iff
  rw [← highest,resolve]
  cases t.highestId? <;> simp

/-- **The numbers of jobs.** Let actions be done on an empty table in any order. The numbers of the jobs of the table are
    different and positive. A job that comes is given the least positive number that no job of the table has, at most one
    more than there are jobs, and has it as long as it stays. A number, with a percent sign or without, names the job that
    was given it; no argument names the greatest number. -/
theorem numbers_kept (actions : List Action) :
    let r := Register.after actions
    let t := r.ledger.table
    t = actAll [] actions ∧ t.ids.Nodup ∧ (∀ n ∈ t.ids, 1 ≤ n) ∧
      (∀ a : Action, ∀ n ∈ a.number? t, IsLeast {n | 1 ≤ n ∧ n ∉ t.ids} n ∧ n ≤ t.length + 1 ∧
        (r.act a).given? r.ledger.count = some n) ∧
      (∀ x ∈ r.ledger.jobs, r.given? x.1 = some x.2.id ∧ ∀ a, (r.act a).given? x.1 = some x.2.id) ∧
      (∀ n j, t.job? n = some j ↔ ∃ k, (k,j) ∈ r.ledger.jobs ∧ r.given? k = some n) ∧
      (∀ n : UInt64, t.resolve (some (Numeral.ofNat n.toNat)) = t.named n.toNat (Numeral.ofNat n.toNat) ∧
        t.resolve (some ('%' :: Numeral.ofNat n.toNat)) = t.named n.toNat ('%' :: Numeral.ofNat n.toNat)) ∧
      ∀ n, t.resolve none = .ok n ↔ IsGreatest {n | n ∈ t.ids} n := by
  intro r t
  have sound : r.Sound := Register.sound_after actions
  refine ⟨Register.table_after actions,sound.distinct,?_,?_,?_,sound.job?_eq_some_iff,?_,resolve_none_iff t⟩
  · intro n mem
    rw [Ledger.ids_eq] at mem
    obtain ⟨x,inside,rfl⟩ := List.mem_map.mp mem
    obtain ⟨a,here,number⟩ := Option.map_eq_some_iff.mp (sound.given x inside)
    rw [← number]
    exact (sound.least a (List.mem_of_getElem? here)).1.1
  · intro a n given
    obtain ⟨j,comes,rfl⟩ := Option.map_eq_some_iff.mp given
    obtain ⟨least,bound⟩ := isLeast_freeId t
    refine ⟨least,bound,?_⟩
    have arrivals : (r.act a).arrivals = r.arrivals ++ [⟨t.freeId,t.ids⟩] := by
      simp [Register.act,Action.number?,comes,JobTable.adopt,t]
    rw [Register.given?,arrivals,← sound.count,List.getElem?_concat_length]
    rfl
  · intro x mem
    have given := sound.given _ (List.mem_map_of_mem mem)
    exact ⟨given,fun a => Register.given?_act a given⟩
  · intro n
    exact ⟨resolve_ofNat t n,resolve_percent t n⟩

/-! ### The order of the lines -/

namespace Register

/-- When each of the jobs came, all numbers up to those of the jobs before it were held. -/
def Gapless (r : Register) (lines : List (Nat × Job)) : Prop :=
  lines.Pairwise fun x y => ∀ a ∈ r.arrivals[y.1]?, ∀ n, 1 ≤ n → n ≤ x.2.id → n ∈ a.held

/-- Jobs of the table have increasing numbers exactly when no number was left free below that of an earlier one. -/
theorem Sound.increasing_iff {r : Register} (sound : r.Sound) {lines : List (Nat × Job)}
    (part : lines.Sublist r.ledger.jobs) : (lines.map (·.2.id)).Pairwise (· < ·) ↔ r.Gapless lines := by
  rw [List.pairwise_map]
  apply List.Pairwise.iff_of_mem
  intro x y _ mem
  obtain ⟨a,here,number⟩ := Option.map_eq_some_iff.mp (sound.given _ (List.mem_map_of_mem (part.subset mem)))
  obtain ⟨⟨positive,free⟩,lowest⟩ := sound.least a (List.mem_of_getElem? here)
  have only : ∀ b, b ∈ r.arrivals[y.1]? ↔ b = a := by simp [here,eq_comm]
  simp only [only,forall_eq]
  simp only at number
  rw [← number]
  constructor
  · intro less n low high
    by_contra unused
    have := lowest ⟨low,unused⟩
    omega
  · intro held
    by_contra less
    exact free (held a.number positive (by omega))

end Register

/-- **The order of the lines.** Let actions be done on an empty table in any order. A listing has a line for each job, and
    the notices are those on jobs that are done and not known to be, both in the order in which the jobs came. Their numbers
    increase exactly when, as each of these jobs came, no number was free below that of one before it. -/
theorem lines_by_arrival (actions : List Action) :
    let r := Register.after actions
    let listed := r.ledger.jobs
    let noticed := listed.filter (fun x => x.2.isDone && !x.2.notified)
    r.ledger.table = actAll [] actions ∧
      (r.ledger.table.list.1 = listed.flatMap (fun x => listLine x.2) ∧ (listed.map (·.1)).Pairwise (· < ·) ∧
        ((listed.map (·.2.id)).Pairwise (· < ·) ↔ r.Gapless listed)) ∧
      (r.ledger.table.notify.1 = noticed.flatMap (fun x => notice x.2) ∧ (noticed.map (·.1)).Pairwise (· < ·) ∧
        ((noticed.map (·.2.id)).Pairwise (· < ·) ↔ r.Gapless noticed)) := by
  intro r listed noticed
  have sound : r.Sound := Register.sound_after actions
  have order : (listed.map (·.1)).Pairwise (· < ·) := by simpa [Ledger.numbers,Function.comp_def] using sound.order
  have part : noticed.Sublist listed := List.filter_sublist
  refine ⟨Register.table_after actions,⟨?_,order,sound.increasing_iff (List.Sublist.refl _)⟩,
    ?_,order.sublist (part.map _),sound.increasing_iff part⟩
  · exact List.flatMap_map ..
  · show (List.filter _ (r.ledger.jobs.map (·.2))).flatMap notice = _
    rw [List.filter_map,List.flatMap_map]
    rfl

/-- The number 1 is given again after the first of two jobs is gone, and the job with it is listed last. -/
theorem lines_number_reused :
    let t := actAll [] [.operate (.insert 100 (txt "a") [100]),.operate (.insert 101 (txt "b") [101]),.remove 1,
      .operate (.insert 102 (txt "c") [102])]
    t.list.1 = txt "[2]  Running   b\n[1]  Running   c\n" ∧ t.ids = [2,1] ∧ ¬ t.ids.Pairwise (· < ·) := by
  decide

end JobTable
end JobShell

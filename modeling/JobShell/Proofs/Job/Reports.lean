import JobShell.Job.Table
import Mathlib.Data.List.Basic

/-!
# Where a report goes

A report names a process by its number, and goes to the first process of the
table with that number. The number of a process that has ended may have been
given to a new one in the meantime. So the report goes to the process that it is
about exactly when none that has ended stands before it with the same number
(`JobTable.mark_eq_reportAt_iff`).
-/
namespace JobShell

/-- A list with one element changed is the list exactly when the element is kept. -/
theorem modify_eq_self_iff {α : Type} {l : List α} {i : Nat} {x : α} (here : l[i]? = some x) (f : α → α) :
    l.modify i f = l ↔ f x = x := by
  obtain ⟨inside,rfl⟩ := List.getElem?_eq_some_iff.mp here
  have whole : l.take i ++ l[i] :: l.drop (i+1) = l := by
    rw [← List.drop_eq_getElem_cons inside,List.take_append_drop]
  rw [List.modify_eq_take_cons_drop inside]
  constructor
  · intro same
    exact (List.cons.inj (List.append_cancel_left (same.trans whole.symm))).1
  · intro kept
    rw [kept,whole]

namespace Job

/-! ### The processes of a job -/

/-- Processes with other numbers are passed over. -/
theorem markProcess_append {pid : Pid} {a : List JobProcess} (other : ∀ p ∈ a, p.pid ≠ pid) (raw : WaitStatus)
    (l : List JobProcess) : markProcess pid raw (a ++ l) = a ++ markProcess pid raw l := by
  induction a with
  | nil => rfl
  | cons p r ih =>
    have first : (p.pid == pid) = false := beq_false_of_ne (other p (by simp))
    have rest := ih (fun q mem => other q (by simp [mem]))
    rw [List.cons_append,markProcess,first,rest]
    rfl

theorem markProcess_cons (p : JobProcess) (raw : WaitStatus) (l : List JobProcess) :
    markProcess p.pid raw (p :: l) = p.report raw :: l := by
  rw [markProcess,beq_self_eq_true,if_pos rfl]

/-- The first process with the number is the one that is changed. -/
theorem markProcess_of_find? {pid : Pid} {q : JobProcess} {l : List JobProcess}
    (found : l.find? (·.pid == pid) = some q) (raw : WaitStatus) :
    ∃ a b, l = a ++ q :: b ∧ ∀ m, markProcess pid raw (l ++ m) = a ++ q.report raw :: (b ++ m) := by
  obtain ⟨same,a,b,rfl,before⟩ := List.find?_eq_some_iff_append.mp found
  have other : ∀ p ∈ a, p.pid ≠ pid := fun p mem => by simpa using before p mem
  refine ⟨a,b,rfl,fun m => ?_⟩
  rw [List.append_assoc,markProcess_append other,← beq_iff_eq.mp same,List.cons_append,markProcess_cons]

/-- Nothing changes when the first process with the number is kept. -/
theorem markProcess_eq_self_iff {pid : Pid} {q : JobProcess} {l : List JobProcess}
    (found : l.find? (·.pid == pid) = some q) (raw : WaitStatus) :
    markProcess pid raw l = l ↔ q.report raw = q := by
  obtain ⟨a,b,whole,marked⟩ := markProcess_of_find? found raw
  have alone := marked []
  rw [List.append_nil,List.append_nil] at alone
  rw [alone,whole]
  simp

/-- A report changes process `k` and no other exactly when no process before it has the number, or when it changes neither
    the first of these nor process `k`. -/
theorem markProcess_eq_modify_iff {l : List JobProcess} {k : Nat} {p : JobProcess} (here : l[k]? = some p)
    (raw : WaitStatus) :
    markProcess p.pid raw l = l.modify k (·.report raw) ↔
      ∀ q, (l.take k).find? (·.pid == p.pid) = some q → q.report raw = q ∧ p.report raw = p := by
  obtain ⟨inside,rfl⟩ := List.getElem?_eq_some_iff.mp here
  have whole : l.take k ++ l[k] :: l.drop (k+1) = l := by
    rw [← List.drop_eq_getElem_cons inside,List.take_append_drop]
  rw [List.modify_eq_take_cons_drop inside]
  cases found : (l.take k).find? (·.pid == l[k].pid) with
  | none =>
    have other : ∀ q ∈ l.take k, q.pid ≠ l[k].pid := fun q mem => by
      simpa using List.find?_eq_none.mp found q mem
    have marked := markProcess_append other raw (l[k] :: l.drop (k+1))
    rw [whole,markProcess_cons] at marked
    exact iff_of_true marked (fun q equal => by cases equal)
  | some q =>
    obtain ⟨a,b,split,marked⟩ := markProcess_of_find? found raw
    have result := marked (l[k] :: l.drop (k+1))
    rw [whole] at result
    rw [result,split]
    constructor
    · intro equal x first
      cases first
      rw [← List.cons_append,← List.append_assoc] at equal
      obtain ⟨left,right⟩ := List.append_inj equal (by simp)
      exact ⟨(List.cons.inj (List.append_cancel_left left)).1,(List.cons.inj right).1.symm⟩
    · intro kept
      obtain ⟨first,last⟩ := kept q rfl
      rw [first,last,List.append_assoc,List.cons_append]

end Job

namespace JobTable

/-! ### The processes of a table -/

/-- The processes of all jobs, in the order of the table. -/
def processes (t : JobTable) : List JobProcess := t.flatMap (·.processes)

/-- The processes that have not ended have different numbers. -/
def DistinctLive (t : JobTable) : Prop := ((t.processes.filter (!·.completed)).map (·.pid)).Nodup

instance (t : JobTable) : Decidable t.DistinctLive := inferInstanceAs (Decidable (List.Nodup _))

/-- Process `k` of the job at place `i`. -/
def process? (t : JobTable) (i k : Nat) : Option JobProcess := t[i]?.bind (·.processes[k]?)

/-- The processes before process `k` of the job at place `i`, in the order of the table. -/
def earlier : JobTable → Nat → Nat → List JobProcess
  | [], _, _ => []
  | j :: _, 0, k => j.processes.take k
  | j :: r, i+1, k => j.processes ++ earlier r i k

/-- The table after a report on process `k` of the job at place `i`, all else being as it was. -/
def reportAt (t : JobTable) (i k : Nat) (raw : WaitStatus) : JobTable :=
  List.modify t i fun j => { j with processes := j.processes.modify k (·.report raw) }

theorem process?_zero (j : Job) (r : JobTable) (k : Nat) : process? (j :: r) 0 k = j.processes[k]? := rfl

theorem process?_succ (j : Job) (r : JobTable) (i k : Nat) : process? (j :: r) (i+1) k = process? r i k := rfl

/-- The processes of a table around one of them. -/
theorem processes_eq {t : JobTable} {i k : Nat} {p : JobProcess} (here : t.process? i k = some p) :
    ∃ later, t.processes = earlier t i k ++ p :: later := by
  induction t generalizing i with
  | nil => cases here
  | cons j r ih =>
    cases i with
    | zero =>
      obtain ⟨inside,rfl⟩ := List.getElem?_eq_some_iff.mp here
      refine ⟨j.processes.drop (k+1) ++ processes r,?_⟩
      rw [← List.cons_append,← List.drop_eq_getElem_cons inside,← List.append_assoc,earlier,List.take_append_drop]
      rfl
    | succ i =>
      obtain ⟨later,whole⟩ := ih here
      refine ⟨later,?_⟩
      rw [earlier,List.append_assoc,← whole]
      rfl

/-- Of two processes with the same number the earlier one has ended, when the later one has not. -/
theorem DistinctLive.completed {t : JobTable} (distinct : t.DistinctLive) {i k : Nat} {p q : JobProcess}
    (here : t.process? i k = some p) (live : p.completed = false) (before : q ∈ earlier t i k)
    (same : q.pid = p.pid) : q.completed = true := by
  obtain ⟨later,whole⟩ := processes_eq here
  rw [DistinctLive,whole,List.filter_append,List.map_append,List.nodup_append] at distinct
  obtain ⟨_,_,apart⟩ := distinct
  by_contra going
  refine apart q.pid ?_ p.pid ?_ same
  · exact List.mem_map_of_mem (List.mem_filter.mpr ⟨before,by simpa using going⟩)
  · exact List.mem_map_of_mem (List.mem_filter.mpr ⟨by simp,by simp [live]⟩)

theorem reportAt_eq_self_iff {t : JobTable} {i k : Nat} {p : JobProcess} (here : t.process? i k = some p)
    (raw : WaitStatus) : reportAt t i k raw = t ↔ p.report raw = p := by
  obtain ⟨j,job,process⟩ := Option.bind_eq_some_iff.mp here
  rw [reportAt,modify_eq_self_iff job,← modify_eq_self_iff process (·.report raw)]
  constructor
  · intro same
    exact congrArg Job.processes same
  · intro same
    rw [same]

/-- In the job with the number the first process with it is the one that is changed. -/
theorem mark_job_eq_self_iff {j : Job} {pid : Pid} {q : JobProcess} (found : j.processes.find? (·.pid == pid) = some q)
    (raw : WaitStatus) : j.mark pid raw = j ↔ q.report raw = q := by
  rw [← Job.markProcess_eq_self_iff found raw]
  constructor
  · intro same
    exact congrArg Job.processes same
  · intro same
    rw [Job.mark,same]

/-- A report goes to a process and to no other exactly when no process before it has the number, or when it changes neither
    the first of these nor the process itself. -/
theorem mark_eq_iff {t : JobTable} {i k : Nat} {p : JobProcess} (here : t.process? i k = some p) (raw : WaitStatus) :
    mark p.pid raw t = reportAt t i k raw ↔
      ∀ q, (earlier t i k).find? (·.pid == p.pid) = some q → q.report raw = q ∧ p.report raw = p := by
  induction t generalizing i with
  | nil => cases here
  | cons j r ih =>
    cases i with
    | zero =>
      rw [process?_zero] at here
      have mine : j.hasPid p.pid = true :=
        List.any_eq_true.mpr ⟨p,List.mem_of_getElem? here,beq_self_eq_true _⟩
      have there : reportAt (j :: r) 0 k raw = { j with processes := j.processes.modify k (·.report raw) } :: r := rfl
      rw [mark,if_pos mine,there,earlier,← Job.markProcess_eq_modify_iff here]
      simp [Job.mark]
    | succ i =>
      have there : reportAt (j :: r) (i+1) k raw = j :: reportAt r i k raw := rfl
      rw [process?_succ] at here
      rw [mark,there,earlier,List.find?_append]
      cases found : j.processes.find? (·.pid == p.pid) with
      | none =>
        have other : ¬ j.hasPid p.pid = true := by simpa [Job.hasPid] using found
        rw [if_neg other,Option.none_or,← ih here]
        simp
      | some q =>
        have mine : j.hasPid p.pid = true :=
          List.any_eq_true.mpr ⟨q,List.mem_of_find?_eq_some found,by simpa using List.find?_some found⟩
        rw [if_pos mine,Option.some_or,List.cons.injEq,mark_job_eq_self_iff found,eq_comm (a := r),
          reportAt_eq_self_iff here]
        simp

/-- **Where a report goes.** Let the processes that have not ended have different numbers, and let a report be on one of
    them. Exactly this process is changed, unless one before it that has ended has its number; then the report goes to the
    first such one, and the outcome is the same only when the report changes neither of the two. -/
theorem mark_eq_reportAt_iff {t : JobTable} (distinct : t.DistinctLive) {i k : Nat} {p : JobProcess}
    (here : t.process? i k = some p) (live : p.completed = false) (raw : WaitStatus) :
    mark p.pid raw t = reportAt t i k raw ↔
      (∀ q ∈ earlier t i k, q.completed = true → q.pid ≠ p.pid) ∨
        ∃ q, (earlier t i k).find? (·.pid == p.pid) = some q ∧ q.report raw = q ∧ p.report raw = p := by
  rw [mark_eq_iff here]
  cases found : (earlier t i k).find? (·.pid == p.pid) with
  | none =>
    have other := List.find?_eq_none.mp found
    refine iff_of_true (fun q equal => by cases equal) (.inl fun q mem _ => ?_)
    simpa using other q mem
  | some q =>
    have before := List.mem_of_find?_eq_some found
    have same : q.pid = p.pid := by simpa using List.find?_some found
    have ended := distinct.completed here live before same
    have taken : ¬ ∀ q ∈ earlier t i k, q.completed = true → q.pid ≠ p.pid := fun free => free q before ended same
    simp [taken]

/-- A process that has ended does no harm when it stands later, or has another number. -/
theorem mark_eq_reportAt_later :
    let t : JobTable := [⟨1,100,txt "a | b",[⟨100,100,true,false,0⟩,⟨101,100,false,false,0⟩],false⟩,
      ⟨2,102,txt "c | d",[⟨102,102,false,true,0⟩,⟨101,102,true,false,256⟩],false⟩]
    let raw := WaitStatus.signaled 9
    t.DistinctLive ∧ t.process? 0 1 = some ⟨101,100,false,false,0⟩ ∧
      (mark 101 raw t = reportAt t 0 1 raw ↔
        (∀ q ∈ earlier t 0 1, q.completed = true → q.pid ≠ 101) ∨
          ∃ q, (earlier t 0 1).find? (·.pid == 101) = some q ∧ q.report raw = q ∧
            JobProcess.report ⟨101,100,false,false,0⟩ raw = ⟨101,100,false,false,0⟩) := by
  intro t raw
  have distinct : t.DistinctLive := by decide
  have here : t.process? 0 1 = some ⟨101,100,false,false,0⟩ := rfl
  exact ⟨distinct,here,mark_eq_reportAt_iff distinct here rfl raw⟩

/-- The second process of a job has ended, and its number is given to a new job while the first process goes on. The end of
    the new job is then put down to the process that had ended before, and the new job stays as it was. -/
theorem mark_reused_number :
    let raw := WaitStatus.exited 3
    let t := (adopt (mark 101 (.exited 0) (adopt [] (.start 100 (txt "a | b") [100,101])).1)
      (.start 101 (txt "c") [101])).1
    t.DistinctLive ∧ t.process? 1 0 = some ⟨101,101,false,false,0⟩ ∧
      mark 101 raw t ≠ reportAt t 1 0 raw ∧ mark 101 raw t = reportAt t 0 1 raw := by
  decide

end JobTable
end JobShell

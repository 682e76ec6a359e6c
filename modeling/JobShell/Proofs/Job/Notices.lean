import JobShell.Job.Table
import JobShell.Proofs.Text.Numerals
import Mathlib.Data.List.Forall2

/-!
# Jobs that are done

A listing and the notice before a prompt tell that a job is done, and remove it.
Between the two steps the job is marked, and no other job ever is: so no marked
job is left in a table, nothing is told twice and nothing else is removed
(`JobTable.done_reported_once`). To say so the jobs are numbered in the order in
which they came, and the lines that are printed are kept with the number of the
job that they are about. The numbers of the table do not tell jobs apart over
time, since they are given again.
-/
namespace JobShell

theorem Job.isDone_of_notified (j : Job) (b : Bool) : { j with notified := b }.isDone = j.isDone := rfl

/-- The word for a state as it stands in a column. -/
def JobState.column : JobState → Text
  | .running => txt "Running   "
  | .stopped => txt "Stopped   "
  | .done _ => txt "Done      "

namespace JobTable

/-! ### What is printed -/

/-- A printed line tells that a job is done: that is the word behind the number in brackets. -/
def saysDone (line : Text) : Bool := (txt "Done ").isPrefixOf ((line.dropWhile (· != ']')).tail.dropWhile (· == ' '))

theorem saysDone_numbered (n : Nat) (r : Text) :
    saysDone ('[' :: Numeral.ofNat n ++ ']' :: r) = (txt "Done ").isPrefixOf (r.dropWhile (· == ' ')) := by
  have other : ∀ c ∈ '[' :: Numeral.ofNat n, (c != ']') = true := by
    intro c mem
    rw [bne_iff_ne]
    rintro rfl
    rcases List.mem_cons.mp mem with bracket | digit
    · exact absurd bracket (by decide)
    · exact Numeral.notMem_ofNat (by decide) n digit
  rw [saysDone,List.dropWhile_append_of_pos other]
  rfl

/-- The line of a job in a listing has its number, its state and its command. -/
theorem listLine_eq (j : Job) :
    listLine j = txt "[" ++ Numeral.ofNat j.id ++ txt "]  " ++ j.state.column ++ j.command ++ txt "\n" := by
  have column : Text.padEnd 8 j.state.label ++ txt "  " = j.state.column := by
    cases j.state <;> rfl
  rw [listLine,List.append_assoc _ (Text.padEnd 8 _),column]
  rfl

/-- A listing says that a job is done exactly when it is. -/
theorem saysDone_listLine (j : Job) : saysDone (listLine j) = j.isDone := by
  have line : listLine j = '[' :: Numeral.ofNat j.id ++ ']' :: (txt "  " ++ j.state.column ++ j.command ++ txt "\n") := by
    rw [listLine_eq]
    simp [txt]
  rw [line,saysDone_numbered,Job.isDone]
  cases j.state <;> rfl

theorem saysDone_notice (j : Job) : saysDone (notice j) = true := by
  have line : notice j = '[' :: Numeral.ofNat j.id ++ ']' :: (txt "   Done   " ++ j.command ++ ['\n']) := by
    rw [notice]
    simp [txt]
  rw [line,saysDone_numbered]
  rfl

/-- What is done with a table. A job that is taken over is not marked as told. -/
inductive Operation where
  | insert (group : Pid) (command : Text) (pids : List Pid)
  | adopt (j : Job) (untold : j.notified = false)
  | mark (pid : Pid) (raw : WaitStatus)
  | markStopped (id : Nat)
  | markRunning (id : Nat)
  | list
  | notify

/-- What an operation prints, and the table after it. -/
def Operation.perform (t : JobTable) : Operation → Text × JobTable
  | .insert group command pids => ([],(t.adopt (.start group command pids)).1)
  | .adopt j _ => ([],(t.adopt j).1)
  | .mark pid raw => ([],t.mark pid raw)
  | .markStopped id => ([],t.modify id Job.markStopped)
  | .markRunning id => ([],t.modify id Job.markRunning)
  | .list => t.list
  | .notify => t.notify

/-- The table after operations. -/
def performAll (t : JobTable) (ops : List Operation) : JobTable := ops.foldl (fun t op => (op.perform t).2) t

/-- What operations print. -/
def printAll (t : JobTable) : List Operation → Text
  | [] => []
  | op :: r => (op.perform t).1 ++ printAll (op.perform t).2 r

/-- A table whose jobs have the numbers in which they came, and what was printed so far. -/
structure Ledger where
  jobs : List (Nat × Job)
  /-- How many jobs came. -/
  count : Nat
  /-- The lines that were printed, each with the number of its job. -/
  printed : List (Nat × Text)

namespace Ledger

/-- The table itself. -/
def table (l : Ledger) : JobTable := l.jobs.map (·.2)

/-- All that was printed. -/
def text (l : Ledger) : Text := l.printed.flatMap (·.2)

/-- The jobs that were printed as done, in the order in which they were. -/
def told (l : Ledger) : List Nat := (l.printed.filter (fun x => saysDone x.2)).map (·.1)

def empty : Ledger := ⟨[],0,[]⟩

/-- A job comes. -/
def add (l : Ledger) (j : Job) : Ledger :=
  ⟨l.jobs ++ [(l.count,{ j with id := l.table.freeId })],l.count + 1,l.printed⟩

/-- The jobs change where they stand. -/
def update (l : Ledger) (t : JobTable) : Ledger := { l with jobs := (l.jobs.map (·.1)).zip t }

/-- The lines of some jobs are printed; the table is then cleaned. -/
def tell (l : Ledger) (lines : List (Nat × Text)) : Ledger where
  jobs := (l.jobs.map (fun x => (x.1,shown x.2))).filter (fun x => !(x.2.notified && x.2.isDone))
  count := l.count
  printed := l.printed ++ lines

/-- An operation on a table with numbered jobs. A listing prints a line for every job, and a notice is printed for every job
    that is done and not marked. -/
def perform (l : Ledger) : Operation → Ledger
  | .insert group command pids => l.add (.start group command pids)
  | .adopt j _ => l.add j
  | .list => l.tell (l.jobs.map (fun x => (x.1,listLine x.2)))
  | .notify => l.tell ((l.jobs.filter (fun x => x.2.isDone && !x.2.notified)).map (fun x => (x.1,notice x.2)))
  | op => l.update (op.perform l.table).2

/-- The ledger after operations on an empty table. -/
def after (ops : List Operation) : Ledger := ops.foldl perform empty

end Ledger

/-! ### What changes in place -/

/-- The jobs stand where they stood, and are marked as they were. -/
def InPlace (t u : JobTable) : Prop := List.Forall₂ (fun j k => k.notified = j.notified) t u

theorem inPlace_refl (t : JobTable) : InPlace t t := by
  induction t with
  | nil => exact .nil
  | cons j r ih => exact .cons rfl ih

theorem inPlace_mark (t : JobTable) (pid : Pid) (raw : WaitStatus) : InPlace t (t.mark pid raw) := by
  induction t with
  | nil => exact .nil
  | cons j r ih =>
    rw [mark]
    by_cases here : j.hasPid pid = true
    · rw [if_pos here]
      exact .cons rfl (inPlace_refl r)
    · rw [if_neg here]
      exact .cons rfl ih

theorem inPlace_modify (t : JobTable) (id : Nat) {f : Job → Job} (marked : ∀ j, (f j).notified = j.notified) :
    InPlace t (t.modify id f) := by
  induction t with
  | nil => exact .nil
  | cons j r ih =>
    rw [modify]
    by_cases here : (j.id == id) = true
    · rw [if_pos here]
      exact .cons (marked j) (inPlace_refl r)
    · rw [if_neg here]
      exact .cons rfl ih

theorem InPlace.notified {t u : JobTable} (same : InPlace t u) (untold : ∀ j ∈ t, j.notified = false) :
    ∀ k ∈ u, k.notified = false := by
  induction same with
  | nil => simp
  | cons first rest ih =>
    intro k mem
    rcases List.mem_cons.mp mem with rfl | later
    · exact first.trans (untold _ (by simp))
    · exact ih (fun j mem => untold j (by simp [mem])) k later

/-! ### What is told -/

/-- After a job was shown it is dropped exactly when it is done, and otherwise it is as it was. -/
theorem filter_shown {l : List (Nat × Job)} (untold : ∀ x ∈ l, x.2.notified = false) :
    (l.map (fun x => (x.1,shown x.2))).filter (fun x => !(x.2.notified && x.2.isDone)) =
      l.filter (fun x => !x.2.isDone) := by
  induction l with
  | nil => rfl
  | cons x r ih =>
    have rest := ih (fun y mem => untold y (by simp [mem]))
    have first := untold x (by simp)
    cases done : x.2.isDone with
    | true =>
      have marked : shown x.2 = { x.2 with notified := true } := if_pos done
      rw [List.map_cons,List.filter_cons,List.filter_cons,marked,Job.isDone_of_notified,done]
      exact rest
    | false =>
      have same : shown x.2 = x.2 := if_neg (by simp [done])
      rw [List.map_cons,List.filter_cons,List.filter_cons,same,first,done,rest]
      rfl

namespace Ledger

/-- No job of the table is marked, and every job that came was either told to be done, once, or is in the table. -/
structure Sound (l : Ledger) : Prop where
  untold : ∀ x ∈ l.jobs, x.2.notified = false
  accounted : (l.told ++ l.jobs.map (·.1)).Perm (List.range l.count)

/-- The jobs that are done are told and removed, and the others stay as they were. -/
structure Tells (l m : Ledger) : Prop where
  told : m.told = l.told ++ (l.jobs.filter (·.2.isDone)).map (·.1)
  jobs : m.jobs = l.jobs.filter (!·.2.isDone)
  left : ∀ j ∈ m.table, j.isDone = false

section
variable {l : Ledger}

theorem sound_empty : empty.Sound := by
  constructor
  · simp [empty]
  · exact .refl _

theorem Sound.add (sound : l.Sound) {j : Job} (untold : j.notified = false) : (l.add j).Sound := by
  constructor
  · intro x mem
    rcases List.mem_append.mp mem with old | new
    · exact sound.untold x old
    · cases List.mem_singleton.mp new
      exact untold
  · rw [Ledger.add,List.map_append,← List.append_assoc,List.range_succ]
    exact sound.accounted.append_right _

theorem length_update {t : JobTable} (same : InPlace l.table t) : (l.jobs.map (·.1)).length = t.length := by
  rw [List.length_map,← same.length_eq,table,List.length_map]

theorem jobs_update {t : JobTable} (same : InPlace l.table t) : (l.update t).jobs.map (·.1) = l.jobs.map (·.1) :=
  List.map_fst_zip (Nat.le_of_eq (length_update same))

theorem table_update {t : JobTable} (same : InPlace l.table t) : (l.update t).table = t :=
  List.map_snd_zip (Nat.le_of_eq (length_update same).symm)

theorem Sound.update (sound : l.Sound) {t : JobTable} (same : InPlace l.table t) : (l.update t).Sound := by
  constructor
  · intro x mem
    apply same.notified _ _ (List.of_mem_zip mem).2
    intro j here
    obtain ⟨y,inside,rfl⟩ := List.mem_map.mp here
    exact sound.untold y inside
  · rw [jobs_update same]
    exact sound.accounted

/-- What is printed as done must be just what is done, as long as no job is marked. -/
theorem Sound.tell (sound : l.Sound) {lines : List (Nat × Text)}
    (exact : (lines.filter (fun x => saysDone x.2)).map (·.1) = (l.jobs.filter (·.2.isDone)).map (·.1)) :
    l.Tells (l.tell lines) := by
  have jobs : (l.tell lines).jobs = l.jobs.filter (!·.2.isDone) := filter_shown sound.untold
  refine ⟨?_,jobs,?_⟩
  · rw [Ledger.told,Ledger.tell,List.filter_append,List.map_append,exact,Ledger.told]
  · intro j mem
    rw [table,jobs] at mem
    obtain ⟨x,here,rfl⟩ := List.mem_map.mp mem
    simpa using (List.mem_filter.mp here).2

/-- The notices are those of the jobs that are done, since no job is marked. -/
theorem Sound.filter_notified (sound : l.Sound) :
    l.jobs.filter (fun x => x.2.isDone && !x.2.notified) = l.jobs.filter (·.2.isDone) := by
  apply List.filter_congr
  intro x mem
  rw [sound.untold x mem,Bool.not_false,Bool.and_true]

theorem Sound.tells_list (sound : l.Sound) : l.Tells (l.perform .list) := by
  apply sound.tell
  simp only [List.filter_map,List.map_map,Function.comp_def,saysDone_listLine]

theorem Sound.tells_notify (sound : l.Sound) : l.Tells (l.perform .notify) := by
  apply sound.tell
  simp only [List.filter_map,List.map_map,Function.comp_def,saysDone_notice,List.filter_true,sound.filter_notified]

/-- The jobs that are told and those that stay are all jobs. -/
theorem Sound.of_tells (sound : l.Sound) {m : Ledger} (tells : l.Tells m) (count : m.count = l.count) : m.Sound := by
  constructor
  · intro x mem
    rw [tells.jobs] at mem
    exact sound.untold x (List.mem_filter.mp mem).1
  · rw [tells.told,tells.jobs,count,List.append_assoc,← List.map_append]
    refine List.Perm.trans ?_ sound.accounted
    exact ((List.filter_append_perm _ _).map _).append_left _

/-- One operation. -/
theorem Sound.perform (sound : l.Sound) (op : Operation) : (l.perform op).Sound := by
  cases op with
  | insert group command pids => exact sound.add rfl
  | adopt j untold => exact sound.add untold
  | mark pid raw => exact sound.update (inPlace_mark ..)
  | markStopped id => exact sound.update (inPlace_modify _ _ (fun _ => rfl))
  | markRunning id => exact sound.update (inPlace_modify _ _ (fun _ => rfl))
  | list => exact sound.of_tells sound.tells_list rfl
  | notify => exact sound.of_tells sound.tells_notify rfl

end

theorem table_tell (l : Ledger) (lines : List (Nat × Text)) :
    (l.tell lines).table = dropNotified (l.table.map shown) := by
  simp [tell,table,dropNotified,List.filter_map,Function.comp_def]

/-- The numbers change nothing: the table is that of the operations themselves. -/
theorem table_perform (l : Ledger) (op : Operation) : (l.perform op).table = (op.perform l.table).2 := by
  cases op with
  | insert group command pids => simp [perform,add,table,Operation.perform,JobTable.adopt]
  | adopt j untold => simp [perform,add,table,Operation.perform,JobTable.adopt]
  | mark pid raw => exact table_update (inPlace_mark ..)
  | markStopped id => exact table_update (inPlace_modify _ _ (fun _ => rfl))
  | markRunning id => exact table_update (inPlace_modify _ _ (fun _ => rfl))
  | list => exact table_tell ..
  | notify => exact table_tell ..

theorem text_tell (l : Ledger) (lines : List (Nat × Text)) : (l.tell lines).text = l.text ++ lines.flatMap (·.2) := by
  rw [text,tell,List.flatMap_append,text]

/-- The lines of the ledger are what an operation prints. -/
theorem text_perform (l : Ledger) (op : Operation) : (l.perform op).text = l.text ++ (op.perform l.table).1 := by
  cases op with
  | list =>
    rw [perform,text_tell,Operation.perform,JobTable.list,table,List.flatMap_map,List.flatMap_map]
  | notify =>
    rw [perform,text_tell,Operation.perform,JobTable.notify,table,List.filter_map,List.flatMap_map,List.flatMap_map]
    rfl
  | _ => exact (List.append_nil _).symm

/-- All operations. -/
theorem sound_after (ops : List Operation) : (after ops).Sound := by
  have all : ∀ l : Ledger, l.Sound → (ops.foldl perform l).Sound := by
    induction ops with
    | nil => exact fun _ sound => sound
    | cons op r ih => exact fun l sound => ih _ (sound.perform op)
  exact all empty sound_empty

theorem table_after (ops : List Operation) : (after ops).table = performAll [] ops := by
  have all : ∀ l : Ledger, (ops.foldl perform l).table = performAll l.table ops := by
    induction ops with
    | nil => exact fun _ => rfl
    | cons op r ih =>
      intro l
      rw [List.foldl_cons,ih,table_perform]
      rfl
  exact all empty

theorem text_after (ops : List Operation) : (after ops).text = printAll [] ops := by
  have all : ∀ l : Ledger, (ops.foldl perform l).text = l.text ++ printAll l.table ops := by
    induction ops with
    | nil => exact fun l => (List.append_nil l.text).symm
    | cons op r ih =>
      intro l
      rw [List.foldl_cons,ih,table_perform,text_perform,List.append_assoc]
      rfl
  exact all empty

end Ledger

/-- **Jobs that are done are told once.** Let operations be performed on an empty table in any order. The jobs whose lines
    say that they are done are all different, and each job that came is either one of them or still in the table. A listing
    prints a line with the number, the state and the command of every job, and a notice prints one for those that are done.
    Either prints as done exactly the jobs that it removes, and leaves the others as they were, in their order and with
    their numbers, and none that is done. -/
theorem done_reported_once (ops : List Operation) :
    let l := Ledger.after ops
    l.table = performAll [] ops ∧ l.text = printAll [] ops ∧ l.told.Nodup ∧
      (l.told ++ l.jobs.map (·.1)).Perm (List.range l.count) ∧
      (l.table.list.1 = l.table.flatMap (fun j =>
          txt "[" ++ Numeral.ofNat j.id ++ txt "]  " ++ j.state.column ++ j.command ++ txt "\n") ∧
        (l.perform .list).text = l.text ++ l.table.list.1 ∧ (l.perform .list).table = l.table.list.2 ∧
        l.Tells (l.perform .list)) ∧
      l.table.notify.1 = (l.table.filter (·.isDone)).flatMap (fun j =>
          txt "[" ++ Numeral.ofNat j.id ++ txt "]   Done   " ++ j.command ++ txt "\n") ∧
        (l.perform .notify).text = l.text ++ l.table.notify.1 ∧ (l.perform .notify).table = l.table.notify.2 ∧
        l.Tells (l.perform .notify) := by
  intro l
  have sound : l.Sound := Ledger.sound_after ops
  have different : (l.told ++ l.jobs.map (·.1)).Nodup := sound.accounted.nodup_iff.mpr List.nodup_range
  have listing : l.table.list.1 = l.table.flatMap (fun j =>
      txt "[" ++ Numeral.ofNat j.id ++ txt "]  " ++ j.state.column ++ j.command ++ txt "\n") :=
    congrArg l.table.flatMap (funext listLine_eq)
  have unmarked : l.table.filter (fun j => j.isDone && !j.notified) = l.table.filter (·.isDone) := by
    rw [Ledger.table,List.filter_map,List.filter_map]
    exact congrArg (List.map _) sound.filter_notified
  refine ⟨Ledger.table_after ops,Ledger.text_after ops,(List.nodup_append.mp different).1,sound.accounted,
    ⟨listing,l.text_perform .list,l.table_perform .list,sound.tells_list⟩,?_,l.text_perform .notify,l.table_perform .notify,
    sound.tells_notify⟩
  show (l.table.filter (fun j => j.isDone && !j.notified)).flatMap notice = _
  rw [unmarked]
  rfl

/-- One job that ends and one that is stopped, goes on and ends; a listing and a notice tell of them. -/
theorem done_reported_once_two :
    let ops := [.insert 10 (txt "sleep 1") [10],.insert 20 (txt "cat | wc") [20,21],.markStopped 2,.mark 10 (WaitStatus.exited 0),
      .list,.list,.markRunning 2,.mark 21 (WaitStatus.exited 0),.notify,.mark 20 (WaitStatus.signaled 13),.notify,.list]
    let l := Ledger.after ops
    printAll [] ops =
        txt "[1]  Done      sleep 1\n[2]  Stopped   cat | wc\n[2]  Stopped   cat | wc\n[2]   Done   cat | wc\n" ∧
      l.told = [0,1] ∧ l.told.Nodup ∧ l.table = [] := by
  intro ops l
  obtain ⟨-,-,once,-⟩ := done_reported_once ops
  exact ⟨by decide,by decide,once,by decide⟩

end JobTable
end JobShell

import JobShell.Proofs.History.FileFormat
import JobShell.Proofs.Session.Acting
import JobShell.Proofs.System.KeptFile
import JobShell.System.Machine.Start
import Mathlib.Data.List.DropRight

/-!
# A history that is opened again

The file of a history holds all entries since it was last replaced, the history
the last of them. A clearing is not in the file until the file is replaced; apart
from that, the history that is read from the file is the one in memory.
-/
namespace JobShell

namespace Text

/-- The end of a trimmed text is not blank. -/
theorem getLast?_trim {t : Text} {c : Char} (last : (trim t).getLast? = some c) : isBlank c = false := by
  rw [trim,trimEnd,dropEndWhile,List.getLast?_reverse] at last
  have first := List.head?_dropWhile_not isBlank (trimStart t).reverse
  rw [last] at first
  simpa using first

end Text

namespace History

/-! ### The window -/

/-- What was dropped before an entry came is dropped after it. -/
theorem rtake_rtake_concat {α : Type} (l : List α) (x : α) (n : Nat) :
    (l.rtake n ++ [x]).rtake n = (l ++ [x]).rtake n := by
  cases n with
  | zero => rw [List.rtake_zero,List.rtake_zero]
  | succ k =>
    have inner : (l.rtake (k+1)).rtake k = l.rtake k := by
      rw [List.rtake_eq_reverse_take_reverse,List.rtake_eq_reverse_take_reverse,List.rtake_eq_reverse_take_reverse,
        List.reverse_reverse,List.take_take,Nat.min_eq_left (Nat.le_succ k)]
    rw [List.rtake_concat_succ,List.rtake_concat_succ,inner]

theorem getLast?_rtake {α : Type} (l : List α) {n : Nat} (room : 0 < n) : (l.rtake n).getLast? = l.getLast? := by
  rcases List.eq_nil_or_concat l with rfl | ⟨front,x,rfl⟩
  · rw [List.rtake_nil]
  · obtain ⟨k,rfl⟩ := Nat.exists_eq_add_one.mpr room
    rw [List.concat_eq_append,List.rtake_concat_succ,List.getLast?_concat,List.getLast?_concat]

theorem trim_entries (h : History) : h.trim.entries = h.entries.rtake h.capacity := by
  rw [trim]
  split
  · rfl
  · rename_i few
    rw [List.rtake,Nat.sub_eq_zero_of_le (Nat.le_of_not_gt few),List.drop_zero]

@[simp] theorem trim_capacity (h : History) : h.trim.capacity = h.capacity := by
  rw [trim]
  split <;> rfl

@[simp] theorem trim_file (h : History) : h.trim.file = h.file := by
  rw [trim]
  split <;> rfl

/-- What is stale stays so. -/
theorem trim_stale {h : History} (stale : h.stale = true) : h.trim.stale = true := by
  rw [trim]
  split
  · rfl
  · exact stale

theorem length_trim_entries (h : History) : h.trim.entries.length ≤ h.capacity := by
  rw [trim_entries,List.rtake,List.length_drop]
  omega

theorem push_entries (h : History) (e : HistoryEntry) : (h.push e).entries = (h.entries ++ [e]).rtake h.capacity :=
  trim_entries _

theorem load_entries (file : Text) (content : Option Bytes) (capacity : Nat) (dedup : Bool) :
    (load file content capacity dedup).entries = (HistoryEntry.ofFile (content.getD [])).rtake (max capacity 1) :=
  trim_entries _

/-- Every entry that a command makes can be written to a line and read back. -/
theorem isStorable_of_kept {h : History} {command : Text} {status : Int32} {time : UInt64} {e : HistoryEntry}
    (kept : h.entry? command status.toInt time.toNat = some e) : e.IsStorable := by
  unfold entry? at kept
  dsimp only at kept
  split_ifs at kept
  cases kept
  refine ⟨⟨status,rfl⟩,⟨time,rfl⟩,fun last => ?_⟩
  exact absurd (Text.getLast?_trim last) (by decide)

/-! ### The history and its file -/

/-- The file holds entries of which the history has the last ones. While a clearing is pending only the file has them,
    and the history knows that the file must be replaced. -/
structure IsKeptIn (h : History) (pending : Bool) (content : Bytes) : Prop where
  bounded : h.entries.length ≤ h.capacity
  storable : ∀ e ∈ h.entries, HistoryEntry.IsStorable e
  stale : pending = true → h.stale = true
  written : ∃ l : List HistoryEntry, content = l.flatMap HistoryEntry.bytes ∧ (∀ e ∈ l, HistoryEntry.IsStorable e) ∧
    (pending = false → h.entries = l.rtake h.capacity)

section
variable {h : History} {pending : Bool} {content : Bytes}

/-- An entry is added to the history and to the file. -/
theorem IsKeptIn.push (kept : h.IsKeptIn pending content) {e : HistoryEntry} (storable : e.IsStorable) :
    (h.push e).IsKeptIn pending (content ++ e.bytes) := by
  obtain ⟨l,rfl,all,last⟩ := kept.written
  have capacity : (h.push e).capacity = h.capacity := trim_capacity _
  have more : ∀ {k : List HistoryEntry}, (∀ x ∈ k, x.IsStorable) → ∀ x ∈ k ++ [e], x.IsStorable := by
    intro k old x mem
    rcases List.mem_append.mp mem with before | new
    · exact old x before
    · rw [List.mem_singleton.mp new]
      exact storable
  refine ⟨?_,fun x mem => ?_,fun p => trim_stale (kept.stale p),l ++ [e],by simp,more all,fun p => ?_⟩
  · rw [capacity]
    exact length_trim_entries _
  · rw [push_entries,List.rtake] at mem
    exact more kept.storable x (List.mem_of_mem_drop mem)
  · rw [push_entries,capacity,last p,rtake_rtake_concat]

theorem IsKeptIn.clear (kept : h.IsKeptIn pending content) : h.clear.IsKeptIn true content := by
  obtain ⟨l,whole,all,_⟩ := kept.written
  exact ⟨Nat.zero_le _,fun _ mem => absurd mem List.not_mem_nil,fun _ => rfl,l,whole,all,fun p => absurd p (by simp)⟩

/-- A file that was replaced holds the history and nothing else. -/
theorem IsKeptIn.replaced (kept : h.IsKeptIn pending content) : h.written.IsKeptIn false h.content := by
  have few : h.entries.length - h.capacity = 0 := Nat.sub_eq_zero_of_le kept.bounded
  have all : h.entries = h.entries.rtake h.capacity := by rw [List.rtake,few,List.drop_zero]
  exact ⟨kept.bounded,kept.storable,fun p => absurd p (by simp),h.entries,rfl,kept.storable,fun _ => all⟩

/-- A file that need not be replaced holds the history already. -/
theorem IsKeptIn.current (kept : h.IsKeptIn pending content) (fresh : h.stale = false) : h.IsKeptIn false content := by
  cases pending with
  | false => exact kept
  | true =>
    rw [kept.stale rfl] at fresh
    cases fresh

/-- The history that is read from a file is kept in it. -/
theorem IsKeptIn.load (content? : Option Bytes) (kept : h.IsKeptIn pending (content?.getD [])) (file : Text)
    (capacity : Nat) (dedup : Bool) :
    (History.load file content? capacity dedup).IsKeptIn false (content?.getD []) := by
  obtain ⟨l,whole,all,_⟩ := kept.written
  have entries : (History.load file content? capacity dedup).entries = l.rtake (max capacity 1) := by
    rw [load_entries,whole,HistoryEntry.ofFile_flatMap_bytes all]
  have size : (History.load file content? capacity dedup).capacity = max capacity 1 := trim_capacity _
  refine ⟨?_,fun e mem => ?_,fun p => absurd p (by simp),l,whole,all,fun _ => by rw [entries,size]⟩
  · rw [size]
    exact length_trim_entries _
  · rw [entries,List.rtake] at mem
    exact all e (List.mem_of_mem_drop mem)

/-- The history that is read from its own file. -/
theorem IsKeptIn.reopened {content? : Option Bytes} (kept : h.IsKeptIn false (content?.getD [])) (file : Text)
    {capacity : Nat} (size : h.capacity = max capacity 1) (dedup : Bool) :
    (History.load file content? capacity dedup).entries = h.entries := by
  obtain ⟨l,whole,all,last⟩ := kept.written
  rw [load_entries,whole,HistoryEntry.ofFile_flatMap_bytes all,last rfl,size]

end
end History

/-! ### Runs -/

/-- What is done with a history that has a file. -/
inductive HistoryStep where
  | append (command : Text) (status : Int32) (time : UInt64)
  | clear
  /-- The file is replaced when it holds more than the history. -/
  | flush
  /-- The history is read from the file again. -/
  | reopen
  deriving DecidableEq

namespace HistoryStep

/-- Whether a clearing that is not in the file is pending after a step. -/
def leavesPending (before : Bool) : HistoryStep → Bool
  | .append _ _ _ => before
  | .clear => true
  | .flush | .reopen => false

/-- After every clearing the file was replaced or read again. -/
def Settled (steps : List HistoryStep) : Prop :=
  ∀ before after, steps = before ++ .clear :: after → .flush ∈ after ∨ .reopen ∈ after

theorem settled_concat {x : HistoryStep} (other : x ≠ .clear) (l : List HistoryStep) :
    Settled (l ++ [x]) ↔ x = .flush ∨ x = .reopen ∨ Settled l := by
  constructor
  · intro settled
    by_cases flush : x = .flush
    · exact .inl flush
    by_cases reopen : x = .reopen
    · exact .inr (.inl reopen)
    refine .inr (.inr fun before after whole => ?_)
    have later := settled before (after ++ [x]) (by rw [whole]; simp)
    simpa [Ne.symm flush,Ne.symm reopen] using later
  · intro ends before after whole
    rcases List.eq_nil_or_concat after with rfl | ⟨front,y,rfl⟩
    · have last := congrArg List.getLast? whole
      simp only [List.getLast?_concat,Option.some.injEq] at last
      exact absurd last other
    · rw [List.concat_eq_append,← List.cons_append,← List.append_assoc] at whole
      obtain ⟨inner,last⟩ := List.append_inj' whole rfl
      obtain rfl : x = y := by simpa using last
      rcases ends with rfl | rfl | settled
      · exact .inl (by simp)
      · exact .inr (by simp)
      · rcases settled before front inner with flush | reopen
        · exact .inl (by simp [flush])
        · exact .inr (by simp [reopen])

/-- Whether a run is settled is found out step by step. -/
theorem settled_iff (steps : List HistoryStep) : Settled steps ↔ steps.foldl leavesPending false = false := by
  induction steps using List.reverseRecOn with
  | nil => exact ⟨fun _ => rfl,fun _ before after whole => absurd whole (by simp)⟩
  | append_singleton l x ih =>
    rw [List.foldl_append,List.foldl_cons,List.foldl_nil]
    cases x with
    | append command status time => rw [settled_concat (by simp),ih]; simp [leavesPending]
    | clear =>
      refine ⟨fun settled => ?_,fun h => absurd h (by simp [leavesPending])⟩
      rcases settled l [] rfl with flush | reopen
      · cases flush
      · cases reopen
    | flush => rw [settled_concat (by simp)]; simp [leavesPending]
    | reopen => rw [settled_concat (by simp)]; simp [leavesPending]

instance : DecidablePred Settled := fun steps => decidable_of_iff _ (settled_iff steps).symm

section
variable {σ : Type} [Kernel σ] (file : Text) (capacity : Nat) (dedup : Bool)

/-- A step in a session whose history has a file. -/
def act : HistoryStep → Act σ Unit
  | .append command status time => do
    let _ ← Act.remember command status.toInt time.toNat
  | .clear => Act.modifyShell (fun s => { s with history := s.history.clear })
  | .flush => do
    let _ ← Act.saveHistory
  | .reopen => do
    let content := (Kernel.contentOf (← Act.system) file).toOption
    Act.modifyShell (fun s => { s with history := History.load file content capacity dedup })

/-- Steps one after the other. -/
def run : List HistoryStep → Act σ Unit
  | [] => return ()
  | x :: r => do
    x.act file capacity dedup
    run r

/-- A session whose history is kept in the file. -/
structure IsKept (usual : σ → Prop) (pending : Bool) (s : Session σ) : Prop where
  usual : usual s.system
  filed : s.shell.history.file = some file
  size : s.shell.history.capacity = max capacity 1
  kept : s.shell.history.IsKeptIn pending ((Kernel.contentOf s.system file).toOption.getD [])

variable {file capacity} {usual : σ → Prop} {pending : Bool}

/-- What a step comes to, and that the history is kept in its file after it. -/
theorem IsKept.act (keeps : KeepsFile file usual) {s : Session σ} (h : IsKept file capacity usual pending s)
    (x : HistoryStep) :
    ∃ t, Act.Yields (x.act file capacity dedup) s () t ∧ IsKept file capacity usual (x.leavesPending pending) t := by
  obtain ⟨ordinary,filed,size,kept⟩ := h
  cases x with
  | append command status time =>
    cases entry : s.shell.history.entry? command status.toInt time.toNat with
    | none => exact ⟨s,(Act.yields_remember_none entry).bind (Act.yields_pure () s),ordinary,filed,size,kept⟩
    | some e =>
      obtain ⟨t,appended,ordinary',content⟩ := keeps.append s.system e.bytes ordinary
      refine ⟨_,(Act.yields_remember_some entry filed appended).bind (Act.yields_pure () _),ordinary',?_,?_,?_⟩
      · exact (History.trim_file _).trans filed
      · exact (History.trim_capacity _).trans size
      · have more := kept.push (History.isStorable_of_kept entry)
        rw [content]
        exact more
  | clear =>
    have cleared := Act.yields_modifyShell (fun shell => { shell with history := shell.history.clear }) s
    exact ⟨_,cleared,ordinary,filed,size,kept.clear⟩
  | flush =>
    -- A file that is not stale is left as it is, and then no clearing can be pending.
    cases stale : s.shell.history.stale with
    | false =>
      have current : s.shell.history.replacement? = none := by rw [History.replacement?,stale]; rfl
      exact ⟨s,(Act.yields_saveHistory_none current).bind (Act.yields_pure () s),ordinary,filed,size,kept.current stale⟩
    | true =>
      have due : s.shell.history.replacement? = some (file,s.shell.history.content) := by
        rw [History.replacement?,stale,filed]; rfl
      obtain ⟨t,replaced,ordinary',content⟩ := keeps.replace s.system s.shell.history.content ordinary
      refine ⟨_,(Act.yields_saveHistory_some due replaced).bind (Act.yields_pure () _),ordinary',filed,size,?_⟩
      rw [content]
      exact kept.replaced
  | reopen =>
    refine ⟨_,(Act.yields_system s).bind (Act.yields_modifyShell _ s),ordinary,rfl,History.trim_capacity _,?_⟩
    exact kept.load _ file capacity dedup

/-- After a run the history is kept in its file. -/
theorem IsKept.run (keeps : KeepsFile file usual) (steps : List HistoryStep) {s : Session σ}
    (h : IsKept file capacity usual pending s) :
    ∃ t, Act.Yields (run file capacity dedup steps) s () t ∧
      IsKept file capacity usual (steps.foldl leavesPending pending) t := by
  induction steps generalizing s pending with
  | nil => exact ⟨s,Act.yields_pure () s,h⟩
  | cons x r ih =>
    obtain ⟨t,first,next⟩ := IsKept.act dedup keeps h x
    obtain ⟨u,rest,last⟩ := ih next
    exact ⟨u,first.bind rest,last⟩

end
end HistoryStep

/-- **A reopened history is the history.** A session begins with the history of a file that is missing. Whatever is
    done with the history then, reading the file again gives the entries in memory, unless a clearing came after the
    last time that the file was replaced or read. -/
theorem History.load_entries_of_settled {σ : Type} [Kernel σ] {file : Text} {usual : σ → Prop}
    (keeps : KeepsFile file usual) (capacity : Nat) (dedup : Bool) {s : Session σ} (ordinary : usual s.system)
    (missing : (Kernel.contentOf s.system file).toOption = none)
    (opened : s.shell.history = .load file none capacity dedup) {steps : List HistoryStep}
    (settled : HistoryStep.Settled steps) :
    ∃ t, Act.Yields (HistoryStep.run file capacity dedup steps) s () t ∧
      (History.load file (Kernel.contentOf t.system file).toOption capacity dedup).entries = t.shell.history.entries := by
  have empty : (History.inMemory capacity dedup).IsKeptIn false [] :=
    ⟨Nat.zero_le _,fun _ mem => absurd mem List.not_mem_nil,fun p => absurd p (by simp),[],rfl,
      fun _ mem => absurd mem List.not_mem_nil,fun _ => (List.rtake_nil _).symm⟩
  have start : HistoryStep.IsKept file capacity usual false s := by
    refine ⟨ordinary,by rw [opened]; rfl,by rw [opened]; exact History.trim_capacity _,?_⟩
    rw [missing,opened]
    exact History.IsKeptIn.load none empty file capacity dedup
  obtain ⟨t,result,_,_,size,kept⟩ := HistoryStep.IsKept.run dedup keeps steps start
  rw [(HistoryStep.settled_iff steps).mp settled] at kept
  exact ⟨t,result,kept.reopened file size dedup⟩

/-- A run on a machine without files, with line feeds, tabs and backslashes in commands and more of them than the window
    takes. -/
theorem History.load_entries_of_settled_start :
    let m : Machine := .start ⟨[]⟩ [] [] .empty 0
    let file := txt "history"
    let steps := [HistoryStep.append (txt "echo \x27a\n\tb\\n\r\x27") 3 1700000000,.append (txt " ls ") 0 1700000001,
      .append (txt "ls") (-1) 1700000002,.append (txt "cat") 0 1700000003,.clear,.append (txt "pwd") 0 0,.flush,
      .append (txt "echo") 130 18446744073709551615]
    ∃ t, Act.Yields (HistoryStep.run file 2 true steps) ⟨Shell.start (.load file none 2 true) m,m⟩ () t ∧
      (History.load file (Kernel.contentOf t.system file).toOption 2 true).entries = t.shell.history.entries := by
  intro m file steps
  have spot : Machine.HasSpot file [file] m := ⟨_,rfl,by decide,.free [file],rfl,rfl,.inl rfl⟩
  exact History.load_entries_of_settled (Machine.keepsFile file [file]) 2 true spot rfl rfl (by decide)

end JobShell

import JobShell.Proofs.History.Reopening
import Mathlib.Data.List.Infix
import Mathlib.Logic.Function.Basic

/-!
# Shells that share a history file

Several shells keep their histories in one file. Each of them adds its entries to
the end of the file, so the file has the entries of all in the order in which they
came. A shell that has dropped entries replaces the file by its own history when
it ends. At no time is an entry missing from the end of the file exactly when
every such replacement is by a history that is the end of all entries itself
(`History.load_entries_shared_iff`).
-/
namespace JobShell

namespace History

/-- What was dropped before entries came is dropped after them. -/
theorem rtake_append_congr {α : Type} {l k : List α} {n : Nat} (same : l.rtake n = k.rtake n) (m : List α) :
    (l ++ m).rtake n = (k ++ m).rtake n := by
  induction m using List.reverseRecOn with
  | nil => rwa [List.append_nil,List.append_nil]
  | append_singleton m x ih =>
    rw [← List.append_assoc,← List.append_assoc,← rtake_rtake_concat (l ++ m),ih,rtake_rtake_concat]

/-- The entry that a command makes has its text without the blanks around it. -/
theorem eq_of_entry? {h : History} {command : Text} {status : Int} {time : Nat} {e : HistoryEntry}
    (kept : h.entry? command status time = some e) : e = ⟨Text.trim command,status,time⟩ := by
  unfold entry? at kept
  dsimp only at kept
  split_ifs at kept
  exact (Option.some.inj kept).symm

/-- A history with a file whose entries can be written to it. -/
structure IsWindow (file : Text) (capacity : Nat) (h : History) : Prop where
  filed : h.file = some file
  size : h.capacity = max capacity 1
  bounded : h.entries.length ≤ h.capacity
  storable : ∀ e ∈ h.entries, HistoryEntry.IsStorable e

theorem IsWindow.push {file : Text} {capacity : Nat} {h : History} (window : h.IsWindow file capacity)
    {e : HistoryEntry} (storable : e.IsStorable) : (h.push e).IsWindow file capacity := by
  have size : (h.push e).capacity = h.capacity := trim_capacity _
  refine ⟨(trim_file _).trans window.filed,size.trans window.size,?_,fun x mem => ?_⟩
  · rw [size]
    exact length_trim_entries _
  · rw [push_entries,List.rtake] at mem
    rcases List.mem_append.mp (List.mem_of_mem_drop mem) with old | new
    · exact window.storable x old
    · rw [List.mem_singleton.mp new]
      exact storable

/-- The history of a file that was written entry by entry is a window of these. -/
theorem isWindow_load {content : Option Bytes} {l : List HistoryEntry} (storable : ∀ e ∈ l, HistoryEntry.IsStorable e)
    (written : content.getD [] = l.flatMap HistoryEntry.bytes) (file : Text) (capacity : Nat) (dedup : Bool) :
    (load file content capacity dedup).IsWindow file capacity ∧
      (load file content capacity dedup).entries = l.rtake (max capacity 1) := by
  have entries : (load file content capacity dedup).entries = l.rtake (max capacity 1) := by
    rw [load_entries,written,HistoryEntry.ofFile_flatMap_bytes storable]
  have size : (load file content capacity dedup).capacity = max capacity 1 := trim_capacity _
  refine ⟨⟨rfl,size,?_,fun e mem => ?_⟩,entries⟩
  · rw [size]
    exact length_trim_entries _
  · rw [entries,List.rtake] at mem
    exact storable e (List.mem_of_mem_drop mem)

end History

/-- Shells over one operating system. -/
structure Neighbours (ι σ : Type) where
  shells : ι → Shell
  system : σ

/-- What one of the shells does with its history. -/
inductive Turn (ι : Type) where
  | append (who : ι) (command : Text) (status : Int32) (time : UInt64)
  /-- The file is replaced when it holds more than the history. -/
  | flush (who : ι)
  deriving DecidableEq

namespace Turn
variable {ι σ : Type} [Kernel σ]

/-- The shell whose turn it is. -/
def who : Turn ι → ι
  | .append i _ _ _ => i
  | .flush i => i

/-- What the shell does, and the entries that it adds to its history by that. -/
def act : Turn ι → Act σ (List HistoryEntry)
  | .append _ command status time => do
    if ← Act.remember command status.toInt time.toNat then
      return [⟨Text.trim command,status.toInt,time.toNat⟩]
    else return []
  | .flush _ => do
    let _ ← Act.saveHistory
    return []

end Turn

namespace Neighbours
variable {ι σ : Type} [DecidableEq ι]

/-- The shells after one of them has acted. -/
def after (n : Neighbours ι σ) (i : ι) (t : Session σ) : Neighbours ι σ :=
  ⟨Function.update n.shells i t.shell,t.system⟩

theorem after_self (n : Neighbours ι σ) (i : ι) : n.after i ⟨n.shells i,n.system⟩ = n := by
  rw [after,Function.update_eq_self]

theorem after_shells_self (n : Neighbours ι σ) (i : ι) (t : Session σ) : (n.after i t).shells i = t.shell := by
  simp [after]

theorem after_shells_of_ne (n : Neighbours ι σ) {i j : ι} (t : Session σ) (other : j ≠ i) :
    (n.after i t).shells j = n.shells j := by
  simp [after,other]

variable [Kernel σ]

/-- The entries that are added in a turn, and the shells after it. -/
def turn (n : Neighbours ι σ) (x : Turn ι) : List HistoryEntry × Neighbours ι σ :=
  let r := x.act.run ⟨n.shells x.who,n.system⟩
  (r.1.toOption.getD [],n.after x.who r.2)

/-- The entries that are added in turns, in their order, and the shells after them. -/
def run (n : Neighbours ι σ) : List (Turn ι) → List HistoryEntry × Neighbours ι σ
  | [] => ([],n)
  | x :: r => ((n.turn x).1 ++ ((n.turn x).2.run r).1,((n.turn x).2.run r).2)

theorem turn_of_yields {n : Neighbours ι σ} {x : Turn ι} {l : List HistoryEntry} {t : Session σ}
    (result : Act.Yields x.act ⟨n.shells x.who,n.system⟩ l t) : n.turn x = (l,n.after x.who t) := by
  rw [Act.Yields] at result
  rw [turn,result]
  rfl

theorem run_concat (n : Neighbours ι σ) (l : List (Turn ι)) (x : Turn ι) :
    n.run (l ++ [x]) = ((n.run l).1 ++ ((n.run l).2.turn x).1,((n.run l).2.turn x).2) := by
  induction l generalizing n with
  | nil => simp [run]
  | cons y r ih => rw [List.cons_append,run,ih,run,List.append_assoc]

/-! ### What the file holds -/

/-- The file holds entries, and the history of every shell is a window that is kept in it. -/
structure Shares (file : Text) (capacity : Nat) (usual : σ → Prop) (l : List HistoryEntry) (n : Neighbours ι σ) :
    Prop where
  usual : usual n.system
  window : ∀ i, (n.shells i).history.IsWindow file capacity
  written : (Kernel.contentOf n.system file).toOption.getD [] = l.flatMap HistoryEntry.bytes
  storable : ∀ e ∈ l, HistoryEntry.IsStorable e

section
variable {file : Text} {capacity : Nat} {usual : σ → Prop} {l : List HistoryEntry} {n : Neighbours ι σ}

omit [DecidableEq ι] in
/-- What a shell finds that opens the file. -/
theorem Shares.load_entries (h : Shares file capacity usual l n) (dedup : Bool) :
    (History.load file (Kernel.contentOf n.system file).toOption capacity dedup).entries =
      l.rtake (max capacity 1) := (History.isWindow_load h.storable h.written file capacity dedup).2

/-- The shells after one of them has changed the file and its history. -/
theorem Shares.after (h : Shares file capacity usual l n) (i : ι) {t : Session σ} {k : List HistoryEntry}
    (ordinary : usual t.system) (window : t.shell.history.IsWindow file capacity)
    (written : (Kernel.contentOf t.system file).toOption.getD [] = k.flatMap HistoryEntry.bytes)
    (storable : ∀ e ∈ k, HistoryEntry.IsStorable e) : Shares file capacity usual k (n.after i t) := by
  refine ⟨ordinary,fun j => ?_,written,storable⟩
  by_cases same : j = i
  · subst same
    rw [after_shells_self]
    exact window
  · rw [after_shells_of_ne n t same]
    exact h.window j

/-- An entry that is added comes to the end of the file; a command that makes no entry changes nothing. -/
theorem Shares.append (keeps : KeepsFile file usual) (h : Shares file capacity usual l n) (i : ι) (command : Text)
    (status : Int32) (time : UInt64) :
    ∃ new m, n.turn (.append i command status time) = (new,m) ∧ Shares file capacity usual (l ++ new) m := by
  cases entry : (n.shells i).history.entry? command status.toInt time.toNat with
  | none =>
    have nothing : Act.Yields (Turn.append i command status time).act ⟨n.shells i,n.system⟩ []
        ⟨n.shells i,n.system⟩ := (Act.yields_remember_none entry).bind (Act.yields_pure [] _)
    refine ⟨[],n,?_,by rwa [List.append_nil]⟩
    rw [turn_of_yields nothing]
    exact congrArg _ (after_self n i)
  | some e =>
    obtain ⟨t,appended,ordinary,content⟩ := keeps.append n.system e.bytes h.usual
    have storable := History.isStorable_of_kept entry
    have added : Act.Yields (Turn.append i command status time).act ⟨n.shells i,n.system⟩
        [⟨Text.trim command,status.toInt,time.toNat⟩] ⟨{ n.shells i with history := (n.shells i).history.push e },t⟩ :=
      (Act.yields_remember_some entry (h.window i).filed appended).bind (Act.yields_pure _ _)
    rw [← History.eq_of_entry? entry] at added
    refine ⟨[e],_,turn_of_yields added,h.after i ordinary ((h.window i).push storable) ?_ fun x mem => ?_⟩
    · rw [content,List.flatMap_append,← h.written]
      simp [Except.toOption]
    · rcases List.mem_append.mp mem with old | new
      · exact h.storable x old
      · rw [List.mem_singleton.mp new]
        exact storable

/-- A file that holds no more than the history is left as it is. -/
theorem turn_flush_current {i : ι} (current : (n.shells i).history.stale = false) : n.turn (.flush i) = ([],n) := by
  have none_due : (n.shells i).history.replacement? = none := by rw [History.replacement?,current]; rfl
  have nothing : Act.Yields (Turn.flush i).act ⟨n.shells i,n.system⟩ [] ⟨n.shells i,n.system⟩ :=
    (Act.yields_saveHistory_none none_due).bind (Act.yields_pure [] _)
  rw [turn_of_yields nothing]
  exact congrArg _ (after_self n i)

/-- A file that is replaced holds the history of the shell that replaces it, and nothing else. -/
theorem Shares.flush (keeps : KeepsFile file usual) (h : Shares file capacity usual l n) {i : ι}
    (stale : (n.shells i).history.stale = true) :
    ∃ m, n.turn (.flush i) = ([],m) ∧ Shares file capacity usual (n.shells i).history.entries m := by
  obtain ⟨filed,size,bounded,storable⟩ := h.window i
  have due : (n.shells i).history.replacement? = some (file,(n.shells i).history.content) := by
    rw [History.replacement?,stale,filed]; rfl
  obtain ⟨t,replaced,ordinary,content⟩ := keeps.replace n.system (n.shells i).history.content h.usual
  have wrote : Act.Yields (Turn.flush i).act ⟨n.shells i,n.system⟩ []
      ⟨{ n.shells i with history := (n.shells i).history.written },t⟩ :=
    (Act.yields_saveHistory_some due replaced).bind (Act.yields_pure [] _)
  refine ⟨_,turn_of_yields wrote,h.after i ordinary ⟨filed,size,bounded,storable⟩ ?_ storable⟩
  rw [content]
  rfl

/-- After turns the file still holds entries, and the histories are windows that are kept in it. -/
theorem Shares.run (keeps : KeepsFile file usual) (h : Shares file capacity usual l n) (turns : List (Turn ι)) :
    ∃ k, Shares file capacity usual k (n.run turns).2 := by
  induction turns generalizing n l with
  | nil => exact ⟨l,h⟩
  | cons x r ih =>
    cases x with
    | append i command status time =>
      obtain ⟨new,m,turn,next⟩ := h.append keeps i command status time
      rw [Neighbours.run,turn]
      exact ih next
    | flush i =>
      rw [Neighbours.run]
      cases stale : (n.shells i).history.stale with
      | false =>
        rw [turn_flush_current stale]
        exact ih h
      | true =>
        obtain ⟨m,turn,next⟩ := h.flush keeps stale
        rw [turn]
        exact ih next

/-- The file has the last of all entries before a turn. It has them after the turn unless the turn puts a history in its
    place that has not. -/
theorem Shares.turn_iff (keeps : KeepsFile file usual) (h : Shares file capacity usual l n) {all : List HistoryEntry}
    (same : l.rtake (max capacity 1) = all.rtake (max capacity 1)) (dedup : Bool) (x : Turn ι) :
    (History.load file (Kernel.contentOf (n.turn x).2.system file).toOption capacity dedup).entries =
        (all ++ (n.turn x).1).rtake (max capacity 1) ↔
      ∀ i, x = .flush i → (n.shells i).history.stale = true →
        (n.shells i).history.entries = all.rtake (max capacity 1) := by
  cases x with
  | append i command status time =>
    obtain ⟨new,m,turn,next⟩ := h.append keeps i command status time
    rw [turn,next.load_entries dedup]
    exact iff_of_true (History.rtake_append_congr same new) (fun j equal => by cases equal)
  | flush i =>
    cases stale : (n.shells i).history.stale with
    | false =>
      rw [turn_flush_current stale,h.load_entries dedup,List.append_nil]
      refine iff_of_true same (fun j equal due => ?_)
      cases equal
      rw [stale] at due
      cases due
    | true =>
      obtain ⟨m,turn,next⟩ := h.flush keeps stale
      have all_mine : (n.shells i).history.entries.rtake (max capacity 1) = (n.shells i).history.entries := by
        have few := (h.window i).bounded
        rw [(h.window i).size] at few
        rw [List.rtake,Nat.sub_eq_zero_of_le few,List.drop_zero]
      rw [turn,next.load_entries dedup,all_mine,List.append_nil]
      constructor
      · intro equal j flush _
        cases flush
        exact equal
      · intro equal
        exact equal i rfl stale

end
end Neighbours

/-- What holds of all beginnings of a list holds of those before its last element and of the list itself. -/
theorem forall_prefix_concat {α : Type} {P : List α → Prop} (l : List α) (x : α) :
    (∀ k, k <+: l ++ [x] → P k) ↔ (∀ k, k <+: l → P k) ∧ P (l ++ [x]) := by
  constructor
  · intro all
    exact ⟨fun k part => all k (part.trans (List.prefix_append l [x])),all _ List.prefix_rfl⟩
  · rintro ⟨before,last⟩ k part
    rcases List.prefix_concat_iff.mp part with rfl | part
    · exact last
    · exact before k part

/-- **No entry is lost.** Shells open a file that is missing, or that entries were written to, and take turns in adding
    to their histories and in replacing the file. All the time the file has the last of all entries, those that it had in
    the beginning and those of all shells in the order in which they came, exactly when every shell that replaces the file
    has the last of all entries in its own history then. -/
theorem History.load_entries_shared_iff {ι σ : Type} [DecidableEq ι] [Kernel σ] {file : Text} {usual : σ → Prop}
    (keeps : KeepsFile file usual) (capacity : Nat) (dedup : ι → Bool) (dedup' : Bool) {n : Neighbours ι σ}
    (ordinary : usual n.system) {l : List HistoryEntry} (storable : ∀ e ∈ l, HistoryEntry.IsStorable e)
    (written : (Kernel.contentOf n.system file).toOption.getD [] = l.flatMap HistoryEntry.bytes)
    (opened : ∀ i, (n.shells i).history = .load file (Kernel.contentOf n.system file).toOption capacity (dedup i))
    (turns : List (Turn ι)) :
    (∀ done, done <+: turns →
      (History.load file (Kernel.contentOf (n.run done).2.system file).toOption capacity dedup').entries =
        (l ++ (n.run done).1).rtake (max capacity 1)) ↔
    ∀ done i, done ++ [.flush i] <+: turns → ((n.run done).2.shells i).history.stale = true →
      ((n.run done).2.shells i).history.entries = (l ++ (n.run done).1).rtake (max capacity 1) := by
  have start : Neighbours.Shares file capacity usual l n :=
    ⟨ordinary,fun i => by rw [opened i]; exact (isWindow_load storable written file capacity _).1,written,storable⟩
  induction turns using List.reverseRecOn with
  | nil =>
    refine iff_of_true (fun done part => ?_) (fun done i part => ?_)
    · rw [List.prefix_nil.mp part,Neighbours.run,List.append_nil]
      exact start.load_entries dedup'
    · simp at part
  | append_singleton turns x ih =>
    obtain ⟨k,shares⟩ := start.run keeps turns
    rw [forall_prefix_concat,Neighbours.run_concat]
    constructor
    · rintro ⟨first,last⟩ done i part stale
      have before := ih.mp first
      have same := (shares.load_entries dedup').symm.trans (first turns List.prefix_rfl)
      rw [← List.append_assoc,shares.turn_iff keeps same dedup'] at last
      rcases List.prefix_concat_iff.mp part with whole | part
      · obtain ⟨rfl,flush⟩ := List.append_inj' whole rfl
        exact last i (List.singleton_inj.mp flush).symm stale
      · exact before done i part stale
    · intro all
      have before := fun done i (part : done ++ [.flush i] <+: turns) =>
        all done i (part.trans (List.prefix_append turns [x]))
      have first := ih.mpr before
      have same := (shares.load_entries dedup').symm.trans (first turns List.prefix_rfl)
      rw [← List.append_assoc,shares.turn_iff keeps same dedup']
      refine ⟨first,fun i flush stale => ?_⟩
      rw [flush] at all
      exact all turns i List.prefix_rfl stale

/-- Two shells that open a file with three entries for a window of two: one adds an entry, the other two and a third that it
    has already, and then replaces the file. -/
theorem History.load_entries_shared_two :
    let l := [HistoryEntry.mk (txt "a\nb") 1 1,⟨txt "ls",0,2⟩,⟨txt "cd",-1,3⟩]
    let file := txt "history"
    let m : Machine := .start ⟨[([file],.file false (l.flatMap HistoryEntry.bytes))]⟩ [] [] .empty 0
    let content := (Kernel.contentOf m file).toOption
    let n : Neighbours Bool Machine := ⟨fun i => Shell.start (.load file content 2 i) m,m⟩
    let turns := [Turn.append false (txt "pwd") 0 4,.append true (txt " w") 0 5,.append true (txt "id") 0 6,
      .append true (txt "id ") 0 7,.flush true]
    (∀ done, done <+: turns →
      (History.load file (Kernel.contentOf (n.run done).2.system file).toOption 2 true).entries =
        (l ++ (n.run done).1).rtake (max 2 1)) ↔
    ∀ done i, done ++ [.flush i] <+: turns → ((n.run done).2.shells i).history.stale = true →
      ((n.run done).2.shells i).history.entries = (l ++ (n.run done).1).rtake (max 2 1) := by
  intro l file m content n turns
  have spot : Machine.HasSpot file [file] m :=
    ⟨_,rfl,by decide,.found [file] _,rfl,rfl,.inr ⟨false,_,rfl⟩⟩
  have storable : ∀ e ∈ l, HistoryEntry.IsStorable e := by
    intro e mem
    simp only [l,List.mem_cons,List.not_mem_nil,or_false] at mem
    rcases mem with rfl | rfl | rfl
    · exact ⟨⟨1,rfl⟩,⟨1,rfl⟩,by decide⟩
    · exact ⟨⟨0,rfl⟩,⟨2,rfl⟩,by decide⟩
    · exact ⟨⟨-1,rfl⟩,⟨3,rfl⟩,by decide⟩
  exact History.load_entries_shared_iff (Machine.keepsFile file [file]) 2 id true spot storable (by decide +kernel)
    (fun _ => rfl) turns

/-- Two shells open a file that is missing, for a window of one entry. One of them adds two entries, so that it drops the
    first, then the other adds one. When the first shell replaces the file the last entry of all is gone. -/
theorem History.load_entries_shared_lost :
    let file := txt "history"
    let m : Machine := .start ⟨[]⟩ [] [] .empty 0
    let n : Neighbours Bool Machine := ⟨fun _ => Shell.start (.load file none 1 true) m,m⟩
    let turns := [Turn.append true (txt "a") 0 1,.append true (txt "b") 0 2,.append false (txt "c") 0 3,.flush true]
    Machine.HasSpot file [file] m ∧ (Kernel.contentOf m file).toOption = none ∧
      (n.run turns).1 = [⟨txt "a",0,1⟩,⟨txt "b",0,2⟩,⟨txt "c",0,3⟩] ∧
      (History.load file (Kernel.contentOf (n.run turns).2.system file).toOption 1 true).entries = [⟨txt "b",0,2⟩] ∧
      (History.load file (Kernel.contentOf (n.run turns).2.system file).toOption 1 true).entries ≠
        ([] ++ (n.run turns).1).rtake (max 1 1) := by
  intro file m n turns
  exact ⟨⟨_,rfl,by decide,.free [file],rfl,rfl,.inl rfl⟩,by decide +kernel,by decide +kernel,by decide +kernel,
    by decide +kernel⟩

end JobShell

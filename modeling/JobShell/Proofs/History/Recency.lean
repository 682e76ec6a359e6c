import JobShell.Proofs.History.Sharing
import JobShell.Proofs.Line.Searching
import Mathlib.Data.List.Destutter

/-!
# What a history remembers

A command that is blank is not worth keeping, nor is one that repeats the command
kept before it. A history has room for some entries only, and compares a command
with the last of them. It holds nevertheless the end of what a history without
bounds would hold (`History.recent_window`): there is room for at least one entry,
so the one that a command is compared with is never dropped.
-/
namespace JobShell

/-- The entry with the text of its command without the blanks around it. -/
def HistoryEntry.trimmed (e : HistoryEntry) : HistoryEntry := { e with command := Text.trim e.command }

namespace History

/-! ### Neighbours that repeat each other -/

section
variable {α : Type} {R : α → α → Prop} [DecidableRel R]

theorem destutter'_concat (a x : α) (l : List α) :
    (l ++ [x]).destutter' R a =
      l.destutter' R a ++ if R ((l.destutter' R a).getLast (l.destutter'_ne_nil R)) x then [x] else [] := by
  induction l generalizing a with
  | nil =>
    by_cases rel : R a x
    · simp [rel]
    · simp [rel]
  | cons b r ih =>
    by_cases rel : R a b
    · simp only [List.cons_append,List.destutter'_cons_pos _ rel,ih,List.getLast_cons (r.destutter'_ne_nil R)]
    · simp only [List.cons_append,List.destutter'_cons_neg _ rel,ih]

/-- A last element is left when it is related to the last one that is left before it. -/
theorem destutter_concat (l : List α) (x : α) :
    (l ++ [x]).destutter R = l.destutter R ++ if ∀ y ∈ (l.destutter R).getLast?, R y x then [x] else [] := by
  cases l with
  | nil => rfl
  | cons a r =>
    have last := List.getLast?_eq_some_getLast (r.destutter'_ne_nil R (a := a))
    rw [List.cons_append,List.destutter_cons',List.destutter_cons',destutter'_concat,last]
    simp

end

/-! ### Commands that are kept -/

/-- Commands are added one after the other. The result also tells for each of them whether it was kept. -/
def appendAll (h : History) : List HistoryEntry → History × List Bool
  | [] => (h,[])
  | e :: r =>
    let first := h.append e.command e.status e.time
    let rest := first.1.appendAll r
    (rest.1,first.2 :: rest.2)

/-- The commands that are worth keeping: those that are not blank, and with `dedup` none that repeats the one that is
    kept before it. -/
def kept (dedup : Bool) (l : List HistoryEntry) : List HistoryEntry :=
  let l := (l.map (·.trimmed)).filter (·.command ≠ [])
  if dedup then l.destutter (fun a b => a.command ≠ b.command) else l

/-- Whether a command is worth keeping after the last one that was kept. -/
def Adds (dedup : Bool) (last : Option HistoryEntry) (e : HistoryEntry) : Prop :=
  e.trimmed.command ≠ [] ∧ (dedup = true → ∀ x ∈ last, x.command ≠ e.trimmed.command)

instance (dedup : Bool) (last : Option HistoryEntry) (e : HistoryEntry) : Decidable (Adds dedup last e) :=
  inferInstanceAs (Decidable (_ ∧ _))

theorem kept_concat (dedup : Bool) (l : List HistoryEntry) (e : HistoryEntry) :
    kept dedup (l ++ [e]) = kept dedup l ++ if Adds dedup (kept dedup l).getLast? e then [e.trimmed] else [] := by
  by_cases blank : e.trimmed.command = []
  · simp [kept,Adds,blank]
  · cases dedup with
    | false => simp [kept,Adds,blank]
    | true =>
      simp [kept,Adds,blank,destutter_concat]

/-- A command makes an entry when it is worth keeping after the last entry. -/
theorem entry?_eq (h : History) (e : HistoryEntry) :
    h.entry? e.command e.status e.time = if Adds h.dedup h.entries.getLast? e then some e.trimmed else none := by
  have repeats : (h.entries.getLast?.map (·.command)) = some (Text.trim e.command) ↔
      ∃ x ∈ h.entries.getLast?, x.command = e.trimmed.command := by simp [HistoryEntry.trimmed]
  unfold entry?
  by_cases adds : Adds h.dedup h.entries.getLast? e
  · have filled : Text.trim e.command ≠ [] := adds.1
    have fresh : ¬(h.dedup = true ∧ (h.entries.getLast?.map (·.command)) = some (Text.trim e.command)) := by
      rintro ⟨dedup,same⟩
      obtain ⟨x,last,equal⟩ := repeats.mp same
      exact adds.2 dedup x last equal
    rw [if_pos adds]
    simp only [List.isEmpty_iff,filled,if_false,Bool.and_eq_true,decide_eq_true_eq,fresh]
    rfl
  · rw [if_neg adds]
    by_cases blank : Text.trim e.command = []
    · simp [blank]
    · have again : h.dedup = true ∧ (h.entries.getLast?.map (·.command)) = some (Text.trim e.command) := by
        rw [repeats]
        by_contra fresh
        refine adds ⟨blank,?_⟩
        intro dedup x last equal
        exact fresh ⟨dedup,x,last,equal⟩
      simp only [List.isEmpty_iff,blank,if_false,Bool.and_eq_true,decide_eq_true_eq,again,and_self,if_true]

@[simp] theorem trim_dedup (h : History) : h.trim.dedup = h.dedup := by
  rw [trim]
  split <;> rfl

/-- A history that holds the end of what was kept of commands, as much as it has room for. -/
structure Recalls (dedup : Bool) (capacity : Nat) (l : List HistoryEntry) (h : History) : Prop where
  rule : h.dedup = dedup
  size : h.capacity = max capacity 1
  entries : h.entries = (kept dedup l).rtake (max capacity 1)

theorem recalls_inMemory (dedup : Bool) (capacity : Nat) : Recalls dedup capacity [] (inMemory capacity dedup) := by
  refine ⟨rfl,rfl,?_⟩
  cases dedup <;> simp [kept,inMemory]

section
variable {dedup : Bool} {capacity : Nat} {l : List HistoryEntry} {h : History}

/-- One more command. It is compared with the last entry, which is the last one that was kept. -/
theorem Recalls.append (recalls : Recalls dedup capacity l h) (e : HistoryEntry) :
    Recalls dedup capacity (l ++ [e]) (h.append e.command e.status e.time).1 ∧
      (h.append e.command e.status e.time).2 = decide (Adds dedup (kept dedup l).getLast? e) := by
  obtain ⟨rule,size,entries⟩ := recalls
  have last : h.entries.getLast? = (kept dedup l).getLast? := by
    rw [entries,getLast?_rtake]
    omega
  rw [History.append, entry?_eq,rule,last]
  by_cases adds : Adds dedup (kept dedup l).getLast? e
  · rw [if_pos adds]
    refine ⟨⟨?_,?_,?_⟩,(decide_eq_true adds).symm⟩
    · exact (trim_dedup _).trans rule
    · exact (trim_capacity _).trans size
    · rw [push_entries,kept_concat,if_pos adds,size,entries,rtake_rtake_concat]
  · rw [if_neg adds]
    refine ⟨⟨rule,size,?_⟩,(decide_eq_false adds).symm⟩
    rw [kept_concat,if_neg adds,List.append_nil,entries]

/-- Any commands, and which of them were kept. -/
theorem Recalls.appendAll (recalls : Recalls dedup capacity l h) (r : List HistoryEntry) :
    Recalls dedup capacity (l ++ r) (h.appendAll r).1 ∧
      ∀ i, (h.appendAll r).2[i]? =
        r[i]?.map (fun e => decide (Adds dedup (kept dedup (l ++ r.take i)).getLast? e)) := by
  induction r generalizing l h with
  | nil =>
    refine ⟨?_,?_⟩
    · rwa [List.append_nil]
    · intro i
      rfl
  | cons e r ih =>
    obtain ⟨next,told⟩ := recalls.append e
    obtain ⟨after,others⟩ := ih next
    refine ⟨?_,?_⟩
    · rw [List.append_assoc] at after
      exact after
    · intro i
      cases i with
      | zero => simp [History.appendAll,told]
      | succ i =>
        have later := others i
        rw [List.append_assoc] at later
        exact later

end

theorem recent_eq (h : History) (n : Nat) : h.recent n = (h.entries.rtake n).map (·.command) := rfl

theorem search_eq (h : History) (needle : Text) :
    h.search needle = (h.entries.map (·.command)).reverse.filter (fun c => needle <:+: c) := by
  rw [search,List.map_reverse]
  congr 1
  funext c
  rw [← Bool.coe_iff_coe,Text.hasInfix_iff]
  simp

/-- With `dedup` no two neighbours among those that are kept have one command. -/
theorem isChain_kept (l : List HistoryEntry) : (kept true l).IsChain (fun a b => a.command ≠ b.command) :=
  List.isChain_destutter _ _

/-- **The recent commands.** Commands are added to an empty history. It then holds the last of those that are worth
    keeping, as many as it has room for, with their statuses and times. Each command is told to be kept exactly when it is
    one more that is worth keeping. With `dedup` no two neighbours have one command; the recent commands and those that
    hold a text are the ones of this window. -/
theorem recent_window (capacity : Nat) (dedup : Bool) (calls : List HistoryEntry) :
    let after := (inMemory capacity dedup).appendAll calls
    let window := (kept dedup calls).rtake (max capacity 1)
    after.1.entries = window ∧
      (∀ i, after.2[i]? = calls[i]?.map (fun e =>
        decide (kept dedup (calls.take (i+1)) = kept dedup (calls.take i) ++ [e.trimmed]))) ∧
      (dedup = true → window.IsChain (fun a b => a.command ≠ b.command)) ∧
      (∀ n, after.1.recent n = (window.rtake n).map (·.command)) ∧
      ∀ needle, after.1.search needle = (window.map (·.command)).reverse.filter (fun c => needle <:+: c) := by
  intro after window
  obtain ⟨⟨-,-,entries⟩,told⟩ := (recalls_inMemory dedup capacity).appendAll calls
  refine ⟨entries,?_,?_,?_,?_⟩
  · intro i
    rw [told i]
    cases here : calls[i]? with
    | none => rfl
    | some e =>
      rw [List.take_add_one,here]
      simp only [List.nil_append,Option.map_some,Option.toList_some,kept_concat]
      by_cases adds : Adds dedup (kept dedup (calls.take i)).getLast? e
      · simp [adds]
      · simp [adds]
  · rintro rfl
    exact (isChain_kept calls).drop _
  · intro n
    rw [recent_eq]
    exact congrArg (fun l => (l.rtake n).map (·.command)) entries
  · intro needle
    rw [search_eq]
    exact congrArg (fun l => (l.map (·.command)).reverse.filter (fun c => needle <:+: c)) entries

/-- There is room for one entry at least, and a repeated command is known by the one that is left. -/
example :
    let calls := [HistoryEntry.mk (txt "cd") 0 1,⟨txt " ls ",0,2⟩,⟨txt "ls",1,3⟩,⟨txt "\t",0,4⟩,⟨txt "ls",0,5⟩]
    (inMemory 0 true).appendAll calls =
      ({ inMemory 1 true with entries := [⟨txt "ls",0,2⟩], position := 1, stale := true },
        [true,true,false,false,false]) := by decide

end History
end JobShell

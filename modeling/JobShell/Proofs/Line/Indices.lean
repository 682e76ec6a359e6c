import JobShell.Proofs.Line.Browsing

/-!
# Entries by their indices

A reader of the history stands at an index, and a search looks at one index after
the other. Here these steps break down at an index that has no entry. They do not
as long as the reader stands no further than at the end, and that is where he
stands in every history that can come about (`History.Made.inRange`).
-/
namespace JobShell
namespace History

/-- The reader stands at an entry, or at the end. -/
def InRange (h : History) : Prop := h.position ≤ h.entries.length

/-- One entry back: its command, or nothing at the first entry. -/
def earlier? (h : History) : Option (Option Text × History) :=
  if h.position > 0 then
    let h := { h with position := h.position - 1 }
    (h.command? h.position).map fun line => (some line,h)
  else some (none,h)

/-- One entry forward: its command, the typed line after the last entry, or nothing at the end. -/
def later? (h : History) : Option (Option Text × History) :=
  if h.position < h.entries.length then
    let h := { h with position := h.position + 1 }
    if h.atEnd then some (some h.draft,h) else (h.command? h.position).map fun line => (some line,h)
  else some (none,h)

/-- The last of the first `n` entries that holds the query. -/
def lookBack? (entries : List HistoryEntry) (query : Text) : Nat → Option (Option Nat)
  | 0 => some none
  | n+1 => entries[n]?.bind fun e => if isMatch query e.command then some (some n) else lookBack? entries query n

/-- The newest entry that holds the query, among those not newer than `start`. -/
def seek? (h : History) (query : Text) (start : Nat) : Option (Option Nat) :=
  if h.entries.isEmpty then some none else lookBack? h.entries query (min start (h.entries.length-1) + 1)

/-! ### Indices that have an entry -/

/-- What an arrow shows, and the history after it. -/
def shown (h : History) (moved : Option (Text × History)) : Option Text × History :=
  (moved.map fun p => (some p.1,p.2)).getD (none,h)

theorem earlier?_eq {h : History} (inRange : h.InRange) : h.earlier? = some (h.shown h.older?) := by
  rw [InRange] at inRange
  cases here : h.position with
  | zero => simp [earlier?,older?,shown,here]
  | succ n =>
    have inside : n < h.entries.length := by omega
    simp [earlier?,older?,shown,here,command?,inside]

theorem later?_eq (h : History) : h.later? = some (h.shown h.newer?) := by
  by_cases inside : h.position < h.entries.length
  · by_cases last : h.position + 1 = h.entries.length
    · simp [later?,newer?,shown,inside,atEnd,command?,last]
    · have next : h.position + 1 < h.entries.length := by omega
      simp [later?,newer?,shown,inside,atEnd,command?,last,next]
  · simp [later?,newer?,shown,inside]

theorem lookBack?_eq {entries : List HistoryEntry} {n : Nat} (fits : n ≤ entries.length) (query : Text) :
    lookBack? entries query n = some (lastMatch? entries query n) := by
  induction n with
  | zero => rfl
  | succ n ih =>
    have inside : n < entries.length := fits
    rw [lookBack?,lastMatch?,List.getElem?_eq_getElem inside,Option.bind_some,Option.any_some,ih (by omega)]
    split <;> rfl

theorem seek?_eq (h : History) (query : Text) (start : Nat) : h.seek? query start = some (h.find? query start) := by
  rw [seek?,find?]
  by_cases empty : h.entries = []
  · simp [empty,lastMatch?]
  · have filled := List.length_pos_iff.mpr empty
    have count : min start (h.entries.length-1) + 1 = min (start+1) h.entries.length := by omega
    rw [if_neg (by simpa using empty),count]
    exact lookBack?_eq (Nat.min_le_right ..) query

/-! ### Where the reader stands -/

theorem InRange.older {h k : History} {line : Text} (inRange : h.InRange) (older : h.older? = some (line,k)) :
    k.InRange := by
  rw [InRange] at inRange ⊢
  rw [older?_entries older]
  cases here : h.position with
  | zero => simp [older?,here] at older
  | succ n =>
    simp only [older?,here] at older
    obtain ⟨c,-,same⟩ := Option.map_eq_some_iff.mp older
    cases same
    show n ≤ h.entries.length
    omega

theorem inRange_of_newer {h k : History} {line : Text} (newer : h.newer? = some (line,k)) : k.InRange := by
  rw [newer?] at newer
  by_cases inside : h.position < h.entries.length
  · rw [if_pos inside] at newer
    cases newer
    exact inside
  · rw [if_neg inside] at newer
    cases newer

/-- An arrow that leads to an entry in range, or nowhere. -/
theorem InRange.shown {h : History} (inRange : h.InRange) {moved : Option (Text × History)}
    (inside : ∀ p, moved = some p → p.2.InRange) : (h.shown moved).2.InRange := by
  cases moved with
  | none => exact inRange
  | some p => exact inside p rfl

theorem inRange_saved {h : History} (inRange : h.InRange) (line : Text) :
    (if h.atEnd then h.save line else h).InRange := by
  split <;> exact inRange

theorem inRange_leave (h : History) : h.leave.InRange := Nat.le_refl _

/-- The histories that can come about: those without a file or read from one, and what follows from them. -/
inductive Made : History → Prop where
  | inMemory (capacity : Nat) (dedup : Bool) : Made (.inMemory capacity dedup)
  | load (file : Text) (content : Option Bytes) (capacity : Nat) (dedup : Bool) : Made (.load file content capacity dedup)
  | append {h : History} (made : Made h) (command : Text) (status : Int) (time : Nat) :
      Made (h.append command status time).1
  | clear {h : History} (made : Made h) : Made h.clear
  | written {h : History} (made : Made h) : Made h.written
  | leave {h : History} (made : Made h) : Made h.leave
  | save {h : History} (made : Made h) (line : Text) : Made (h.save line)
  | older {h k : History} {line : Text} (made : Made h) (older : h.older? = some (line,k)) : Made k
  | newer {h k : History} {line : Text} (made : Made h) (newer : h.newer? = some (line,k)) : Made k

theorem Made.inRange {h : History} (made : h.Made) : h.InRange := by
  induction made with
  | inMemory | load | clear => exact Nat.le_refl _
  | @append h made command status time ih =>
    rw [History.append]
    cases h.entry? command status time with
    | none => exact ih
    | some e => exact Nat.le_refl (h.push e).entries.length
  | written _ ih => exact ih
  | leave => exact inRange_leave _
  | save _ _ ih => exact ih
  | older _ moved ih => exact ih.older moved
  | newer _ moved _ => exact inRange_of_newer moved

end History
end JobShell

import JobShell.History.Entry
import JobShell.Text.Blank
import JobShell.Text.Letter

/-!
# The command history

The history is the window of the last entries, at most `capacity` of them. It
also remembers where a reader who goes through it stands: at an entry, or at the
end, where the line that was being typed is kept.

A history with a file appends every entry to it; the file then holds more than
the window once entries were dropped, and is replaced by the window at the end.
-/
namespace JobShell

/-- The command history. -/
structure History where
  /-- The entries, oldest first. -/
  entries : List HistoryEntry
  capacity : Nat
  /-- A command equal to the last one is not kept. -/
  dedup : Bool
  /-- The index of the entry shown; the number of entries stands for the typed line. -/
  position : Nat
  /-- The line that was typed before the history was entered. -/
  draft : Text
  /-- The file that keeps the entries. -/
  file : Option Text
  /-- The file holds entries that are no longer in the window. -/
  stale : Bool
  deriving DecidableEq, Repr

namespace History

/-- An empty history without a file. -/
def inMemory (capacity : Nat) (dedup : Bool) : History where
  entries := []
  capacity := max capacity 1
  dedup := dedup
  position := 0
  draft := []
  file := none
  stale := false

/-- The history without the oldest entries that are too many. -/
def trim (h : History) : History :=
  if h.entries.length > h.capacity then
    { h with entries := h.entries.drop (h.entries.length - h.capacity), stale := true }
  else h

/-- The history of a file that holds `content`, or that does not exist. -/
def load (file : Text) (content : Option Bytes) (capacity : Nat) (dedup : Bool) : History :=
  let h := { inMemory capacity dedup with entries := HistoryEntry.ofFile (content.getD []) }.trim
  { h with file := some file, position := h.entries.length }

/-- The entry that a command makes; none for a blank command, or one that repeats the last. -/
def entry? (h : History) (command : Text) (status : Int) (time : Nat) : Option HistoryEntry :=
  let command := Text.trim command
  if command.isEmpty then none
  else if h.dedup && (h.entries.getLast?.map (·.command)) = some command then none
  else some ⟨command,status,time⟩

/-- The history with one more entry; a reader stands at the end again. -/
def push (h : History) (e : HistoryEntry) : History :=
  let h := { h with entries := h.entries ++ [e] }.trim
  { h with position := h.entries.length }

/-- The history after a command, and whether it was kept. -/
def append (h : History) (command : Text) (status : Int) (time : Nat) : History × Bool :=
  match h.entry? command status time with
  | some e => (h.push e,true)
  | none => (h,false)

/-- The last `n` commands, oldest first. -/
def recent (h : History) (n : Nat) : List Text :=
  (h.entries.drop (h.entries.length - n)).map (·.command)

/-- The commands that hold `needle`, newest first. -/
def search (h : History) (needle : Text) : List Text :=
  (h.entries.reverse.map (·.command)).filter (Text.hasInfix needle)

/-- Whether a command holds a query, without regard to case. -/
def isMatch (query command : Text) : Bool := Text.hasInfix (Letter.lower query) (Letter.lower command)

/-- The last index below `n` whose entry holds the query. -/
def lastMatch? (entries : List HistoryEntry) (query : Text) : Nat → Option Nat
  | 0 => none
  | n+1 =>
    if (entries[n]?.any (fun e => isMatch query e.command)) then some n else lastMatch? entries query n

/-- The newest entry that holds the query, among those not newer than `start`. -/
def find? (h : History) (query : Text) (start : Nat) : Option Nat :=
  lastMatch? h.entries query (min (start+1) h.entries.length)

/-- The command of an entry. -/
def command? (h : History) (i : Nat) : Option Text := h.entries[i]?.map (·.command)

/-- The history without entries. -/
def clear (h : History) : History := { h with entries := [], position := 0, stale := true }

/-- The bytes of a file that holds the window. -/
def content (h : History) : Bytes := h.entries.flatMap HistoryEntry.bytes

/-- What the file must hold, when it must be replaced. -/
def replacement? (h : History) : Option (Text × Bytes) :=
  if h.stale then h.file.map (fun f => (f,h.content)) else none

/-- The history after its file was replaced. -/
def written (h : History) : History := { h with stale := false }

/-! ### Going through the history -/

/-- A reader stands at the end. -/
def atEnd (h : History) : Bool := h.position == h.entries.length

/-- The reader leaves the history. -/
def leave (h : History) : History := { h with position := h.entries.length, draft := [] }

/-- The typed line is kept. -/
def save (h : History) (line : Text) : History := { h with draft := line }

/-- One entry back, when there is one. -/
def older? (h : History) : Option (Text × History) :=
  match h.position with
  | 0 => none
  | n+1 => (h.command? n).map (fun c => (c,{ h with position := n }))

/-- One entry forward, the typed line after the last. -/
def newer? (h : History) : Option (Text × History) :=
  if h.position < h.entries.length then
    let h := { h with position := h.position + 1 }
    some ((h.command? h.position).getD h.draft,h)
  else none

end History
end JobShell

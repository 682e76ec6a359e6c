import JobShell.History.Window
import JobShell.Line.Completion
import JobShell.Line.Key
import JobShell.Text.Segmentation

/-!
# The line editor

The editor holds the line that is being typed, with the cursor between two
characters. It either edits the line, shows an entry of the history, or searches
the history for a query. A key changes the editor and the place in the history,
and may end the line.
-/
namespace JobShell

/-- A line with a cursor in it. -/
structure LineBuffer where
  /-- The text before the cursor. -/
  before : Text
  /-- The text after the cursor. -/
  after : Text
  deriving DecidableEq, Repr

namespace LineBuffer
open Segmentation (cutFirst cutLast)

/-- The whole line. -/
def text (b : LineBuffer) : Text := b.before ++ b.after

/-- The byte position of the cursor. -/
def cursor (b : LineBuffer) : Nat := Text.width b.before

/-- The empty line. -/
def empty : LineBuffer := ⟨[],[]⟩

/-- A line with the cursor at its end. -/
def atEnd (t : Text) : LineBuffer := ⟨t,[]⟩

/-- The cursor goes one cluster to the left. -/
def moveLeft [Segmentation] (b : LineBuffer) : LineBuffer := ⟨(cutLast b.before).1,(cutLast b.before).2 ++ b.after⟩

/-- The cursor goes one cluster to the right. -/
def moveRight [Segmentation] (b : LineBuffer) : LineBuffer := ⟨b.before ++ (cutFirst b.after).1,(cutFirst b.after).2⟩

/-- The cluster before the cursor is deleted. -/
def deleteBefore [Segmentation] (b : LineBuffer) : LineBuffer := { b with before := (cutLast b.before).1 }

/-- The cluster after the cursor is deleted. -/
def deleteAfter [Segmentation] (b : LineBuffer) : LineBuffer := { b with after := (cutFirst b.after).2 }

/-- A character is inserted. The cursor then stands after the cluster that the character ends
    up in, so it stays between two clusters when the character joins its neighbours. -/
def insert [Segmentation] (b : LineBuffer) (c : Char) : LineBuffer :=
  moveRight (moveLeft ⟨b.before ++ [c],b.after⟩)

/-- The text before the cursor without its last word and the blanks after that. -/
def withoutWord (before : Text) : Text :=
  (((before.reverse.dropWhile (· == ' ')).dropWhile (· != ' '))).reverse

/-- The word before the cursor is deleted. -/
def deleteWord (b : LineBuffer) : LineBuffer := { b with before := withoutWord b.before }

/-- The last characters before the cursor, as many as `word` has, are replaced. -/
def replaceWord (b : LineBuffer) (word new : Text) : LineBuffer :=
  { b with before := b.before.take (b.before.length - word.length) ++ new }

end LineBuffer

/-- A search through the history. -/
structure Search where
  query : Text
  /-- The entry that is shown. -/
  matched : Option Nat
  /-- The last step found nothing; the entry shown is that of the step before. -/
  failed : Bool
  /-- The line before the search. -/
  saved : LineBuffer
  deriving DecidableEq, Repr

/-- What the editor is doing. -/
inductive Mode where
  | editing
  /-- An entry of the history is shown as the line. -/
  | browsing
  | searching (s : Search)
  deriving DecidableEq, Repr

/-- How a line ends. -/
inductive Outcome where
  | submitted (line : Text)
  /-- The end of all input. -/
  | eof
  deriving DecidableEq, Repr

/-- What is to be shown besides the line. -/
inductive Notice where
  | bell
  | candidates (l : List Text)
  | clearScreen
  /-- The line was given up. -/
  | interrupted
  deriving DecidableEq, Repr

/-- The line editor. -/
structure Editor where
  buffer : LineBuffer
  mode : Mode
  notice : Option Notice
  deriving DecidableEq, Repr

namespace Search

/-- The search for its query from an entry on backwards; nothing is found from nowhere. -/
def from? (s : Search) (h : History) (start : Option Nat) : Search :=
  match start.bind (h.find? s.query) with
  | some i => { s with matched := some i, failed := false }
  | none => { s with failed := true }

/-- The entry that is shown. -/
def entry? (s : Search) (h : History) : Option Text := s.matched.bind h.command?

/-- The line that the search ends with: the entry that is shown, or the line before the search. -/
def result (s : Search) (h : History) : LineBuffer := .atEnd ((s.entry? h).getD s.saved.text)

end Search

namespace Editor

/-- An editor with an empty line. -/
def empty : Editor := ⟨.empty,.editing,none⟩

/-- The editor with another line. -/
def withBuffer (e : Editor) (b : LineBuffer) : Editor := { e with buffer := b }

/-- The word before the cursor is completed: to the only candidate and a blank, or a slash where
    the candidate has one; to what several candidates have in common, which are then shown. -/
def complete (e : Editor) (o : Outlook) : Editor :=
  let word := (Completion.lastWord e.buffer.before).2
  match Completion.candidates o e.buffer.before with
  | [] => { e with notice := some .bell }
  | [only] =>
    e.withBuffer (e.buffer.replaceWord word (if only.getLast? = some '/' then only else only ++ [' ']))
  | several =>
    let start := Completion.commonStart several
    let buffer := if Text.width start > Text.width word then e.buffer.replaceWord word start else e.buffer
    { e with buffer := buffer, notice := some (.candidates several) }

/-- The entry before the one shown, the typed line being kept first. -/
def older (e : Editor) (h : History) : Editor × History :=
  let h := if h.atEnd then h.save e.buffer.text else h
  let (e,h) := match h.older? with
    | some (line,h) => (e.withBuffer (.atEnd line),h)
    | none => (e,h)
  ({ e with mode := if h.atEnd then e.mode else .browsing },h)

/-- The entry after the one shown, or the line that was typed. -/
def newer (e : Editor) (h : History) : Editor × History :=
  let (e,h) := match h.newer? with
    | some (line,h) => (e.withBuffer (.atEnd line),h)
    | none => (e,h)
  ({ e with mode := if h.atEnd then .editing else .browsing },h)

/-- The beginning of a search, at the newest entry. -/
def startSearch (e : Editor) (h : History) : Editor :=
  let newest := if h.entries.isEmpty then none else some (h.entries.length - 1)
  { e with mode := .searching ⟨[],newest,false,e.buffer⟩ }

/-- A key that edits the line. -/
def edit [Segmentation] (e : Editor) (h : History) (o : Outlook) : Key → Option Outcome × Editor × History
  | .enter => (some (.submitted e.buffer.text),e,h.leave)
  | .ctrlD =>
    if e.buffer.text.isEmpty then (some .eof,e,h) else (none,e.withBuffer e.buffer.deleteAfter,h)
  | .ctrlC => (none,{ e with buffer := .empty, notice := some .interrupted },h.leave)
  | .ctrlG | .unknown | .down => (none,e,h)
  | .char c => (none,e.withBuffer (e.buffer.insert c),h)
  | .backspace => (none,e.withBuffer e.buffer.deleteBefore,h)
  | .delete => (none,e.withBuffer e.buffer.deleteAfter,h)
  | .left => (none,e.withBuffer e.buffer.moveLeft,h)
  | .right => (none,e.withBuffer e.buffer.moveRight,h)
  | .home | .ctrlA => (none,e.withBuffer ⟨[],e.buffer.text⟩,h)
  | .toEnd | .ctrlE => (none,e.withBuffer (.atEnd e.buffer.text),h)
  | .ctrlK => (none,e.withBuffer { e.buffer with after := [] },h)
  | .ctrlU => (none,e.withBuffer { e.buffer with before := [] },h)
  | .ctrlW => (none,e.withBuffer e.buffer.deleteWord,h)
  | .ctrlL => (none,{ e with notice := some .clearScreen },h)
  | .tab => (none,e.complete o,h)
  | .up => (none,(e.older h).1,(e.older h).2)
  | .ctrlR => (none,e.startSearch h,h)

/-- A key while an entry is shown: any key but the arrows and a search edits the entry. -/
def browse [Segmentation] (e : Editor) (h : History) (o : Outlook) : Key → Option Outcome × Editor × History
  | .up => (none,(e.older h).1,(e.older h).2)
  | .down => (none,(e.newer h).1,(e.newer h).2)
  | .ctrlR => (none,e.startSearch h,h)
  | key => e.edit h.leave o key

/-- A key while a search goes on. A character or a backspace changes the query, which is then
    searched for again; another key ends the search with the entry that is shown. -/
def search [Segmentation] (e : Editor) (s : Search) (h : History) (o : Outlook) :
    Key → Option Outcome × Editor × History
  | .char c =>
    let s := { s with query := s.query ++ [c] }
    (none,{ e with mode := .searching (s.from? h (some (s.matched.getD (h.entries.length - 1)))) },h)
  | .ctrlR =>
    let start := s.matched.bind (fun i => if i = 0 then none else some (i-1))
    (none,{ e with mode := .searching (s.from? h start) },h)
  | .backspace =>
    let s := { s with query := s.query.dropLast }
    (none,{ e with mode := .searching (s.from? h (some (h.entries.length - 1))) },h)
  | .enter =>
    (some (.submitted (s.result h).text),e.withBuffer (s.result h),h.leave)
  | .ctrlC | .ctrlG => (none,e.withBuffer s.saved,h.leave)
  | key => (e.withBuffer (s.result h)).edit h.leave o key

/-- A key. -/
def press [Segmentation] (e : Editor) (h : History) (o : Outlook) (key : Key) : Option Outcome × Editor × History :=
  let rest := { e with mode := .editing }
  match e.mode with
  | .editing => rest.edit h o key
  | .browsing => rest.browse h o key
  | .searching s => rest.search s h o key

end Editor
end JobShell

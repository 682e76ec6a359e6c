import JobShell.Line.View
import JobShell.Proofs.Line.CommonStart
import JobShell.Proofs.Line.Indices
import JobShell.Proofs.Line.WordOffsets
import JobShell.Proofs.Text.Clusters

/-!
# No key breaks the editor down

The editor is run with its line as one text and a byte position, with the entries
of the history by their indices, and with every step that may break down as such:
parts that are cut out, put in and replaced at computed positions, and entries
that are looked up. From an empty line and any history no key breaks it down, and
it goes the way of the editor by characters (`Editor.pressAll?_placed`).

The cursor is the width of what stands before it throughout. That is all that the
steps on the line need, in every mode; the history needs that the reader stands
no further than at the end.
-/
namespace JobShell
open Segmentation (Consecutive)

/-- A search through the history, with the line before it as one text. -/
structure ByteSearch where
  query : Text
  matched : Option Nat
  failed : Bool
  saved : ByteLine
  deriving DecidableEq, Repr

/-- What the editor by byte positions is doing. -/
inductive ByteMode where
  | editing
  | browsing
  | searching (s : ByteSearch)
  deriving DecidableEq, Repr

/-- The editor by byte positions. -/
structure ByteEditor where
  line : ByteLine
  mode : ByteMode
  notice : Option Notice
  deriving DecidableEq, Repr

namespace ByteSearch

/-- The search for its query from an entry on backwards. -/
def from? (s : ByteSearch) (h : History) : Option Nat → Option ByteSearch
  | none => some { s with failed := true }
  | some start => (h.seek? s.query start).map fun
    | some i => { s with matched := some i, failed := false }
    | none => { s with failed := true }

/-- The line that the search ends with. -/
def result (s : ByteSearch) (h : History) : ByteLine := .toEnd ((s.matched.bind h.command?).getD s.saved.text)

end ByteSearch

namespace ByteEditor

/-- What a key leads to. -/
abbrev Result := Option Outcome × ByteEditor × History

/-- An editor with an empty line. -/
def empty : ByteEditor := ⟨⟨[],0⟩,.editing,none⟩

def withLine (e : ByteEditor) (l : ByteLine) : ByteEditor := { e with line := l }

/-- A key that changes the line only. -/
def changed? (e : ByteEditor) (h : History) (l : Option ByteLine) : Option Result := l.map fun l => (none,e.withLine l,h)

def complete? (e : ByteEditor) (o : Outlook) : Option ByteEditor := do
  let (start,candidates) ← Completion.candidates? o e.line
  match candidates with
  | [] => return { e with notice := some .bell }
  | [only] => return e.withLine (← e.line.replaceFrom? start (if only.getLast? = some '/' then only else only ++ [' ']))
  | several =>
    let new ← Completion.commonStart? several
    let line ← if Text.width new > (← e.line.widthFrom? start) then e.line.replaceFrom? start new else some e.line
    return { e with line := line, notice := some (.candidates several) }

def older? (e : ByteEditor) (h : History) : Option (ByteEditor × History) := do
  let (line,h) ← (if h.atEnd then h.save e.line.text else h).earlier?
  return (⟨(line.map .toEnd).getD e.line,if h.atEnd then e.mode else .browsing,e.notice⟩,h)

def newer? (e : ByteEditor) (h : History) : Option (ByteEditor × History) := do
  let (line,h) ← h.later?
  return (⟨(line.map .toEnd).getD e.line,if h.atEnd then .editing else .browsing,e.notice⟩,h)

def startSearch (e : ByteEditor) (h : History) : ByteEditor :=
  let newest := if h.entries.isEmpty then none else some (h.entries.length - 1)
  { e with mode := .searching ⟨[],newest,false,e.line⟩ }

/-- A key that edits the line. -/
def edit? [Segmentation] (e : ByteEditor) (h : History) (o : Outlook) : Key → Option Result
  | .enter => some (some (.submitted e.line.text),e,h.leave)
  | .ctrlD => if e.line.text.isEmpty then some (some .eof,e,h) else e.changed? h e.line.deleteAfter?
  | .ctrlC => some (none,{ e with line := ⟨[],0⟩, notice := some .interrupted },h.leave)
  | .ctrlG | .unknown | .down => some (none,e,h)
  | .char c => e.changed? h (e.line.insert? c)
  | .backspace => e.changed? h e.line.deleteBefore?
  | .delete => e.changed? h e.line.deleteAfter?
  | .left => e.changed? h e.line.moveLeft?
  | .right => e.changed? h e.line.moveRight?
  | .home | .ctrlA => some (none,e.withLine e.line.home,h)
  | .toEnd | .ctrlE => some (none,e.withLine (.toEnd e.line.text),h)
  | .ctrlK => e.changed? h e.line.dropAfter?
  | .ctrlU => e.changed? h e.line.dropBefore?
  | .ctrlW => e.changed? h e.line.deleteWord?
  | .ctrlL => some (none,{ e with notice := some .clearScreen },h)
  | .tab => (e.complete? o).map fun e => (none,e,h)
  | .up => (e.older? h).map fun p => (none,p.1,p.2)
  | .ctrlR => some (none,e.startSearch h,h)

/-- A key while an entry is shown. -/
def browse? [Segmentation] (e : ByteEditor) (h : History) (o : Outlook) : Key → Option Result
  | .up => (e.older? h).map fun p => (none,p.1,p.2)
  | .down => (e.newer? h).map fun p => (none,p.1,p.2)
  | .ctrlR => some (none,e.startSearch h,h)
  | key => e.edit? h.leave o key

/-- A search that goes on. -/
def goOn? (e : ByteEditor) (s : ByteSearch) (h : History) (start : Option Nat) : Option Result :=
  (s.from? h start).map fun s => (none,{ e with mode := .searching s },h)

/-- A key while a search goes on. -/
def search? [Segmentation] (e : ByteEditor) (s : ByteSearch) (h : History) (o : Outlook) : Key → Option Result
  | .char c => e.goOn? { s with query := s.query ++ [c] } h (some (s.matched.getD (h.entries.length - 1)))
  | .ctrlR => e.goOn? s h (s.matched.bind fun i => if i = 0 then none else some (i-1))
  | .backspace => e.goOn? { s with query := s.query.dropLast } h (some (h.entries.length - 1))
  | .enter => some (some (.submitted (s.result h).text),e.withLine (s.result h),h.leave)
  | .ctrlC | .ctrlG => some (none,e.withLine s.saved,h.leave)
  | key => (e.withLine (s.result h)).edit? h.leave o key

/-- A key. -/
def press? [Segmentation] (e : ByteEditor) (h : History) (o : Outlook) (key : Key) : Option Result :=
  let rest := { e with mode := .editing }
  match e.mode with
  | .editing => rest.edit? h o key
  | .browsing => rest.browse? h o key
  | .searching s => rest.search? s h o key

/-- The editor and the history after keys. -/
def pressAll? [Segmentation] (e : ByteEditor) (h : History) : List (Outlook × Key) → Option (ByteEditor × History)
  | [] => some (e,h)
  | (o,key) :: r => (e.press? h o key).bind fun p => pressAll? p.2.1 p.2.2 r

/-- What puts a terminal's cursor in its place, unless it is there already. -/
def redrawn? (l : ByteLine) (prompt : Text) : Option Text :=
  if l.cursor < Text.width l.text then (Text.cut? l.cursor l.text).map fun p => '\r' :: prompt ++ p.1 else some []

/-- The editor as a terminal shows it. -/
def render? (e : ByteEditor) (prompt : Text) (h : History) : Option Text :=
  match e.mode with
  | .searching s =>
    let label := if s.failed then txt "(failed reverse-i-search)" else txt "(reverse-i-search)"
    some ('\r' :: label ++ '\x60' :: s.query ++ txt "\x27: " ++ (s.matched.bind h.command?).getD [] ++ eraseToEnd)
  | _ => (redrawn? e.line prompt).map fun redrawn => '\r' :: prompt ++ e.line.text ++ eraseToEnd ++ redrawn

/-- The cursor of the line, and that of the line before a search, is on a boundary of its text. -/
structure Sound (e : ByteEditor) : Prop where
  line : e.line.OnBoundary
  saved : ∀ s, e.mode = .searching s → s.saved.OnBoundary

end ByteEditor

/-! ### The same editor -/

def Search.placed (s : Search) : ByteSearch := ⟨s.query,s.matched,s.failed,s.saved.placed⟩

def Mode.placed : Mode → ByteMode
  | .editing => .editing
  | .browsing => .browsing
  | .searching s => .searching s.placed

namespace Editor

/-- The editor with the byte positions of its cursors. -/
def placed (e : Editor) : ByteEditor := ⟨e.buffer.placed,e.mode.placed,e.notice⟩

/-- What a key leads to, with the byte positions of the cursors. -/
def placedResult (r : Option Outcome × Editor × History) : ByteEditor.Result := (r.1,r.2.1.placed,r.2.2)

theorem sound_placed (e : Editor) : e.placed.Sound := by
  refine ⟨e.buffer.onBoundary_placed,fun s searching => ?_⟩
  cases mode : e.mode with
  | editing | browsing =>
    rw [placed,mode] at searching
    cases searching
  | searching t =>
    rw [placed,mode] at searching
    cases searching
    exact t.saved.onBoundary_placed

theorem from?_placed (s : Search) (h : History) (start : Option Nat) :
    s.placed.from? h start = some (s.from? h start).placed := by
  cases start with
  | none => rfl
  | some start =>
    rw [ByteSearch.from?,History.seek?_eq,Option.map_some,Search.from?,Option.bind_some]
    show some _ = _
    cases found : h.find? s.query start <;> simp [Search.placed,found]

theorem result_placed (s : Search) (h : History) : s.placed.result h = (s.result h).placed :=
  (LineBuffer.placed_atEnd _).symm

theorem complete?_placed (e : Editor) (o : Outlook) : e.placed.complete? o = some (e.complete o).placed := by
  have found : Completion.candidates? o e.placed.line = _ := Completion.candidates?_eq o e.buffer
  have replaced : ∀ new, e.placed.line.replaceFrom? _ new = _ := e.buffer.replaceFrom?_lastWord
  have size : e.placed.line.widthFrom? _ = _ := e.buffer.widthFrom?_lastWord
  simp only [ByteEditor.complete?,found,complete,bind,Option.bind,pure]
  match Completion.candidates o e.buffer.before with
  | [] => rfl
  | [only] =>
    simp only [replaced]
    rfl
  | first :: second :: r =>
    simp only [Completion.commonStart?_eq,size,replaced]
    split <;> rfl

/-! ### Arrows -/

theorem older_eq (e : Editor) (h : History) :
    let k := if h.atEnd then h.save e.buffer.text else h
    let moved := k.shown k.older?
    e.older h = (⟨(moved.1.map .atEnd).getD e.buffer,if moved.2.atEnd then e.mode else .browsing,e.notice⟩,moved.2) := by
  intro k moved
  cases found : k.older? <;> simp [older,moved,k,History.shown,withBuffer,found]

theorem newer_eq (e : Editor) (h : History) :
    let moved := h.shown h.newer?
    e.newer h = (⟨(moved.1.map .atEnd).getD e.buffer,if moved.2.atEnd then .editing else .browsing,e.notice⟩,moved.2) := by
  intro moved
  cases found : h.newer? <;> simp [newer,moved,History.shown,withBuffer,found]

/-- What an arrow leads to. -/
theorem moved_placed (e : Editor) (line : Option Text) (ended : Bool) (there other : Mode) :
    (⟨(line.map .toEnd).getD e.placed.line,if ended then there.placed else other.placed,e.notice⟩ : ByteEditor) =
      placed ⟨(line.map .atEnd).getD e.buffer,if ended then there else other,e.notice⟩ := by
  have text : (line.map ByteLine.toEnd).getD e.placed.line = ((line.map LineBuffer.atEnd).getD e.buffer).placed := by
    cases line with
    | none => rfl
    | some t => exact (LineBuffer.placed_atEnd t).symm
  rw [text]
  cases ended <;> rfl

theorem older?_placed (e : Editor) {h : History} (inRange : h.InRange) :
    e.placed.older? h = some ((e.older h).1.placed,(e.older h).2) := by
  have text : e.placed.line.text = e.buffer.text := rfl
  rw [ByteEditor.older?,text,History.earlier?_eq (History.inRange_saved inRange _),older_eq]
  exact congrArg some (Prod.ext (moved_placed e _ _ e.mode .browsing) rfl)

theorem newer?_placed (e : Editor) (h : History) : e.placed.newer? h = some ((e.newer h).1.placed,(e.newer h).2) := by
  rw [ByteEditor.newer?,History.later?_eq,newer_eq]
  exact congrArg some (Prod.ext (moved_placed e _ _ .editing .browsing) rfl)

/-! ### Keys -/

theorem changed?_placed (e : Editor) (h : History) {l : Option ByteLine} {b : LineBuffer} (changed : l = some b.placed) :
    e.placed.changed? h l = some (placedResult (none,e.withBuffer b,h)) := by
  rw [changed]
  rfl

/-- A key that edits the line. -/
theorem edit?_placed [Segmentation] [Consecutive] (e : Editor) {h : History} (inRange : h.InRange) (o : Outlook) (key : Key) :
    e.placed.edit? h o key = some (placedResult (e.edit h o key)) := by
  cases key with
  | enter | ctrlC | ctrlG | unknown | down | home | ctrlA | ctrlL | ctrlR => rfl
  | ctrlD =>
    have text : e.placed.line.text = e.buffer.text := rfl
    rw [ByteEditor.edit?,edit,text]
    split
    · rfl
    · exact e.changed?_placed h e.buffer.deleteAfter?_placed
  | char c => exact e.changed?_placed h (e.buffer.insert?_placed c)
  | backspace => exact e.changed?_placed h e.buffer.deleteBefore?_placed
  | delete => exact e.changed?_placed h e.buffer.deleteAfter?_placed
  | left => exact e.changed?_placed h e.buffer.moveLeft?_placed
  | right => exact e.changed?_placed h e.buffer.moveRight?_placed
  | toEnd | ctrlE => exact e.changed?_placed h (congrArg some (LineBuffer.placed_atEnd _).symm)
  | ctrlK => exact e.changed?_placed h e.buffer.dropAfter?_placed
  | ctrlU => exact e.changed?_placed h e.buffer.dropBefore?_placed
  | ctrlW => exact e.changed?_placed h e.buffer.deleteWord?_placed
  | tab =>
    rw [ByteEditor.edit?,complete?_placed]
    rfl
  | up =>
    rw [ByteEditor.edit?,older?_placed e inRange]
    rfl

/-- A key while an entry is shown. -/
theorem browse?_placed [Segmentation] [Consecutive] (e : Editor) {h : History} (inRange : h.InRange) (o : Outlook) (key : Key) :
    e.placed.browse? h o key = some (placedResult (e.browse h o key)) := by
  have edited := e.edit?_placed h.inRange_leave o key
  cases key with
  | up =>
    rw [ByteEditor.browse?,older?_placed e inRange]
    rfl
  | down =>
    rw [ByteEditor.browse?,newer?_placed]
    rfl
  | ctrlR => rfl
  | _ => exact edited

theorem goOn?_placed (e : Editor) (s : Search) (h : History) (start : Option Nat) :
    e.placed.goOn? s.placed h start = some (placedResult (none,{ e with mode := .searching (s.from? h start) },h)) := by
  rw [ByteEditor.goOn?,from?_placed]
  rfl

/-- A key while a search goes on. -/
theorem search?_placed [Segmentation] [Consecutive] (e : Editor) (s : Search) (h : History) (o : Outlook) (key : Key) :
    e.placed.search? s.placed h o key = some (placedResult (e.search s h o key)) := by
  have ended : e.placed.withLine (s.placed.result h) = (e.withBuffer (s.result h)).placed := by
    rw [result_placed]
    rfl
  have text : (s.placed.result h).text = (s.result h).text := by
    rw [result_placed]
    rfl
  -- a key that ends the search edits the line that it ends with, wherever the reader was before
  have edited := (e.withBuffer (s.result h)).edit?_placed h.inRange_leave o key
  rw [← ended] at edited
  cases key with
  | char c => exact e.goOn?_placed { s with query := s.query ++ [c] } h _
  | ctrlR => exact e.goOn?_placed s h _
  | backspace => exact e.goOn?_placed { s with query := s.query.dropLast } h _
  | enter =>
    show some (some (Outcome.submitted (s.placed.result h).text),e.placed.withLine (s.placed.result h),h.leave) = _
    rw [ended,text]
    rfl
  | ctrlC | ctrlG => rfl
  | _ => exact edited

/-- One key does not break the editor down while the reader stands no further than at the end. -/
theorem press?_placed [Segmentation] [Consecutive] (e : Editor) {h : History} (inRange : h.InRange) (o : Outlook) (key : Key) :
    e.placed.press? h o key = some (placedResult (e.press h o key)) := by
  have rest : { e.placed with mode := .editing } = placed { e with mode := .editing } := rfl
  have mode : e.placed.mode = e.mode.placed := rfl
  simp only [ByteEditor.press?,press,rest,mode]
  cases e.mode with
  | editing => exact edit?_placed _ inRange o key
  | browsing => exact browse?_placed _ inRange o key
  | searching s => exact search?_placed _ s h o key

/-! ### The reader -/

theorem inRange_older (e : Editor) {h : History} (inRange : h.InRange) : (e.older h).2.InRange := by
  have saved := History.inRange_saved inRange e.buffer.text
  rw [older_eq]
  exact saved.shown fun p older => saved.older older

theorem inRange_newer (e : Editor) {h : History} (inRange : h.InRange) : (e.newer h).2.InRange := by
  rw [newer_eq]
  exact inRange.shown fun p newer => History.inRange_of_newer newer

theorem inRange_edit [Segmentation] (e : Editor) {h : History} (inRange : h.InRange) (o : Outlook) (key : Key) :
    (e.edit h o key).2.2.InRange := by
  cases key with
  | up => exact inRange_older e inRange
  | enter | ctrlC => exact h.inRange_leave
  | ctrlD =>
    rw [edit]
    split <;> exact inRange
  | _ => exact inRange

/-- A key takes the reader no further than to the end. -/
theorem inRange_press [Segmentation] (e : Editor) {h : History} (inRange : h.InRange) (o : Outlook) (key : Key) :
    (e.press h o key).2.2.InRange := by
  simp only [press]
  cases e.mode with
  | editing => exact inRange_edit _ inRange o key
  | browsing =>
    have edited := inRange_edit { e with mode := .editing } h.inRange_leave o key
    cases key with
    | up => exact inRange_older _ inRange
    | down => exact inRange_newer _ inRange
    | ctrlR => exact inRange
    | _ => exact edited
  | searching s =>
    have edited := inRange_edit (withBuffer { e with mode := .editing } (s.result h)) h.inRange_leave o key
    cases key with
    | char | ctrlR | backspace => exact inRange
    | enter | ctrlC | ctrlG => exact h.inRange_leave
    | _ => exact edited

/-! ### Runs -/

/-- Keys do not break the editor down, and take the reader no further than to the end. -/
theorem pressAll?_placed [Segmentation] [Consecutive] (e : Editor) {h : History} (inRange : h.InRange) (keys : List (Outlook × Key)) :
    e.placed.pressAll? h keys = some ((pressAll e h keys).1.placed,(pressAll e h keys).2) ∧
      (pressAll e h keys).2.InRange := by
  induction keys generalizing e h with
  | nil => exact ⟨rfl,inRange⟩
  | cons first r ih =>
    obtain ⟨o,key⟩ := first
    rw [ByteEditor.pressAll?,press?_placed e inRange,Option.bind_some]
    exact ih _ (inRange_press e inRange o key)

theorem redrawn?_placed (b : LineBuffer) (prompt : Text) :
    ByteEditor.redrawn? b.placed prompt = some (if b.after.isEmpty then [] else '\r' :: prompt ++ b.before) := by
  have cut : Text.cut? b.placed.cursor b.placed.text = some (b.before,b.after) := b.cut?_cursor
  rw [ByteEditor.redrawn?,cut]
  by_cases empty : b.after = []
  · rw [if_neg (fun inside => b.cursor_lt_iff.mp inside empty),empty]
    rfl
  · rw [if_pos (b.cursor_lt_iff.mpr empty),if_neg (by simpa using empty)]
    rfl

theorem render?_placed (e : Editor) (prompt : Text) (h : History) :
    e.placed.render? prompt h = some (e.render prompt h) := by
  have redrawn : ByteEditor.redrawn? e.placed.line prompt = _ := redrawn?_placed e.buffer prompt
  have mode : e.placed.mode = e.mode.placed := rfl
  simp only [ByteEditor.render?,render,redrawn,mode]
  cases e.mode with
  | editing | browsing | searching => rfl

/-- **No key breaks the editor down.** Let a new editor begin with any history that can come about. After any keys, whatever
    commands and files completion sees at each of them, every step at a byte position and at an index has succeeded, and so
    have the next key and what is shown after any prompt; they are what the editor by characters gives. Then the cursor is on
    a boundary of the line and that before a search on one of its line, the reader stands no further than at the end, and the
    entries are as they were. -/
theorem keys_succeed [Segmentation] [Consecutive] {h : History} (made : h.Made) (keys : List (Outlook × Key)) :
    let now := pressAll empty h keys
    ByteEditor.empty.pressAll? h keys = some (now.1.placed,now.2) ∧
      (∀ o key, now.1.placed.press? now.2 o key = some (placedResult (now.1.press now.2 o key))) ∧
      (∀ prompt, now.1.placed.render? prompt now.2 = some (now.1.render prompt now.2)) ∧
      now.1.placed.Sound ∧ now.2.position ≤ now.2.entries.length ∧ now.2.entries = h.entries := by
  intro now
  obtain ⟨run,inRange⟩ := pressAll?_placed empty made.inRange keys
  refine ⟨run,press?_placed now.1 inRange,?_,sound_placed now.1,inRange,pressAll_entries empty h keys⟩
  intro prompt
  exact render?_placed now.1 prompt now.2

/-- A line of two characters of two bytes each, with the cursor between them, and a search that has found an entry. -/
theorem keys_succeed_searching :
    let h := ((History.inMemory 5 true).append (txt "ls") 0 0).1
    let o : Outlook := ⟨⟨.empty,[]⟩,fun _ => [],⟨0,fun _ => none,fun _ => none⟩⟩
    let keys := [.char 'é',.up,.down,.char 'é',.left,.ctrlR,.char 'S'].map (fun key => (o,key))
    let line : ByteLine := ⟨txt "éé",2⟩
    h.Made ∧ ByteEditor.empty.pressAll? h keys =
      some (⟨line,.searching ⟨txt "S",some 0,false,line⟩,none⟩,{ h with draft := txt "é" }) := by
  intro h o keys line
  have made : h.Made := .append (.inMemory 5 true) _ _ _
  have state : pressAll empty h keys =
      (⟨⟨txt "é",txt "é"⟩,.searching ⟨txt "S",some 0,false,⟨txt "é",txt "é"⟩⟩,none⟩,{ h with draft := txt "é" }) := by
    decide +kernel
  obtain ⟨run,-⟩ := keys_succeed made keys
  rw [state] at run
  exact ⟨made,run⟩

end Editor
end JobShell

import JobShell.Line.Editor
import JobShell.Text.Cluster

/-!
# Going through the history

What the editor does and where the reader of the history stands are kept in two
places, and every key keeps them in step: while a line is edited the reader
stands at the end, and while an entry is shown he stands at that entry. So the
arrows walk along the entries and no further, and the line that was typed is
there again at the end of the walk (`Editor.arrows_walk`).
-/
namespace JobShell

namespace History

theorem atEnd_iff (h : History) : h.atEnd = true ↔ h.position = h.entries.length := by
  simp [atEnd]

theorem older?_entries {h k : History} {line : Text} (older : h.older? = some (line,k)) : k.entries = h.entries := by
  unfold older? at older
  split at older
  · cases older
  · obtain ⟨c,-,same⟩ := Option.map_eq_some_iff.mp older
    cases same
    rfl

theorem newer?_entries {h k : History} {line : Text} (newer : h.newer? = some (line,k)) : k.entries = h.entries := by
  unfold newer? at newer
  split at newer
  · cases newer
    rfl
  · cases newer

/-- What is shown at place `p`: the command of an entry, and the line that was typed at the end. -/
def lineAt (entries : List HistoryEntry) (draft : Text) (p : Nat) : Text := (entries[p]?.map (·.command)).getD draft

theorem lineAt_of_lt {entries : List HistoryEntry} {p : Nat} (inside : p < entries.length) (draft : Text) :
    lineAt entries draft p = entries[p].command := by
  simp [lineAt,inside]

theorem lineAt_length (entries : List HistoryEntry) (draft : Text) : lineAt entries draft entries.length = draft := by
  simp [lineAt]

/-- The place after an arrow among `n` entries: one back, but not before the first; one forward, but not beyond the end. -/
def place (n p : Nat) : Key → Nat
  | .up => p-1
  | .down => min (p+1) n
  | _ => p

end History

namespace Editor
open History (lineAt place)

/-- The editor and the history after keys. Completion may see other commands and files at every key. -/
def pressAll [Segmentation] (e : Editor) (h : History) : List (Outlook × Key) → Editor × History
  | [] => (e,h)
  | (o,key) :: r => pressAll (e.press h o key).2.1 (e.press h o key).2.2 r

/-! ### The entries -/

theorem older_entries (e : Editor) (h : History) : (e.older h).2.entries = h.entries := by
  have saved : (if h.atEnd then h.save e.buffer.text else h).entries = h.entries := by
    split <;> rfl
  simp only [older]
  split
  · rename_i line k found
    exact (History.older?_entries found).trans saved
  · exact saved

theorem newer_entries (e : Editor) (h : History) : (e.newer h).2.entries = h.entries := by
  simp only [newer]
  split
  · rename_i line k found
    exact History.newer?_entries found
  · rfl

theorem edit_entries [Segmentation] (e : Editor) (h : History) (o : Outlook) (key : Key) : (e.edit h o key).2.2.entries = h.entries := by
  cases key with
  | up => exact older_entries e h
  | ctrlD =>
    simp only [edit]
    split <;> rfl
  | _ => rfl

/-- No key changes the entries. -/
theorem press_entries [Segmentation] (e : Editor) (h : History) (o : Outlook) (key : Key) :
    (e.press h o key).2.2.entries = h.entries := by
  simp only [press]
  cases e.mode with
  | editing => exact edit_entries _ h o key
  | browsing =>
    cases key with
    | up => exact older_entries _ h
    | down => exact newer_entries _ h
    | ctrlR => rfl
    | _ => exact edit_entries _ h.leave o _
  | searching s =>
    cases key with
    | char | ctrlR | backspace | enter | ctrlC | ctrlG => rfl
    | _ => exact edit_entries _ h.leave o _

theorem pressAll_entries [Segmentation] (e : Editor) (h : History) (keys : List (Outlook × Key)) :
    (pressAll e h keys).2.entries = h.entries := by
  induction keys generalizing e h with
  | nil => rfl
  | cons first r ih => exact (ih _ _).trans (press_entries e h first.1 first.2)

/-! ### The mode and the place -/

/-- The mode of the editor tells where the reader stands. -/
structure InStep (e : Editor) (h : History) : Prop where
  editing : e.mode = .editing → h.position = h.entries.length
  browsing : e.mode = .browsing → h.position < h.entries.length

/-- A line is edited, and the reader stands at the end. -/
theorem inStep_of_editing {e : Editor} {h : History} (editing : e.mode = .editing)
    (ended : h.position = h.entries.length) : InStep e h := by
  constructor
  · intro _
    exact ended
  · intro browsing
    rw [editing] at browsing
    cases browsing

/-- An entry is shown, and the reader stands before the end. -/
theorem inStep_of_browsing {e : Editor} {h : History} (browsing : e.mode = .browsing)
    (inside : h.position < h.entries.length) : InStep e h := by
  constructor
  · intro editing
    rw [browsing] at editing
    cases editing
  · intro _
    exact inside

/-- While a search goes on the reader may stand anywhere. -/
theorem inStep_of_searching {e : Editor} {s : Search} (searching : e.mode = .searching s) (h : History) : InStep e h := by
  constructor
  · intro editing
    rw [searching] at editing
    cases editing
  · intro browsing
    rw [searching] at browsing
    cases browsing

/-- At the first entry there is none before it, and the line stays as it is. -/
theorem older_of_first {e : Editor} {h : History} (first : h.position = 0) :
    e.older h = ({ e with mode := if h.atEnd then e.mode else .browsing },
      if h.atEnd then h.save e.buffer.text else h) := by
  by_cases ended : h.atEnd = true
  · have nothing : (h.save e.buffer.text).older? = none := by simp [History.older?,History.save,first]
    have still : (h.save e.buffer.text).atEnd = true := ended
    simp only [older,ended,nothing,still,if_true]
  · have nothing : h.older? = none := by simp [History.older?,first]
    simp only [older,ended,nothing,Bool.false_eq_true,if_false]

/-- The arrow back shows the entry before, and keeps the line that was typed when the walk begins. -/
theorem older_of_succ {e : Editor} {h : History} {p : Nat} (here : h.position = p+1) (inside : p < h.entries.length) :
    e.older h = (⟨.atEnd h.entries[p].command,.browsing,e.notice⟩,
      { h with position := p, draft := if h.atEnd then e.buffer.text else h.draft }) := by
  have before : ∀ draft, ({ h with position := p, draft := draft } : History).atEnd = false := by
    intro draft
    simp only [History.atEnd,beq_eq_false_iff_ne]
    omega
  by_cases ended : h.atEnd = true
  · have found : (h.save e.buffer.text).older? =
        some (h.entries[p].command,{ h with position := p, draft := e.buffer.text }) := by
      simp [History.older?,History.save,History.command?,here,inside]
    simp [older,ended,found,before,withBuffer]
  · have found : h.older? = some (h.entries[p].command,{ h with position := p }) := by
      simp [History.older?,History.command?,here,inside]
    simp [older,ended,found,withBuffer,before h.draft]

/-- The arrow forward shows the entry after, or the line that was typed. -/
theorem newer_of_lt {e : Editor} {h : History} (inside : h.position < h.entries.length) :
    e.newer h = (⟨.atEnd (lineAt h.entries h.draft (h.position+1)),
      if h.position + 1 = h.entries.length then .editing else .browsing,e.notice⟩,
      { h with position := h.position + 1 }) := by
  have found : h.newer? = some (lineAt h.entries h.draft (h.position+1),{ h with position := h.position + 1 }) := by
    simp [History.newer?,inside,History.command?,lineAt]
  simp [newer,found,withBuffer,History.atEnd]

theorem InStep.older {e : Editor} {h : History} (editing : e.mode = .editing) (bound : h.position ≤ h.entries.length) :
    InStep (e.older h).1 (e.older h).2 := by
  cases here : h.position with
  | zero =>
    rw [older_of_first here]
    by_cases ended : h.atEnd = true
    · rw [if_pos ended,if_pos ended]
      exact inStep_of_editing editing (h.atEnd_iff.mp ended)
    · rw [if_neg ended,if_neg ended]
      rw [h.atEnd_iff] at ended
      exact inStep_of_browsing rfl (by show h.position < h.entries.length; omega)
  | succ p =>
    have inside : p < h.entries.length := by omega
    rw [older_of_succ here inside]
    exact inStep_of_browsing rfl inside

theorem InStep.newer {e : Editor} {h : History} (inside : h.position < h.entries.length) :
    InStep (e.newer h).1 (e.newer h).2 := by
  rw [newer_of_lt inside]
  by_cases last : h.position + 1 = h.entries.length
  · exact inStep_of_editing (if_pos last) last
  · apply inStep_of_browsing (if_neg last)
    show h.position + 1 < h.entries.length
    omega

/-- A key that edits the line leaves the reader at the end, or takes him into the history. -/
theorem InStep.edit [Segmentation] {e : Editor} {h : History} (editing : e.mode = .editing) (ended : h.position = h.entries.length)
    (o : Outlook) (key : Key) : InStep (e.edit h o key).2.1 (e.edit h o key).2.2 := by
  cases key with
  | up => exact InStep.older editing (by omega)
  | ctrlR => exact inStep_of_searching rfl h
  | tab =>
    apply inStep_of_editing _ ended
    show (e.complete o).mode = .editing
    rw [complete]
    split <;> exact editing
  | ctrlD =>
    simp only [Editor.edit]
    split
    · exact inStep_of_editing editing ended
    · exact inStep_of_editing editing ended
  | enter | ctrlC => exact inStep_of_editing editing rfl
  | _ => exact inStep_of_editing editing ended

/-- One key, whatever the editor does. -/
theorem InStep.press [Segmentation] {e : Editor} {h : History} (inStep : InStep e h) (o : Outlook) (key : Key) :
    InStep (e.press h o key).2.1 (e.press h o key).2.2 := by
  simp only [Editor.press]
  cases mode : e.mode with
  | editing => exact InStep.edit rfl (inStep.editing mode) o key
  | browsing =>
    have inside := inStep.browsing mode
    cases key with
    | up => exact InStep.older rfl (by omega)
    | down => exact InStep.newer inside
    | ctrlR => exact inStep_of_searching rfl h
    | _ => exact InStep.edit rfl rfl o _
  | searching s =>
    cases key with
    | char | ctrlR | backspace => exact inStep_of_searching rfl h
    | enter | ctrlC | ctrlG => exact inStep_of_editing rfl rfl
    | _ => exact InStep.edit rfl rfl o _

theorem InStep.pressAll [Segmentation] {e : Editor} {h : History} (inStep : InStep e h) (keys : List (Outlook × Key)) :
    InStep (pressAll e h keys).1 (pressAll e h keys).2 := by
  induction keys generalizing e h with
  | nil => exact inStep
  | cons first r ih => exact ih (inStep.press first.1 first.2)

/-! ### The walk -/

/-- The editor and the history on a walk that began with the line `draft`, at place `p`. -/
structure Walks (l : List HistoryEntry) (draft : Text) (p : Nat) (e : Editor) (h : History) : Prop where
  entries : h.entries = l
  position : h.position = p
  bound : p ≤ l.length
  line : e.buffer.text = lineAt l draft p
  mode : e.mode = if p < l.length then .browsing else .editing
  draft : p < l.length → h.draft = draft

section
variable {l : List HistoryEntry} {draft : Text} {p : Nat} {e : Editor} {h : History}

/-- The walk begins at the end, with the line that is edited. -/
theorem walks_of_editing (editing : e.mode = .editing) (ended : h.position = h.entries.length) :
    Walks h.entries e.buffer.text h.entries.length e h := by
  refine ⟨rfl,ended,Nat.le_refl _,?_,?_,?_⟩
  · rw [History.lineAt_length]
  · rw [if_neg (Nat.lt_irrefl _)]
    exact editing
  · intro inside
    exact absurd inside (Nat.lt_irrefl _)

/-- The arrow back; a key finds the editor as if a line were edited. -/
theorem Walks.older (walks : Walks l draft p e h) :
    Walks l draft (p-1) ({ e with mode := .editing }.older h).1 ({ e with mode := .editing }.older h).2 := by
  obtain ⟨rfl,rfl,bound,line,-,kept⟩ := walks
  cases here : h.position with
  | zero =>
    rw [here] at line kept
    rw [older_of_first here]
    by_cases ended : h.atEnd = true
    · have empty : h.entries.length = 0 := by rw [← h.atEnd_iff.mp ended,here]
      rw [if_pos ended,if_pos ended]
      exact ⟨rfl,here,Nat.zero_le _,line,by simp [empty],by simp [empty]⟩
    · have inside : 0 < h.entries.length := by
        rw [h.atEnd_iff] at ended
        omega
      rw [if_neg ended,if_neg ended]
      exact ⟨rfl,here,Nat.zero_le _,line,by simp [inside],kept⟩
  | succ p =>
    have inside : p < h.entries.length := by omega
    rw [older_of_succ here inside]
    refine ⟨rfl,rfl,by omega,?_,?_,?_⟩
    · simp [LineBuffer.text,LineBuffer.atEnd,History.lineAt_of_lt inside]
    · simp [inside]
    · intro _
      by_cases ended : h.atEnd = true
      · rw [h.atEnd_iff.mp ended,History.lineAt_length] at line
        simpa [ended] using line
      · rw [h.atEnd_iff] at ended
        have same := kept (by omega)
        simpa [History.atEnd,ended] using same

/-- The arrow forward. -/
theorem Walks.newer (walks : Walks l draft p e h) (inside : p < l.length) :
    Walks l draft (p+1) ({ e with mode := .editing }.newer h).1 ({ e with mode := .editing }.newer h).2 := by
  obtain ⟨rfl,rfl,bound,-,-,kept⟩ := walks
  rw [newer_of_lt inside]
  refine ⟨rfl,rfl,inside,?_,?_,?_⟩
  · simp [LineBuffer.text,LineBuffer.atEnd,kept inside]
  · by_cases last : h.position + 1 = h.entries.length
    · simp [last]
    · have more : h.position + 1 < h.entries.length := by omega
      simp [last,more]
  · intro _
    exact kept inside

/-- One arrow. Only the arrow forward needs an entry to be shown: while a line is edited it does nothing. -/
theorem Walks.press [Segmentation] (walks : Walks l draft p e h) (o : Outlook) {key : Key} (arrow : key = .up ∨ key = .down) :
    Walks l draft (place l.length p key) (e.press h o key).2.1 (e.press h o key).2.2 := by
  have bound := walks.bound
  by_cases inside : p < l.length
  · have browsing : e.mode = .browsing := by simpa [inside] using walks.mode
    rcases arrow with rfl | rfl
    · simp only [Editor.press,browsing]
      exact walks.older
    · have next : place l.length p .down = p+1 := Nat.min_eq_left inside
      rw [next]
      simp only [Editor.press,browsing]
      exact walks.newer inside
  · have editing : e.mode = .editing := by simpa [inside] using walks.mode
    rcases arrow with rfl | rfl
    · simp only [Editor.press,editing]
      exact walks.older
    · have last : place l.length p .down = p := by
        show min (p+1) l.length = p
        omega
      have same : (e.press h o .down).2 = (e,h) := by
        simp only [Editor.press,editing]
        rw [← editing]
        rfl
      rw [last,same]
      exact walks

/-- Arrows, one after the other. -/
theorem Walks.pressAll [Segmentation] (walks : Walks l draft p e h) {arrows : List (Outlook × Key)}
    (only : ∀ a ∈ arrows, a.2 = .up ∨ a.2 = .down) :
    Walks l draft (arrows.foldl (fun p a => place l.length p a.2) p) (pressAll e h arrows).1
      (pressAll e h arrows).2 := by
  induction arrows generalizing p e h with
  | nil => exact walks
  | cons first r ih =>
    apply ih (walks.press first.1 (only first (by simp)))
    intro a mem
    exact only a (by simp [mem])

end

/-- **The walk through the history.** Let a new editor begin with the reader at the end of a history. After any keys the
    reader stands at the end while a line is edited, and before it while an entry is shown. From any line that is edited
    then, arrows lead to the place that they are counted to, from the end on and not beyond the first entry and the end. The
    entry of that place is shown, and exactly the line that was edited at the end; the mode and the reader tell which of the
    two it is, and the entries stay as they are. -/
theorem arrows_walk [Segmentation] {h : History} (ended : h.atEnd = true) (keys : List (Outlook × Key)) :
    let now := pressAll empty h keys
    let n := h.entries.length
    (now.1.mode = .editing → now.2.atEnd = true) ∧ (now.1.mode = .browsing → now.2.atEnd = false) ∧
      (now.1.mode = .editing → ∀ arrows : List (Outlook × Key), (∀ a ∈ arrows, a.2 = .up ∨ a.2 = .down) →
        let p := arrows.foldl (fun p a => place n p a.2) n
        let later := pressAll now.1 now.2 arrows
        (∀ inside : p < n, later.1.buffer.text = h.entries[p].command) ∧
          (p = n → later.1.buffer.text = now.1.buffer.text) ∧
          later.1.mode = (if p < n then .browsing else .editing) ∧
          (later.2.atEnd = true ↔ p = n) ∧ p ≤ n ∧ later.2.entries = h.entries) := by
  intro now n
  have inStep : InStep now.1 now.2 := (inStep_of_editing rfl (h.atEnd_iff.mp ended)).pressAll keys
  have same : now.2.entries = h.entries := pressAll_entries empty h keys
  refine ⟨?_,?_,?_⟩
  · intro editing
    exact now.2.atEnd_iff.mpr (inStep.editing editing)
  · intro browsing
    have inside := inStep.browsing browsing
    simp only [History.atEnd,beq_eq_false_iff_ne]
    omega
  · intro editing arrows only p later
    have walks := (walks_of_editing editing (inStep.editing editing)).pressAll only
    rw [same] at walks
    refine ⟨?_,?_,walks.mode,?_,walks.bound,walks.entries⟩
    · intro inside
      rw [walks.line,History.lineAt_of_lt inside]
    · intro back
      rw [walks.line]
      show lineAt h.entries now.1.buffer.text p = _
      rw [back,History.lineAt_length]
    · rw [later.2.atEnd_iff,walks.position,walks.entries]

/-- The line is an entry that has been taken up, with the cursor at its beginning. It is there again after a walk beyond the
    first of two entries. -/
theorem arrows_walk_back :
    let h := ((History.inMemory 5 true).push ⟨txt "ls",0,0⟩).push ⟨txt "pwd",0,0⟩
    let o : Outlook := ⟨⟨.empty,[]⟩,fun _ => [],⟨0,fun _ => none,fun _ => none⟩⟩
    let keys := [(o,.up),(o,.home)]
    let arrows := [(o,.up),(o,.up),(o,.up),(o,.down),(o,.down)]
    h.atEnd = true ∧ (pressAll empty h keys).1 = ⟨⟨[],txt "pwd"⟩,.editing,none⟩ ∧
      (∀ a ∈ arrows, a.2 = .up ∨ a.2 = .down) ∧
      (pressAll (pressAll empty h keys).1 (pressAll empty h keys).2 arrows).1.buffer.text = txt "pwd" ∧
      (pressAll (pressAll empty h keys).1 (pressAll empty h keys).2 arrows).1.mode = .editing ∧
      (pressAll (pressAll empty h keys).1 (pressAll empty h keys).2 arrows).2.atEnd = true := by
  intro h o keys arrows
  have ended : h.atEnd = true := by decide
  have taken : (pressAll empty h keys).1 = ⟨⟨[],txt "pwd"⟩,.editing,none⟩ := rfl
  have editing : (pressAll empty h keys).1.mode = .editing := by rw [taken]
  have only : ∀ a ∈ arrows, a.2 = .up ∨ a.2 = .down := by simp [arrows]
  have home : arrows.foldl (fun p a => place h.entries.length p a.2) h.entries.length = h.entries.length := by decide
  obtain ⟨-,-,walk⟩ := arrows_walk ended keys
  obtain ⟨-,draft,mode,there,-,-⟩ := walk editing arrows only
  have line := draft home
  rw [home,if_neg (Nat.lt_irrefl _)] at mode
  refine ⟨ended,taken,only,?_,mode,there.mpr home⟩
  rw [line,taken]
  rfl

end Editor
end JobShell

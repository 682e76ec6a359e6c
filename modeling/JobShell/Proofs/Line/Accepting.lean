import JobShell.Line.View
import JobShell.Proofs.Line.Cursor
import JobShell.Proofs.Line.Searching

/-!
# The end of a search

A search leaves the line alone until it ends. It ends in one of three ways: it is
given up and the line is as it was (`Editor.Searches.giveUp`), what it shows is
submitted (`Editor.Searches.submit`), or what it shows becomes the line that the
key then edits (`Editor.Searches.accept`). In each of them, what is shown is the
entry that the search has come to, which is there unless the history is empty.
-/
namespace JobShell

theorem History.lt_of_find? {h : History} {query : Text} {start i : Nat} (found : h.find? query start = some i) :
    i < h.entries.length := by
  rw [History.find?_eq] at found
  obtain ⟨inside,-⟩ := mem_below.mp (List.mem_of_mem_head? found)
  omega

namespace Search
variable {h : History} {s : Search}

/-- The keys with which a search goes on. -/
def goesOn : Key → Bool
  | .char _ | .backspace | .ctrlR => true
  | _ => false

/-- The search has come to an entry, unless there is none. -/
def Inside (s : Search) (h : History) : Prop := s.matched.elim (h.entries = []) (· < h.entries.length)

/-- A search that fails stays where it is. -/
theorem Inside.from? (inside : s.Inside h) (query : Text) (start : Option Nat) :
    ({ s with query := query }.from? h start).Inside h := by
  rw [Search.from?]
  cases found : start.bind (h.find? query) with
  | none => exact inside
  | some i =>
    obtain ⟨j,-,here⟩ := Option.bind_eq_some_iff.mp found
    exact History.lt_of_find? here

theorem from?_query (start : Option Nat) : (s.from? h start).query = s.query := by
  rw [from?]
  split <;> rfl

/-- Something is shown unless there are no entries. -/
theorem Inside.entry?_eq_none_iff (inside : s.Inside h) : s.entry? h = none ↔ h.entries = [] := by
  cases matched : s.matched with
  | none =>
    rw [Inside,matched] at inside
    unfold entry?
    rw [matched]
    exact ⟨fun _ => inside,fun _ => rfl⟩
  | some i =>
    rw [Inside,matched] at inside
    have there : i < h.entries.length := inside
    have filled : h.entries ≠ [] := List.ne_nil_of_length_pos (by omega)
    unfold entry?
    rw [matched,Option.bind_some,History.command?,List.getElem?_eq_getElem there]
    simp [filled]

/-- What is shown is a command of the history. -/
theorem mem_of_entry? {text : Text} (shown : s.entry? h = some text) : text ∈ h.entries.map (·.command) := by
  obtain ⟨i,-,here⟩ := Option.bind_eq_some_iff.mp shown
  obtain ⟨entry,there,rfl⟩ := Option.map_eq_some_iff.mp here
  exact List.mem_map_of_mem (List.mem_of_getElem? there)

end Search

namespace Editor

/-- The editor is in a search for `q` that was begun in the editor `e`. -/
structure Searches (e : Editor) (h : History) (q : Text) (s : Search) (now : Editor × History) : Prop where
  history : now.2 = h
  mode : now.1.mode = .searching s
  buffer : now.1.buffer = e.buffer
  notice : now.1.notice = e.notice
  query : s.query = q
  saved : s.saved = e.buffer
  inside : s.Inside h

section
variable {e : Editor} {h : History} {q : Text} {s : Search} {now : Editor × History}

theorem searches_start [Segmentation] (idle : e.mode = .editing ∨ e.mode = .browsing) (o : Outlook) :
    ∃ s, Searches e h [] s (e.press h o .ctrlR).2 := by
  rw [press_search idle o]
  refine ⟨_,rfl,rfl,rfl,rfl,rfl,rfl,?_⟩
  cases entries : h.entries with
  | nil => simp [Search.Inside,entries]
  | cons first rest => simp [Search.Inside,entries]

/-- A search from an entry on changes nothing but what is searched for and where it has come to. -/
theorem Searches.from? (searches : Searches e h q s now) (query : Text) (start : Option Nat) :
    Searches e h query ({ s with query := query }.from? h start)
      ({ now.1 with mode := .searching ({ s with query := query }.from? h start) },h) where
  history := rfl
  mode := rfl
  buffer := searches.buffer
  notice := searches.notice
  query := Search.from?_query start
  saved := (saved_from? _ h start).trans searches.saved
  inside := searches.inside.from? query start

/-- One key with which the search goes on. -/
theorem Searches.step [Segmentation] (searches : Searches e h q s now) (o : Outlook) {key : Key} (on : Search.goesOn key = true) :
    ∃ s', Searches e h (Search.typed q key) s' (now.1.press now.2 o key).2 := by
  rw [press,searches.mode,searches.history,← searches.query]
  cases key with
  | char c => exact ⟨_,searches.from? _ _⟩
  | backspace => exact ⟨_,searches.from? _ _⟩
  | ctrlR => exact ⟨_,searches.from? _ _⟩
  | _ => cases on

/-- Any number of steps. -/
theorem Searches.pressAll [Segmentation] (searches : Searches e h q s now) {keys : List (Outlook × Key)}
    (on : ∀ a ∈ keys, Search.goesOn a.2 = true) :
    ∃ s', Searches e h (keys.foldl (fun q a => Search.typed q a.2) q) s' (pressAll now.1 now.2 keys) := by
  induction keys generalizing q s now with
  | nil => exact ⟨s,searches⟩
  | cons first rest ih =>
    obtain ⟨s',next⟩ := searches.step first.1 (on first (by simp))
    apply ih next
    intro a mem
    exact on a (by simp [mem])

theorem Searches.render (searches : Searches e h q s now) (prompt : Text) :
    now.1.render prompt h = '\r' :: (if s.failed then txt "(failed reverse-i-search)" else txt "(reverse-i-search)") ++
      '\x60' :: q ++ txt "\x27: " ++ (s.entry? h).getD [] ++ eraseToEnd := by
  rw [Editor.render,searches.mode,← searches.query]

/-- The search is given up. -/
theorem Searches.giveUp [Segmentation] (searches : Searches e h q s now) (o : Outlook) {key : Key} (away : key = .ctrlC ∨ key = .ctrlG) :
    now.1.press h o key = (none,⟨e.buffer,.editing,e.notice⟩,h.leave) := by
  rw [press,searches.mode,← searches.saved,← searches.notice]
  rcases away with rfl | rfl
  · rfl
  · rfl

/-- The editor once a search is over. -/
theorem Searches.result_eq (searches : Searches e h q s now) :
    ({ now.1 with mode := .editing } : Editor).withBuffer (s.result h) =
      ⟨.atEnd ((s.entry? h).getD e.buffer.text),.editing,e.notice⟩ := by
  rw [withBuffer,Search.result,searches.saved,searches.notice]

/-- What is shown is submitted. -/
theorem Searches.submit [Segmentation] (searches : Searches e h q s now) (o : Outlook) :
    now.1.press h o .enter =
      (some (.submitted ((s.entry? h).getD e.buffer.text)),
        ⟨.atEnd ((s.entry? h).getD e.buffer.text),.editing,e.notice⟩,h.leave) := by
  have text : (s.result h).text = (s.entry? h).getD e.buffer.text := by
    rw [Search.result,searches.saved,LineBuffer.atEnd,LineBuffer.text,List.append_nil]
  rw [press,searches.mode,← searches.result_eq,← text]
  rfl

/-- What is shown is the line that another key finds. -/
theorem Searches.accept [Segmentation] (searches : Searches e h q s now) (o : Outlook) {key : Key} (other : Search.goesOn key = false)
    (kept : key ≠ .ctrlC ∧ key ≠ .ctrlG) :
    now.1.press h o key =
      (⟨.atEnd ((s.entry? h).getD e.buffer.text),.editing,e.notice⟩ : Editor).press h.leave o key := by
  rw [press,searches.mode,← searches.result_eq]
  cases key with
  | char c => cases other
  | backspace => cases other
  | ctrlR => cases other
  | ctrlC => exact absurd rfl kept.1
  | ctrlG => exact absurd rfl kept.2
  | _ => rfl

end

/-- **What a search shows is what runs.** A search is begun while a line is edited or an entry is shown, and any keys follow
    with which it goes on. The line and the cursor have not changed by then, nor has the history. A command of the
    history is shown behind the query unless there is none; it may be that of an earlier step. If the search is given up,
    the line is edited on as it was, and the reader stands at the end of the history. With the key that ends a line, the
    command that is shown is submitted, or else the line. Any other key does what it does where that text is edited with
    the cursor at its end. -/
theorem search_runs_shown [Segmentation] {e : Editor} {h : History} (idle : e.mode = .editing ∨ e.mode = .browsing) (o : Outlook)
    {keys : List (Outlook × Key)} (on : ∀ a ∈ keys, Search.goesOn a.2 = true) :
    let now := pressAll e h ((o,.ctrlR) :: keys)
    now.1.buffer = e.buffer ∧ now.2 = h ∧ h.leave.atEnd = true ∧
      ∃ s, now.1.mode = .searching s ∧
        let shown := s.entry? h
        let text := shown.getD e.buffer.text
        (shown = none ↔ h.entries = []) ∧ (∀ command, shown = some command → command ∈ h.entries.map (·.command)) ∧
        (∀ prompt, now.1.render prompt h =
          '\r' :: (if s.failed then txt "(failed reverse-i-search)" else txt "(reverse-i-search)") ++
            '\x60' :: keys.foldl (fun q a => Search.typed q a.2) [] ++ txt "\x27: " ++ shown.getD [] ++ eraseToEnd) ∧
        ∀ o' key, Search.goesOn key = false →
          (key = .ctrlC ∨ key = .ctrlG → now.1.press h o' key = (none,⟨e.buffer,.editing,e.notice⟩,h.leave)) ∧
            (key = .enter →
              now.1.press h o' key = (some (.submitted text),⟨.atEnd text,.editing,e.notice⟩,h.leave)) ∧
            (key ≠ .ctrlC ∧ key ≠ .ctrlG →
              now.1.press h o' key = (⟨.atEnd text,.editing,e.notice⟩ : Editor).press h.leave o' key) := by
  intro now
  obtain ⟨first,begun⟩ := searches_start idle o
  obtain ⟨s,searches⟩ := begun.pressAll on
  refine ⟨searches.buffer,searches.history,by simp [History.leave,History.atEnd],s,searches.mode,?_⟩
  intro shown text
  refine ⟨searches.inside.entry?_eq_none_iff,fun _ => Search.mem_of_entry?,searches.render,?_⟩
  intro o' key other
  refine ⟨searches.giveUp o',?_,searches.accept o' other⟩
  rintro rfl
  exact searches.submit o'

/-- A search over two entries that is begun in the middle of a line, and fails in the end: what it shows is the older
    entry, which is then edited. -/
theorem search_runs_shown_after_failure :
    let h := ((History.inMemory 5 true).push ⟨txt "Make all",0,0⟩).push ⟨txt "ls",0,0⟩
    let o : Outlook := ⟨⟨.empty,[]⟩,fun _ => [],⟨0,fun _ => none,fun _ => none⟩⟩
    let e : Editor := ⟨⟨txt "ec",txt "ho"⟩,.editing,none⟩
    let keys := [(o,Key.char 'm'),(o,.char 's'),(o,.backspace),(o,.ctrlR)]
    let now := pressAll e h ((o,.ctrlR) :: keys)
    e.mode = .editing ∧ (∀ a ∈ keys, Search.goesOn a.2 = true) ∧
      now.1.render [] h = txt "\r(failed reverse-i-search)\x60m\x27: Make all\x1b[K" ∧
      now.1.press h o .ctrlG = (none,e,h.leave) ∧
      (now.1.press h o .enter).1 = some (.submitted (txt "Make all")) ∧
      now.1.press h o .ctrlW = (none,⟨⟨txt "Make ",[]⟩,.editing,none⟩,h.leave) := by
  intro h o e keys now
  have idle : e.mode = .editing := rfl
  have on : ∀ a ∈ keys, Search.goesOn a.2 = true := by
    intro a mem
    simp only [keys,List.mem_cons,List.not_mem_nil,or_false] at mem
    rcases mem with rfl | rfl | rfl | rfl <;> rfl
  obtain ⟨-,-,-,s,mode,-,-,screen,ends⟩ := search_runs_shown (h := h) (.inl idle) o on
  have failed : now.1.mode = .searching ⟨txt "m",some 0,true,e.buffer⟩ := by decide
  obtain rfl : ⟨txt "m",some 0,true,e.buffer⟩ = s := Mode.searching.inj (failed.symm.trans mode)
  obtain ⟨givenUp,-,-⟩ := ends o .ctrlG rfl
  obtain ⟨-,submitted,-⟩ := ends o .enter rfl
  obtain ⟨-,-,accepted⟩ := ends o .ctrlW rfl
  refine ⟨idle,on,(screen []).trans (by decide),givenUp (.inr rfl),?_,(accepted (by decide)).trans (by decide)⟩
  rw [submitted rfl]
  decide

end Editor
end JobShell

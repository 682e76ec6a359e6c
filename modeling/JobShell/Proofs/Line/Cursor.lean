import JobShell.Line.Editor
import JobShell.Proofs.Text.Clusters

/-!
# Where the cursor stands

The cursor is meant to stand between two clusters of the line. It does so after
an insertion, which puts it behind the cluster that the character ends up in, and
after every key that only moves it. A key that takes text away in front of it or
behind it, or that completes a word, leaves it where the rest of the line meets,
and there two clusters may have become one.
-/
namespace JobShell
open Segmentation (Apart Consecutive Lawful)

namespace LineBuffer
variable [Segmentation] [Lawful]

/-- The cursor is at an end of the line, or between two clusters of the whole line. -/
def IsAligned (b : LineBuffer) : Prop := ∃ n, b.cursor = Segmentation.boundary b.text n

/-- The cursor stands between two clusters when the text before it does not join the text after it. -/
theorem isAligned_iff (b : LineBuffer) : b.IsAligned ↔ Apart b.before b.after := by
  constructor
  · rintro ⟨n,place⟩
    have whole := Consecutive.flatten_clusters b.text
    rw [← List.take_append_drop n (Segmentation.clusters b.text),List.flatten_append] at whole
    have here : Text.cut? b.cursor b.text = some (b.before,b.after) := Text.cut?_append b.before b.after
    have there := Text.cut?_append ((Segmentation.clusters b.text).take n).flatten ((Segmentation.clusters b.text).drop n).flatten
    rw [whole] at there
    rw [place,Segmentation.boundary,there] at here
    exact Segmentation.apart_of_flatten (n := n) (congrArg Prod.fst (Option.some.inj here))
  · intro apart
    refine ⟨(Segmentation.clusters b.before).length,?_⟩
    rw [Segmentation.boundary,text,apart,List.take_left,Consecutive.flatten_clusters]
    rfl

/-! ### One cluster to the left, one to the right -/

/-- Wherever the cursor was, one cluster to the left of it there is a place between two clusters. -/
theorem apart_moveLeft (b : LineBuffer) : Apart b.moveLeft.before b.moveLeft.after :=
  Segmentation.apart_cutLast b.before b.after

theorem apart_moveRight {b : LineBuffer} (apart : Apart b.before b.after) : Apart b.moveRight.before b.moveRight.after :=
  apart.cutFirst

/-- Wherever the cursor was, after an insertion it stands between two clusters. -/
theorem apart_insert (b : LineBuffer) (c : Char) : Apart (b.insert c).before (b.insert c).after :=
  apart_moveRight (apart_moveLeft _)

end LineBuffer

/-- Keys that may take text away next to the cursor. -/
def Key.removes : Key → Bool
  | .backspace | .delete | .ctrlD | .ctrlW | .tab => true
  | _ => false

namespace Editor

theorem mode_complete (e : Editor) (o : Outlook) : (e.complete o).mode = e.mode := by
  rw [complete]
  split <;> rfl

theorem saved_from? (s : Search) (h : History) (start : Option Nat) : (s.from? h start).saved = s.saved := by
  rw [Search.from?]
  split <;> rfl

section
variable [Segmentation]

/-- The text before the cursor does not join the text after it, neither in the line nor in the one before a search. -/
structure Sound (e : Editor) : Prop where
  line : Apart e.buffer.before e.buffer.after
  saved : ∀ s, e.mode = .searching s → Apart s.saved.before s.saved.after

theorem Sound.withBuffer {e : Editor} (sound : e.Sound) {b : LineBuffer} (apart : Apart b.before b.after) :
    (e.withBuffer b).Sound := ⟨apart,sound.saved⟩

theorem Sound.withMode {e : Editor} (sound : e.Sound) {mode : Mode} (idle : ∀ s, mode ≠ .searching s) :
    Sound { e with mode := mode } := ⟨sound.line,fun s searching => absurd searching (idle s)⟩

theorem Sound.startSearch {e : Editor} (sound : e.Sound) (h : History) : (e.startSearch h).Sound :=
  ⟨sound.line,fun s searching => by cases searching; exact sound.line⟩

variable [Lawful]

theorem sound_empty : Sound empty := ⟨Segmentation.apart_nil_left [],fun _ searching => by cases searching⟩

theorem Sound.atEnd {e : Editor} (sound : e.Sound) (t : Text) : (e.withBuffer (.atEnd t)).Sound :=
  sound.withBuffer (Segmentation.apart_nil_right t)

theorem Sound.older {e : Editor} (sound : e.Sound) (h : History) : (e.older h).1.Sound := by
  have shown : ∀ {e : Editor} (k : History), e.Sound →
      Sound { e with mode := if k.atEnd then e.mode else .browsing } := by
    intro e k sound
    by_cases ended : k.atEnd = true
    · rw [if_pos ended]
      exact sound
    · rw [if_neg ended]
      exact sound.withMode fun s searching => by cases searching
  simp only [Editor.older]
  generalize (if h.atEnd then h.save e.buffer.text else h) = k
  cases k.older? with
  | none => exact shown k sound
  | some entry => exact shown entry.2 (sound.atEnd entry.1)

theorem Sound.newer {e : Editor} (sound : e.Sound) (h : History) : (e.newer h).1.Sound := by
  have shown : ∀ {e : Editor} (k : History), e.Sound →
      Sound { e with mode := if k.atEnd then .editing else .browsing } := by
    intro e k sound
    exact sound.withMode fun s searching => by split_ifs at searching
  simp only [Editor.newer]
  cases h.newer? with
  | none => exact shown h sound
  | some entry => exact shown entry.2 (sound.atEnd entry.1)

theorem Sound.edit {e : Editor} (sound : e.Sound) (h : History) (o : Outlook) (key : Key)
    (apart : key.removes = true → Apart (e.edit h o key).2.1.buffer.before (e.edit h o key).2.1.buffer.after) :
    (e.edit h o key).2.1.Sound := by
  cases key with
  | enter | ctrlG | unknown | down => exact sound
  | ctrlL => exact ⟨sound.line,sound.saved⟩
  | ctrlD =>
    have apart := apart rfl
    rw [Editor.edit] at apart ⊢
    split_ifs at apart ⊢
    · exact sound
    · exact ⟨apart,sound.saved⟩
  | ctrlC => exact ⟨Segmentation.apart_nil_left [],sound.saved⟩
  | char c => exact sound.withBuffer (e.buffer.apart_insert c)
  | backspace => exact sound.withBuffer (apart rfl)
  | delete => exact sound.withBuffer (apart rfl)
  | ctrlW => exact sound.withBuffer (apart rfl)
  | tab => exact ⟨apart rfl,fun s searching => sound.saved s (by rwa [← mode_complete e o])⟩
  | left => exact sound.withBuffer e.buffer.apart_moveLeft
  | right => exact sound.withBuffer (LineBuffer.apart_moveRight sound.line)
  | home | ctrlA => exact sound.withBuffer (Segmentation.apart_nil_left _)
  | toEnd | ctrlE => exact sound.atEnd _
  | ctrlK => exact sound.withBuffer (Segmentation.apart_nil_right _)
  | ctrlU => exact sound.withBuffer (Segmentation.apart_nil_left _)
  | up => exact sound.older h
  | ctrlR => exact sound.startSearch h

/-- A key of a search leaves the line as it is, or ends the search with a line whose cursor is at its end. -/
theorem Sound.search {e : Editor} (sound : e.Sound) {s : Search} (saved : Apart s.saved.before s.saved.after)
    (h : History) (o : Outlook) (key : Key)
    (apart : key.removes = true → Apart (e.search s h o key).2.1.buffer.before (e.search s h o key).2.1.buffer.after) :
    (e.search s h o key).2.1.Sound := by
  have goesOn : ∀ (t : Search) (start : Option Nat), t.saved = s.saved →
      Sound { e with mode := .searching (t.from? h start) } := by
    intro t start same
    refine ⟨sound.line,fun u searching => ?_⟩
    cases searching
    rw [saved_from?,same]
    exact saved
  cases key with
  | char c => exact goesOn _ _ rfl
  | ctrlR => exact goesOn _ _ rfl
  | backspace => exact goesOn _ _ rfl
  | enter => exact sound.atEnd _
  | ctrlC | ctrlG => exact sound.withBuffer saved
  | _ => exact (sound.atEnd _).edit h.leave o _ apart

theorem Sound.browse {e : Editor} (sound : e.Sound) (h : History) (o : Outlook) (key : Key)
    (apart : key.removes = true → Apart (e.browse h o key).2.1.buffer.before (e.browse h o key).2.1.buffer.after) :
    (e.browse h o key).2.1.Sound := by
  cases key with
  | up => exact sound.older h
  | down => exact sound.newer h
  | ctrlR => exact sound.startSearch h
  | _ => exact sound.edit h.leave o _ apart

/-- One key: only a key that takes text away may make two clusters one at the cursor. -/
theorem Sound.press {e : Editor} (sound : e.Sound) (h : History) (o : Outlook) (key : Key)
    (apart : key.removes = true → Apart (e.press h o key).2.1.buffer.before (e.press h o key).2.1.buffer.after) :
    (e.press h o key).2.1.Sound := by
  have rest : Sound { e with mode := .editing } := sound.withMode fun s searching => by cases searching
  rw [Editor.press] at apart ⊢
  cases mode : e.mode with
  | editing =>
    simp only [mode] at apart ⊢
    exact rest.edit h o key apart
  | browsing =>
    simp only [mode] at apart ⊢
    exact rest.browse h o key apart
  | searching s =>
    simp only [mode] at apart ⊢
    exact rest.search (sound.saved s mode) h o key apart

/-- The keys of a run, each with the editor after it. Completion may see other commands and files at every key. -/
def trace (e : Editor) (h : History) : List (Outlook × Key) → List (Key × Editor)
  | [] => []
  | (o,key) :: r => (key,(e.press h o key).2.1) :: trace (e.press h o key).2.1 (e.press h o key).2.2 r

theorem Sound.trace {e : Editor} (sound : e.Sound) (h : History) (keys : List (Outlook × Key))
    (apart : ∀ p ∈ trace e h keys, p.1.removes = true → Apart p.2.buffer.before p.2.buffer.after) :
    ∀ p ∈ trace e h keys, p.2.Sound := by
  induction keys generalizing e h with
  | nil => simp [Editor.trace]
  | cons first r ih =>
    obtain ⟨o,key⟩ := first
    rw [Editor.trace] at apart ⊢
    have now := sound.press h o key (apart _ List.mem_cons_self)
    intro p mem
    rcases List.mem_cons.mp mem with rfl | later
    · exact now
    · exact ih now _ (fun q mem => apart q (List.mem_cons_of_mem _ mem)) p later

/-- **Between clusters.** Along every run from an empty line the cursor stands after every key between two clusters,
    exactly when after every key that may take text away the text before the cursor does not join the text after it. -/
theorem trace_aligned_iff (h : History) (keys : List (Outlook × Key)) :
    (∀ p ∈ trace empty h keys, p.2.buffer.IsAligned) ↔
      ∀ p ∈ trace empty h keys, p.1.removes = true → Apart p.2.buffer.before p.2.buffer.after := by
  constructor
  · intro aligned p mem _
    exact p.2.buffer.isAligned_iff.mp (aligned p mem)
  · intro apart p mem
    exact p.2.buffer.isAligned_iff.mpr (sound_empty.trace h keys apart p mem).line

end

/-- Half of a flag is typed behind a letter, and deleted again: it joins neither what is before it nor what is behind it. -/
theorem trace_aligned_flags :
    let o : Outlook := ⟨⟨.empty,[]⟩,fun _ => [],⟨0,fun _ => none,fun _ => none⟩⟩
    let keys := [.char '🇦',.char '🇧',.char 'x',.char '🇨',.left,.char '🇩',.backspace,.left].map (fun key => (o,key))
    ∀ p ∈ trace empty (.inMemory 1 true) keys, p.2.buffer.IsAligned := by
  intro o keys
  exact (trace_aligned_iff (.inMemory 1 true) keys).mpr (by decide +kernel)

/-- Between two regional indicators a character is deleted. They become one cluster, and the cursor is inside it. -/
theorem trace_misaligned :
    let o : Outlook := ⟨⟨.empty,[]⟩,fun _ => [],⟨0,fun _ => none,fun _ => none⟩⟩
    let keys := [.char '🇦',.char 'x',.char '🇧',.left,.backspace].map (fun key => (o,key))
    (trace empty (.inMemory 1 true) keys).getLast?.map (fun p => p.2.buffer) = some ⟨['🇦'],['🇧']⟩ ∧
      Segmentation.clusters ['🇦','🇧'] = [['🇦','🇧']] ∧ ¬ LineBuffer.IsAligned ⟨['🇦'],['🇧']⟩ := by
  intro o keys
  refine ⟨by decide +kernel,by decide +kernel,?_⟩
  rw [LineBuffer.isAligned_iff]
  decide +kernel

end Editor
end JobShell

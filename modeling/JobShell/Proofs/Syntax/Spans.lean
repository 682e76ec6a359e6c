import JobShell.Proofs.Text.Cuts
import JobShell.Syntax.Word
import Mathlib.Tactic.SplitIfs

/-!
# The substitutions of a word

What a word is after its pieces are written one behind the other: their text, and
the byte range that each substitution has in it. These ranges cut the text exactly
at its substitutions, as they are written.
-/
namespace JobShell

/-! ### Pieces -/

namespace Text

theorem width_reverse (t : Text) : width t.reverse = width t := by
  induction t with
  | nil => rfl
  | cons c r ih => simp [ih,Nat.add_comm]

end Text

namespace Atom

/-- A piece as it is written. -/
def text : Atom → Text
  | .char c => [c]
  | .command span => span

/-- The substitutions among pieces. -/
def commands (l : List Atom) : List Text :=
  l.filterMap fun
    | .char _ => none
    | .command span => some span

/-- The byte ranges of the substitutions among pieces that begin at byte `start`. -/
def spansFrom (start : Nat) : List Atom → List (Nat × Nat)
  | [] => []
  | .char c :: r => spansFrom (start + c.utf8Size) r
  | .command t :: r => (start,start + Text.width t) :: spansFrom (start + Text.width t) r

@[simp] theorem commands_append (l m : List Atom) : commands (l ++ m) = commands l ++ commands m :=
  List.filterMap_append

@[simp] theorem commands_char (c : Char) (l : List Atom) : commands (.char c :: l) = commands l := rfl

@[simp] theorem commands_command (t : Text) (l : List Atom) : commands (.command t :: l) = t :: commands l := rfl

@[simp] theorem commands_map_char (t : Text) : commands (t.map .char) = [] := by
  induction t with
  | nil => rfl
  | cons c r ih => exact ih

end Atom

/-! ### Writing -/

namespace Draft

/-- The number of bytes is that of the text. -/
def Sized (d : Draft) : Prop := d.size = Text.width d.reversed

theorem sized_empty (quoted : Bool) : (empty quoted).Sized := rfl

/-- A text is put behind what there is, also when that is nothing. -/
theorem Sized.pushText_eq {d : Draft} (sized : d.Sized) (t : Text) :
    d.pushText t = { d with reversed := t.reverse ++ d.reversed, size := d.size + Text.width t } := by
  rw [pushText]
  split_ifs with nothing
  · have none : d.reversed = [] := List.isEmpty_iff.mp nothing
    rw [sized,none,List.append_nil,Text.width_nil,Nat.zero_add]
  · rfl

theorem Sized.pushText {d : Draft} (sized : d.Sized) (t : Text) : (d.pushText t).Sized := by
  rw [sized.pushText_eq,Sized,Text.width_append,Text.width_reverse,sized,Nat.add_comm]

theorem Sized.pushSpan {d : Draft} (sized : d.Sized) (span : Text) : (d.pushSpan span).Sized := by
  show d.size + Text.width span = Text.width (span.reverse ++ d.reversed)
  rw [Text.width_append,Text.width_reverse,sized,Nat.add_comm]

theorem Sized.push {d : Draft} (sized : d.Sized) (a : Atom) : (d.push a).Sized := by
  cases a with
  | char c => exact sized.pushText [c]
  | command span => exact sized.pushSpan span

theorem Sized.foldl_push {d : Draft} (sized : d.Sized) (l : List Atom) : (l.foldl .push d).Sized := by
  induction l generalizing d with
  | nil => exact sized
  | cons a r ih => exact ih (sized.push a)

/-- **What is written.** The text grows by what is written, and the ranges by those of the substitutions in it. -/
theorem Sized.foldl_push_eq {d : Draft} (sized : d.Sized) (l : List Atom) :
    l.foldl .push d = ⟨(l.flatMap Atom.text).reverse ++ d.reversed,d.size + Text.width (l.flatMap Atom.text),
      (Atom.spansFrom d.size l).reverse ++ d.spans,d.quoted⟩ := by
  induction l generalizing d with
  | nil => simp [Atom.spansFrom]
  | cons a r ih =>
    rw [List.foldl_cons,ih (sized.push a)]
    cases a with
    | char c => simp [Draft.push,sized.pushText_eq,Atom.spansFrom,Atom.text,Nat.add_assoc]
    | command t => simp [Draft.push,Draft.pushSpan,Atom.spansFrom,Atom.text,Nat.add_assoc]

/-- Characters that are written one by one are written as a text. -/
theorem Sized.foldl_push_chars {d : Draft} (sized : d.Sized) (t : Text) : (t.map .char).foldl .push d = d.pushText t := by
  have spans : ∀ start, Atom.spansFrom start (t.map .char) = [] := by
    induction t with
    | nil => exact fun _ => rfl
    | cons c r ih => exact fun start => ih _
  rw [sized.foldl_push_eq,sized.pushText_eq,spans]
  simp [List.flatMap_map,Atom.text]

/-- A draft with pieces behind it, some of which may be quoted. -/
def extend (d : Draft) (l : List Atom) (quoted : Bool) : Draft := { l.foldl .push d with quoted := d.quoted || quoted }

variable {d : Draft} (sized : d.Sized)
include sized

theorem Sized.extend (l : List Atom) (quoted : Bool) : (d.extend l quoted).Sized := sized.foldl_push l

theorem Sized.extend_extend (l m : List Atom) (p q : Bool) : (d.extend l p).extend m q = d.extend (l ++ m) (p || q) := by
  rw [Draft.extend,(sized.extend l p).foldl_push_eq,Draft.extend,Draft.extend,List.foldl_append,
    (sized.foldl_push l).foldl_push_eq m,Bool.or_assoc]

theorem Sized.pushText_eq_extend (t : Text) : d.pushText t = d.extend (t.map .char) false := by
  rw [Draft.extend,sized.foldl_push_chars,Bool.or_false,sized.pushText_eq]

/-- It makes no difference when a word becomes a quoted one. -/
theorem Sized.foldl_push_quoted (l : List Atom) (quoted : Bool) :
    l.foldl .push { d with quoted := d.quoted || quoted } = d.extend l quoted := by
  have sized' : Sized { d with quoted := d.quoted || quoted } := sized
  rw [Draft.extend,sized.foldl_push_eq,sized'.foldl_push_eq]

theorem Sized.foldl_push_true (l : List Atom) : l.foldl .push { d with quoted := true } = d.extend l true := by
  rw [← sized.foldl_push_quoted,Bool.or_true]

end Draft

namespace Word

@[simp] theorem quoted_ofAtoms (l : List Atom) (quoted : Bool) : (ofAtoms l quoted).quoted = quoted := by
  rw [ofAtoms,(Draft.sized_empty quoted).foldl_push_eq]
  rfl

theorem ofAtoms_eq (l : List Atom) (quoted : Bool) :
    ofAtoms l quoted = ⟨l.flatMap Atom.text,Atom.spansFrom 0 l,quoted⟩ := by
  rw [ofAtoms,(Draft.sized_empty quoted).foldl_push_eq]
  simp [Draft.word,Draft.empty]

theorem ofAtoms_map_char (t : Text) (quoted : Bool) : ofAtoms (t.map .char) quoted = ⟨t,[],quoted⟩ := by
  rw [ofAtoms,(Draft.sized_empty quoted).foldl_push_chars,(Draft.sized_empty quoted).pushText_eq]
  simp [Draft.word,Draft.empty]

/-- The word is written from pieces, the substitutions of which are in `P`. -/
def Written (P : Text → Prop) (w : Word) : Prop := ∃ l, w = ofAtoms l w.quoted ∧ ∀ span ∈ Atom.commands l, P span

theorem written_ofAtoms {P : Text → Prop} {l : List Atom} (each : ∀ span ∈ Atom.commands l, P span) (quoted : Bool) :
    (ofAtoms l quoted).Written P := ⟨l,by rw [quoted_ofAtoms],each⟩

theorem Written.mono {P Q : Text → Prop} {w : Word} (written : w.Written P) (weaker : ∀ span, P span → Q span) :
    w.Written Q := by
  obtain ⟨l,same,each⟩ := written
  exact ⟨l,same,fun span mem => weaker span (each span mem)⟩

/-! ### Reading back -/

/-- The parts of the text at the byte ranges of the substitutions. -/
def slices (w : Word) : List (Option Text) := w.spans.map fun range => w.text.between? range.1 range.2

theorem between?_spansFrom (front : Text) (l : List Atom) :
    ((Atom.spansFrom (Text.width front) l).map fun range =>
      (front ++ l.flatMap Atom.text).between? range.1 range.2) = (Atom.commands l).map some := by
  induction l generalizing front with
  | nil => rfl
  | cons a r ih =>
    cases a with
    | char c =>
      have next := ih (front ++ [c])
      rw [Text.width_append,Text.width_cons,Text.width_nil,List.append_assoc] at next
      exact next
    | command t =>
      have here := Text.between?_append front t (r.flatMap Atom.text)
      have next := ih (front ++ t)
      rw [Text.width_append,List.append_assoc] at here next
      rw [Atom.spansFrom,List.map_cons,List.flatMap_cons,Atom.text,here,next]
      rfl

/-- The byte ranges are those of the substitutions. -/
theorem slices_ofAtoms (l : List Atom) (quoted : Bool) : (ofAtoms l quoted).slices = (Atom.commands l).map some := by
  rw [ofAtoms_eq]
  exact between?_spansFrom [] l

end Word
end JobShell

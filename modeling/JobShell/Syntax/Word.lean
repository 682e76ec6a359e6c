import JobShell.Syntax.Substitution

/-!
# Words

A word after quotes, variables and tildes are gone: its text, and the byte ranges
in it where the output of a command is still to be put. The text is written piece
by piece, and a range is recorded when a substitution of the line itself is
written; the value of a variable is characters whatever it holds.
-/
namespace JobShell

/-- A piece of a word: a character, or a substitution. -/
inductive Atom where
  | char (c : Char)
  /-- A substitution as it is written, with its delimiters. -/
  | command (span : Text)
  deriving DecidableEq, Repr

/-- A word of a command. -/
structure Word where
  text : Text
  /-- The byte ranges of the substitutions in the text, in the order in which they were recorded. -/
  spans : List (Nat × Nat)
  /-- A quote or a backslash stands in the word; such a word names no alias. -/
  quoted : Bool
  deriving DecidableEq, Repr

/-- A word while it is written. -/
structure Draft where
  /-- The text so far, from its last character to its first. -/
  reversed : Text
  /-- The number of bytes that are written. -/
  size : Nat
  /-- The byte ranges of the substitutions so far, from the last to the first. -/
  spans : List (Nat × Nat)
  quoted : Bool

namespace Draft

/-- Nothing is written yet. -/
def empty (quoted : Bool) : Draft := ⟨[],0,[],quoted⟩

/-- A text is written; it takes the place of one that is empty. -/
def pushText (d : Draft) (t : Text) : Draft :=
  if d.reversed.isEmpty then { d with reversed := t.reverse, size := Text.width t }
  else { d with reversed := t.reverse ++ d.reversed, size := d.size + Text.width t }

/-- A substitution is written, and its byte range is recorded. -/
def pushSpan (d : Draft) (span : Text) : Draft :=
  let size := d.size + Text.width span
  { d with reversed := span.reverse ++ d.reversed, size := size, spans := (d.size,size) :: d.spans }

/-- A piece is written. -/
def push (d : Draft) : Atom → Draft
  | .char c => d.pushText [c]
  | .command span => d.pushSpan span

/-- The word that is written. -/
def word (d : Draft) : Word := ⟨d.reversed.reverse,d.spans.reverse,d.quoted⟩

end Draft

/-- The word that is written from pieces. -/
def Word.ofAtoms (l : List Atom) (quoted : Bool) : Word := (l.foldl .push (Draft.empty quoted)).word

end JobShell

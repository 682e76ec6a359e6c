import JobShell.System.Script.Tree

/-!
# Fields

What a word stands for is a sequence of glyphs: characters, each quoted or not,
marks where quotes were, and regions, in which separators end fields. A word that
holds nothing at all makes no field, but a mark is something.
-/
namespace JobShell
namespace Script

/-- A part of what a word stands for. -/
inductive Glyph where
  | char (c : Char) (quoted : Bool)
  | mark
  /-- A region begins, in which separators end fields. In a `strict` one only the separator of arguments does. -/
  | opens (strict : Bool)
  | closes
  deriving DecidableEq, Repr

namespace Glyph

/-- The text of glyphs. -/
def text (l : List Glyph) : Raw :=
  l.filterMap fun
    | .char c _ => some c
    | _ => none

/-- Text as glyphs. -/
def ofText (quoted : Bool) (t : Raw) : List Glyph := t.map (.char · quoted)

/-- Glyphs as a region. -/
def region (strict : Bool) (l : List Glyph) : List Glyph := .opens strict :: l ++ [.closes]

/-- The pattern that glyphs make. A quoted character stands for itself; so does one after a backslash. -/
def pattern : Bool → List Glyph → Raw
  | _, [] => []
  | bare, .char c quoted :: r =>
    if quoted then (if bare then ['\\',c] else [c]) ++ pattern true r
    else c :: pattern (c ≠ '\\') r
  | _, .mark :: r => pattern true r
  | bare, _ :: r => pattern bare r

end Glyph

/-- What separates arguments that are put one after the other. -/
def argumentEnd : Char := '\x00'

/-- A word that is being split. Glyphs and fields are in reverse order. -/
structure Splitting where
  fields : List (List Glyph)
  current : List Glyph
  /-- The last field was ended by a blank. -/
  blank : Bool
  inside : Bool
  strict : Bool
  afterStrict : Bool
  /-- How many more fields may be ended. -/
  left : Option Nat
  /-- How much of the current field stays if nothing else comes. -/
  kept : Option Nat
  /-- There was a region. -/
  any : Bool

namespace Splitting

/-- A word that begins. -/
def start (left : Option Nat) : Splitting := ⟨[],[],false,false,false,false,left,none,false⟩

/-- The word with another glyph in its current field. -/
def add (s : Splitting) (g : Glyph) : Splitting := { s with current := g :: s.current }

/-- A character of the last field, which is not split any more: blanks at its end are dropped, and so is a
    separator if nothing comes after it. -/
def addLast (s : Splitting) (g : Glyph) (separates isBlank : Bool) : Splitting :=
  if isBlank then { s.add g with kept := some (s.kept.getD s.current.length) }
  else { s.add g with kept := if separates && s.blank then s.kept else none, blank := false }

/-- A separator that ends a field or stands before one. -/
def endField (s : Splitting) (g : Glyph) (isBlank : Bool) : Splitting :=
  let s := if s.afterStrict || s.strict then s else { s with blank := isBlank }
  if s.current.isEmpty && s.blank then { s with blank := false }
  else match s.left with
    | some 1 => { s.add g with left := some 0, kept := some s.current.length }
    | left => { s with fields := s.current :: s.fields, current := [], left := left.map (· - 1) }

/-- A character of a region. -/
def char (separators : Raw) (s : Splitting) (c : Char) (g : Glyph) : Splitting :=
  let separates := c = argumentEnd || (!s.strict && separators.contains c)
  let isBlank := separates && (c = argumentEnd || c = ' ' || c = '\t' || c = '\n')
  if s.left = some 0 then s.addLast g separates isBlank
  else if s.blank then
    let s := { s with current := [] }
    if separates then (if isBlank then s else { s with blank := false })
    else { s.add g with blank := false }
  else if separates then s.endField g isBlank
  else { s.add g with blank := false }

/-- The next glyph. -/
def next (separators : Raw) (s : Splitting) (g : Glyph) : Splitting :=
  match g with
  | .opens strict => { s with afterStrict := s.strict, strict := strict, blank := false, inside := true, any := true }
  | .closes => { s with inside := false }
  | .mark => s.add g
  | .char c _ => if s.inside then s.char separators c g else s.add g

/-- The fields in the end. -/
def finish (s : Splitting) : List (List Glyph) :=
  let last := match s.kept with
    | some n => s.current.drop (s.current.length - n)
    | none => s.current
  let fields := if s.any && s.strict then s.current :: s.fields
    else if last.isEmpty then s.fields else last :: s.fields
  (fields.map List.reverse).reverse

end Splitting

/-- The fields that glyphs are split into, no more than some number. -/
def splitFields (separators : Raw) (limit : Option Nat) (l : List Glyph) : List (List Glyph) :=
  (l.foldl (Splitting.next separators) (Splitting.start limit)).finish

end Script
end JobShell

import JobShell.Text.Raw
import Std.Data.HashSet

/-!
# Expressions

An expression describes texts: characters, places between them, and what is made
of these by sequence, choice and repetition. It is matched against a line from
some spots on; what comes out are all the spots at which a match may end.
-/
namespace JobShell
namespace Search

/-- Characters in some ranges, or all others. -/
structure CharacterSet where
  negated : Bool
  ranges : List (Char × Char)
  deriving DecidableEq, Repr

namespace CharacterSet

/-- The set of one character. -/
def single (c : Char) : CharacterSet := ⟨false,[(c,c)]⟩

/-- All characters. -/
def all : CharacterSet := ⟨true,[]⟩

/-- The set of some characters. -/
def ofList (l : List Char) : CharacterSet := ⟨false,l.map (fun c => (c,c))⟩

/-- Whether some range holds a character. -/
def isIn (s : CharacterSet) (c : Char) : Bool := s.ranges.any (fun r => r.1 ≤ c && c ≤ r.2)

/-- Whether a set holds a character. With `folds` it does not matter whether a letter is a capital. -/
def holds (s : CharacterSet) (folds : Bool) (c : Char) : Bool :=
  s.negated != (s.isIn c || (folds && (s.isIn c.toLower || s.isIn c.toUpper)))

end CharacterSet

/-- Whether a character is one of those that words are made of. -/
def isWordChar (c : Char) : Bool := c.isAlphanum || c = '_'

/-- A place between characters. -/
inductive Place where
  | lineStart
  | lineEnd
  | wordStart
  | wordEnd
  /-- The start or the end of a word. -/
  | wordEdge
  /-- Neither the start nor the end of a word. -/
  | noWordEdge
  deriving DecidableEq, Repr

/-- An expression. -/
inductive Expression where
  | empty
  | one (s : CharacterSet)
  | place (p : Place)
  | sequence (a b : Expression)
  | either (a b : Expression)
  /-- A number of times; any number from the least one on when there is no most. -/
  | many (least : Nat) (most : Option Nat) (e : Expression)
  /-- A group, which has a number. -/
  | group (n : Nat) (e : Expression)
  /-- The text of a group once more. -/
  | again (n : Nat)
  deriving Repr

namespace Expression

/-- Whether the text of a group is asked for. -/
def looksBack : Expression → Bool
  | .again _ => true
  | .sequence a b | .either a b => a.looksBack || b.looksBack
  | .many _ _ e | .group _ e => e.looksBack
  | .empty | .one _ | .place _ => false

/-- The expression without its groups. -/
def withoutGroups : Expression → Expression
  | .sequence a b => .sequence a.withoutGroups b.withoutGroups
  | .either a b => .either a.withoutGroups b.withoutGroups
  | .many least most e => .many least most e.withoutGroups
  | .group _ e => e.withoutGroups
  | e => e

/-- The expression of a text itself. -/
def literal (t : Raw) : Expression := t.foldr (fun c e => .sequence (.one (.single c)) e) .empty

/-- The choice among expressions. -/
def anyOf : List Expression → Expression
  | [] => .empty
  | [e] => e
  | e :: r => .either e (anyOf r)

end Expression

/-- A spot in a line, with the groups that were matched before it: their numbers, beginnings and ends. -/
structure Spot where
  position : Nat
  groups : List (Nat × Nat × Nat)
  deriving DecidableEq, Hashable, Repr

/-- A line that is matched. -/
structure Subject where
  chars : Array Char
  folds : Bool

namespace Subject

/-- What stands between two positions. -/
def part (s : Subject) (i j : Nat) : Raw := (s.chars.extract i j).toList

/-- Whether a character of a word is before a position. -/
def wordBefore (s : Subject) (i : Nat) : Bool := i > 0 && (s.chars[i-1]?).any isWordChar

/-- Whether a character of a word is after a position. -/
def wordAfter (s : Subject) (i : Nat) : Bool := (s.chars[i]?).any isWordChar

/-- Whether a position is at a place. -/
def isAt (s : Subject) (i : Nat) : Place → Bool
  | .lineStart => i = 0
  | .lineEnd => i = s.chars.size
  | .wordStart => !s.wordBefore i && s.wordAfter i
  | .wordEnd => s.wordBefore i && !s.wordAfter i
  | .wordEdge => s.wordBefore i != s.wordAfter i
  | .noWordEdge => s.wordBefore i == s.wordAfter i

/-- Whether two characters count as the same. -/
def same (s : Subject) (c d : Char) : Bool := c == d || (s.folds && c.toLower == d.toLower)

/-- Spots, each once. -/
def distinct (l : List Spot) : List Spot :=
  match l with
  | [] | [_] => l
  | l => (l.foldl (fun (seen,out) p => if seen.contains p then (seen,out) else (seen.insert p,p :: out))
      ((∅ : Std.HashSet Spot),[])).2

/-- The spots that are reached by any number of steps, which are no more than some number, from the last ones that
    were reached. -/
def reach (step : List Spot → List Spot) : Nat → List Spot → Std.HashSet Spot → List Spot → List Spot
  | 0, _, _, all => all
  | fuel+1, last, seen, all =>
    match (step last).filter (fun p => !seen.contains p) with
    | [] => all
    | new => reach step fuel new (new.foldl .insert seen) (new ++ all)

/-- The spots that are reached by exactly some number of steps. -/
def stepTimes (step : List Spot → List Spot) : Nat → List Spot → List Spot
  | 0, l => l
  | n+1, l =>
    match step l with
    | [] => []
    | next => if next = l then l else stepTimes step n next

/-- The spots at which a match of an expression may end that begins at one of some spots. -/
def ends (s : Subject) : Expression → List Spot → List Spot
  | .empty, l => l
  | .one set, l =>
    l.filterMap fun p =>
      match s.chars[p.position]? with
      | some c => if set.holds s.folds c then some { p with position := p.position + 1 } else none
      | none => none
  | .place x, l => l.filter (fun p => s.isAt p.position x)
  | .sequence a b, l => ends s b (ends s a l)
  | .either a b, l => distinct (ends s a l ++ ends s b l)
  | .many least most e, l =>
    let first := stepTimes (ends s e) least l
    reach (ends s e) (match most with
      | some n => n - least
      | none => 2 * (s.chars.size + 1)) first (first.foldl .insert ∅) first
  | .group n e, l =>
    distinct (l.flatMap fun p =>
      (ends s e [p]).map fun q =>
        { q with groups := (n,p.position,q.position) :: q.groups.filter (·.1 != n) })
  | .again n, l =>
    l.filterMap fun p =>
      match p.groups.find? (·.1 == n) with
      | none => none
      | some (_,first,last) =>
        let length := last - first
        if p.position + length ≤ s.chars.size &&
            (List.range length).all (fun k =>
              s.same ((s.chars[first+k]?).getD '\x00') ((s.chars[p.position+k]?).getD '\x00'))
        then some { p with position := p.position + length } else none

/-- A spot before which nothing was matched. -/
def spot (i : Nat) : Spot := ⟨i,[]⟩

/-- All spots of a line. -/
def spots (s : Subject) : List Spot := (List.range (s.chars.size + 1)).map spot

end Subject
end Search
end JobShell

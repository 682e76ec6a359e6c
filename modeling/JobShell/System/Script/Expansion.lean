import JobShell.System.Script.Arithmetic
import JobShell.System.Script.Fields
import JobShell.System.Script.Pattern

/-!
# Expansion of words

What the words of a command stand for when it is run: parameters, the output of
commands and the values of expressions are put in, the result is split into
fields, and fields that are patterns become the names of files.
-/
namespace JobShell
namespace Script

/-- How a word is expanded. -/
structure Aim where
  /-- Into fields. -/
  fields : Bool
  /-- Into a pattern. -/
  pattern : Bool
  tilde : Bool
  /-- As an assignment, in the value of which home directories stand as well. -/
  assignment : Bool
  /-- As a word in the place of a parameter. -/
  inner : Bool
  quoted : Bool

namespace Aim

/-- Only parameters, commands and expressions are replaced. -/
def plain : Aim := ⟨false,false,false,false,false,false⟩

/-- Into the fields of a command. -/
def command : Aim := { plain with fields := true, tilde := true }

/-- Into the value of an assignment. -/
def value : Aim := { plain with assignment := true }

/-- Into one text. -/
def whole : Aim := { plain with tilde := true }

/-- Into a pattern. -/
def matching : Aim := { plain with pattern := true, tilde := true }

/-- As if it stood in double quotes. -/
def document : Aim := { plain with quoted := true }

/-- Whether it matters what is quoted. -/
def marks (a : Aim) : Bool := a.fields || a.pattern

end Aim

namespace Run

section
/- `capture` is how the output of a command is had, `self` how words in words are expanded. -/
variable (capture : Option Tree → Run Raw) (self : Aim → Word → Run (List Glyph))

/-! ### Home directories -/

/-- The name of a user after a tilde, and the word after it. None when something else than plain characters
    stands in it. -/
def userName (colonEnds : Bool) : Word → Option (Raw × Word)
  | [] => some ([],[])
  | .char c :: r =>
    if c = '/' || (c = ':' && colonEnds) then some ([],.char c :: r)
    else (userName colonEnds r).map (fun (n,w) => (c :: n,w))
  | _ => none

/-- The home directory that a tilde stands for, and the word after it. -/
def home (a : Aim) (w : Word) : Run (Option (Raw × Word)) := do
  match userName a.assignment w with
  | none => return none
  | some (user,rest) =>
    let found ← if user.isEmpty then value? (txt "HOME") else ask (.home user)
    return found.map (·,rest)

/-! ### Parameters -/

/-- The value of a parameter with regions for its arguments; none when it is not set. -/
def parameter (a : Aim) (quoted : Bool) (name : Raw) : Run (Option Raw) := do
  let s ← get
  let number := fun (n : Int) => some (Numeral.ofInt n)
  let words := s.arguments.words
  match name with
  | ['$'] => return number s.pid
  | ['?'] => return number s.status
  | ['#'] => return number words.length
  | ['!'] => return if s.lastBackground = 0 then none else number s.lastBackground
  | ['-'] => return some ((txt "uban" ++ txt "CEVvxsnmiIfe").filter s.options.contains)
  | ['@'] | ['*'] =>
    let first := (← separators?).map (fun i => i.take 1)
    let separator := if name = ['@'] && quoted && a.fields then [argumentEnd]
      else if quoted || !a.fields then first.getD [' ']
      else if first.isSome then [argumentEnd] else [' ']
    return some (Text.join separator words)
  | _ =>
    match Numeral.readDigits name with
    | some 0 => return some s.name
    | some (n+1) => return words[n]?
    | none => value? name

/-- Complains about a parameter that is not set. -/
def complainUnset {α : Type} (name : Raw) (message : Option Raw) (colon : Bool) : Run α :=
  fail (name ++ txt ": " ++ message.getD (txt "parameter not set" ++ if colon then txt " or null" else []))

/-- The value of a parameter as it is put into a word. -/
def placed (a : Aim) (quoted : Bool) (name t : Raw) : Run (List Glyph) := do
  let l := Glyph.ofText quoted t
  if quoted then
    if name = ['@'] && !(← get).arguments.words.isEmpty then return Glyph.region true l
    else return l
  else return if a.quoted then l else Glyph.region false l

/-- What a parameter is replaced by. -/
def replaced (a : Aim) (inQuotes : Bool) (name : Raw) (t : Treatment) (colon : Bool) (word : Word) :
    Run (List Glyph) := do
  let quoted := a.quoted || inQuotes
  if t = .wrong then fail (txt "Bad substitution")
  let found := (← parameter a quoted name).filter (fun v => !(colon && v.isEmpty))
  let checkSet := do
    if found.isNone then
      if ← option 'u' then complainUnset (α := Unit) name none false
  let instead := { a with tilde := true, inner := true, quoted := quoted }
  match t with
  | .wrong => return []
  | .whenSet => if found.isSome then self instead word else return if quoted then [] else Glyph.region false []
  | .orWord =>
    match found with
    | some v => placed a quoted name v
    | none => self instead word
  | .orComplaint =>
    match found with
    | some v => placed a quoted name v
    | none =>
      let text := Glyph.text (← self Aim.whole word)
      if word.isEmpty then complainUnset name none colon else complainUnset name (some text) colon
  | .orSet =>
    match found with
    | some v => placed a quoted name v
    | none =>
      let text := Glyph.text (← self Aim.whole word)
      assign name text
      placed a quoted name ((← parameter a quoted name).getD [])
  | .value =>
    checkSet
    match found with
    | some v => placed a quoted name v
    | none => return []
  | .length =>
    checkSet
    placed a quoted ['#'] (Numeral.ofNat (found.getD []).length)
  | .dropEnd longest =>
    checkSet
    match found with
    | none => return []
    | some v =>
      let p := Glyph.pattern true (← self Aim.matching word)
      placed a quoted name (Pattern.dropEnd longest p v)
  | .dropStart longest =>
    checkSet
    match found with
    | none => return []
    | some v =>
      let p := Glyph.pattern true (← self Aim.matching word)
      placed a quoted name (Pattern.dropStart longest p v)

/-! ### Words -/

/-- What the pieces of a word stand for. `atTilde` tells that a home directory may stand here, `named` that the name
    of an assignment was passed. -/
def expandPieces (a : Aim) : Nat → Bool → Bool → Bool → Word → Run (List Glyph)
  | 0, _, _, _, _ => return []
  | fuel+1, inQuotes, atTilde, named, w => do
    let goOn := expandPieces a fuel inQuotes false named
    let splits := a.inner && !a.quoted && !inQuotes
    let marks := if a.marks then [Glyph.mark] else []
    match w with
    | [] => return []
    | .mark :: .parameter ['@'] .value false [] :: .mark :: r =>
      if inQuotes then
        let rest ← expandPieces a fuel false false named (.parameter ['@'] .value false [] :: .mark :: r)
        return marks ++ rest
      else
        let v ← replaced self a true ['@'] .value false []
        return v ++ (← goOn r)
    | .mark :: r => return marks ++ (← expandPieces a fuel (!inQuotes) false named r)
    | .quoted c :: r => return .char c true :: (← goOn r)
    | .char c :: r =>
      if c = '~' && atTilde then
        match ← home a r with
        | some (t,rest) => return Glyph.ofText true t ++ (← goOn rest)
        | none => pure ()
      let beginsValue := a.assignment && c = '=' && !named
      let nextTilde := beginsValue || (a.assignment && c = ':')
      let rest ← expandPieces a fuel inQuotes nextTilde (named || beginsValue) r
      if splits then
        match rest with
        | .opens false :: .char d false :: more =>
          return if r.head?.any isPlain then .opens false :: .char c false :: .char d false :: more
            else Glyph.region false [.char c false] ++ rest
        | _ => return Glyph.region false [.char c false] ++ rest
      else return .char c false :: rest
    | .parameter name t colon word :: r => do
      let v ← replaced self a inQuotes name t colon word
      return v ++ (← goOn r)
    | .command t :: r => do
      let quoted := a.quoted || inQuotes
      let l := Glyph.ofText quoted (Text.dropEndWhile (· == '\n') ((← capture t).filter (· != '\x00')))
      return (if quoted then l else Glyph.region false l) ++ (← goOn r)
    | .arithmetic word :: r => do
      let quoted := a.quoted || inQuotes
      let n ← Arithmetic.evaluate (Glyph.text (← self Aim.plain word))
      let l := Glyph.ofText quoted (Numeral.ofInt n)
      return (if quoted then l else Glyph.region false l) ++ (← goOn r)
where
  /-- Whether a piece is a plain character. -/
  isPlain : Piece → Bool
    | .char _ => true
    | _ => false

end

/-- What a word stands for, words in words being nested at most `depth` deep. -/
def expandWithin (capture : Option Tree → Run Raw) : Nat → Aim → Word → Run (List Glyph)
  | 0, _, _ => return []
  | depth+1, a, w => expandPieces capture (expandWithin capture depth) a (w.length + 1) false a.tilde false w

/-- How deep words may be nested in words. -/
def wordDepth : Nat := 1000000

/-- What a word stands for. -/
def expand (capture : Option Tree → Run Raw) (a : Aim) (w : Word) : Run (List Glyph) :=
  expandWithin capture wordDepth a w

/-- The text that a word stands for where it is not split. -/
def expandText (capture : Option Tree → Run Raw) (a : Aim) (w : Word) : Run Raw := do
  return Glyph.text (← expand capture a w)

/-! ### Names of files -/

/-- The files that a pattern names below a directory. -/
def filesOf : Nat → Raw → Raw → Run (List Raw)
  | 0, _, _ => return []
  | fuel+1, directory, p =>
    match Pattern.parts p with
    | none => do
      if directory.isEmpty then return []
      let file := directory ++ Pattern.unescaped p
      match ← ask (.look false file) with
      | .ok _ => return [file]
      | .error _ => return []
    | some parts => do
      let base := directory ++ Pattern.unescaped parts.directory
      match ← ask (.namesIn (if base.isEmpty then ['.'] else base)) with
      | .error _ => return []
      | .ok names =>
        let dots := parts.pattern.head? = some '.' || (txt "\\.").isPrefixOf parts.pattern
        let found := (['.'] :: ['.','.'] :: names).filter fun n =>
          (dots || n.head? ≠ some '.') && Pattern.isMatch parts.pattern n
        match parts.after with
        | none => return found.map (base ++ ·)
        | some rest => below fuel base rest found
where
  /-- The files that the rest of a pattern names below directories. -/
  below (fuel : Nat) (base rest : Raw) : List Raw → Run (List Raw)
    | [] => return []
    | n :: r => do
      let some_ ← filesOf fuel (base ++ n ++ ['/']) rest
      return some_ ++ (← below fuel base rest r)

/-- A field, or the files that it names when it is a pattern. -/
def filesOrText (l : List Glyph) : Run (List Raw) := do
  let t := Glyph.text l
  if (← option 'f') || !t.any (fun c => c = '*' || c = '?' || c = '[') then return [t]
  else
    let p := Glyph.pattern true l
    match (← filesOf (p.length + 2) [] p).mergeSort Text.atMost with
    | [] => return [t]
    | found => return found

/-- The fields that a word stands for. -/
def expandFields (capture : Option Tree → Run Raw) (w : Word) : Run (List Raw) := do
  let glyphs ← expand capture Aim.command w
  let separators := (← separators?).getD standardSeparators
  allFiles (splitFields separators none glyphs)
where
  /-- The files or texts of fields. -/
  allFiles : List (List Glyph) → Run (List Raw)
    | [] => return []
    | l :: r => do
      let some_ ← filesOrText l
      return some_ ++ (← allFiles r)

/-- The text of a document. -/
def documentText (capture : Option Tree → Run Raw) (expands : Bool) (number : Nat) : Run Raw := do
  let w := ((← get).documents[number]?).getD []
  if expands then expandText capture Aim.document w
  else return w.filterMap fun
    | .char c | .quoted c => some c
    | _ => none

end Run
end Script
end JobShell

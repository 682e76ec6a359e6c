import JobShell.System.Script.Token

/-!
# Reading words

A word goes on as long as a quote or a substitution is open in it. What is open
is kept as a stack of contexts: a context begins with an arithmetic expression,
or with a substitution in which quotes have another meaning than around it.
-/
namespace JobShell
namespace Script

/-- How characters are understood. -/
inductive Manner where
  | plain
  | double
  | single
  | arithmetic
  deriving DecidableEq, Repr

/-- A context of a word. -/
structure Context where
  manner : Manner
  /-- How many substitutions of parameters are open in it. -/
  substitutions : Nat
  /-- How many of them began within double quotes. -/
  quotedSubstitutions : Nat
  parens : Nat
  /-- It ends with its last substitution. -/
  forSubstitution : Bool
  /-- It is within double quotes. -/
  within : Bool
  /-- Double quotes are open in a substitution. -/
  innerQuotes : Bool

/-- A context that begins. -/
def Context.new (m : Manner) (forSubstitution within : Bool) : Context := ⟨m,0,0,0,forSubstitution,within,false⟩

/-- What is open in a word. -/
inductive Opening where
  | parameter (name : Raw) (t : Treatment) (colon : Bool)
  | arithmetic

/-- A word that is being read. The pieces are in reverse order. -/
structure Unfinished where
  context : Context
  outer : List Context
  pieces : List Piece
  /-- What is open, with the pieces before it. -/
  opened : List (Opening × List Piece)
  quoted : Bool

namespace Unfinished

/-- A word that begins. -/
def start (m : Manner) : Unfinished := ⟨Context.new m false (m == .double),[],[],[],false⟩

/-- The word with another piece. -/
def add (w : Unfinished) (p : Piece) : Unfinished := { w with pieces := p :: w.pieces }

/-- The word within a new context. -/
def enter (w : Unfinished) (c : Context) : Unfinished := { w with context := c, outer := w.context :: w.outer }

/-- The word after its context. -/
def leave (w : Unfinished) : Unfinished :=
  match w.outer with
  | c :: r => { w with context := c, outer := r }
  | [] => w

/-- The word within something that is open from here on. -/
def openWith (w : Unfinished) (o : Opening) : Unfinished := { w with opened := (o,w.pieces) :: w.opened, pieces := [] }

/-- The word after what was opened last. -/
def close (w : Unfinished) : Unfinished :=
  match w.opened with
  | (o,before) :: r =>
    let inside := w.pieces.reverse
    let piece := match o with
      | .parameter name t colon => Piece.parameter name t colon inside
      | .arithmetic => Piece.arithmetic inside
    { w with pieces := piece :: before, opened := r }
  | [] => w

end Unfinished

/-- What a character is. -/
inductive CharRole where
  | word
  | newline
  | backslash
  | singleQuote
  | doubleQuote
  | endQuote
  | backquote
  | dollar
  | brace
  | parenOpens
  | parenCloses
  /-- It has a meaning in patterns, or elsewhere in words. -/
  | special
  | separator
  deriving DecidableEq, Repr

/-- What a character is in a manner. -/
def roleOf (m : Manner) (c : Char) : CharRole :=
  if c = '\n' then .newline
  else match m with
    | .single =>
      if c = '\'' then .endQuote else if "!*?[=~:/-]\\".toList.contains c then .special else .word
    | .plain =>
      match c with
      | '\\' => .backslash
      | '\'' => .singleQuote
      | '"' => .doubleQuote
      | '\x60' => .backquote
      | '$' => .dollar
      | '}' => .brace
      | '<' | '>' | '(' | ')' | ';' | '&' | '|' | ' ' | '\t' => .separator
      | _ => .word
    | .double =>
      match c with
      | '\\' => .backslash
      | '"' => .endQuote
      | '\x60' => .backquote
      | '$' => .dollar
      | '}' => .brace
      | _ => if "!*?[=~:/-]".toList.contains c then .special else .word
    | .arithmetic =>
      match c with
      | '\\' => .backslash
      | '\x60' => .backquote
      | '$' => .dollar
      | '}' => .brace
      | '(' => .parenOpens
      | ')' => .parenCloses
      | _ => .word

namespace Read

/-- The characters that are names of parameters by themselves. -/
def isSpecialName (c : Char) : Bool := "!#$*-?@".toList.contains c || c.isDigit

/-- The characters of one kind that come next, and the character after them. -/
def run (p : Char → Bool) : Nat → Option Char → Read (Raw × Option Char)
  | 0, c => return ([],c)
  | fuel+1, c =>
    match c with
    | some x =>
      if p x then do
        let (r,after) ← run p fuel (← nextChar)
        return (x :: r,after)
      else return ([],c)
    | none => return ([],c)

/-! ### Commands in words -/

/-- The text up to a backquote, from which some backslashes are gone. -/
def quotedCommand (within : Bool) : Nat → Read Raw
  | 0 => return []
  | fuel+1 => do
    match ← nextChar with
    | none => fail (txt "EOF in backquote substitution")
    | some '\x60' => return []
    | some '\\' =>
      let c ← next
      let text := match c with
        | some c => if c = '\\' || c = '\x60' || c = '$' || (within && c = '"') then [c] else ['\\',c]
        | none => ['\\']
      return text ++ (← quotedCommand within fuel)
    | some '\n' => do
      countLine
      return '\n' :: (← quotedCommand within fuel)
    | some c => return c :: (← quotedCommand within fuel)

/-- The command between backquotes. It is read as a text of its own. Commands are read by `inner`, up to a closing
    parenthesis or to the end. -/
def oldCommand (inner : Bool → Read (Option Tree)) (within : Bool) : Read (Option Tree) := do
  let text ← quotedCommand within rounds
  let outer ← get
  set { outer with pushed := [], released := [], rest := text, ended := true, line := 1, pending := [],
                   aliases := outer.aliases.filter (fun a => !outer.isInUse a.1) }
  let t ← inner false
  modify fun s =>
    { s with pushed := outer.pushed, aliases := outer.aliases, rest := outer.rest, ended := outer.ended,
             line := outer.line, pending := outer.pending, again := false }
  return t

/-! ### Parameters -/

/-- The treatment that a character asks for, as far as it alone can tell. -/
def treatmentOf? (c : Char) : Option Treatment :=
  match c with
  | '}' => some .value
  | '-' => some .orWord
  | '+' => some .whenSet
  | '?' => some .orComplaint
  | '=' => some .orSet
  | _ => none

/-- The name of a parameter in braces after a number sign, or a parameter that is a number sign. The result has
    the name, whether its length is asked for, and the next character; none when there is no name. -/
def afterNumberSign : Read (Option Raw × Bool × Option Char) := do
  let c ← nextChar
  if c.any isNameChar then
    let (name,after) ← run (if c.any Char.isDigit then Char.isDigit else isNameChar) rounds c
    return (some name,true,after)
  else
    let d ← nextChar
    if c = some '}' || d ≠ some '}' then
      back d
      return (some ['#'],false,c)
    else match c with
      | some x => if isSpecialName x then return (some [x],true,d) else return (none,false,d)
      | none => return (none,false,d)

/-- The name of a parameter in braces, from its first character on: the name, whether its length is asked for, and
    the next character. -/
def bracedName (c : Option Char) : Read (Option Raw × Bool × Option Char) := do
  match c with
  | some '}' => return (none,false,c)
  | some '#' => afterNumberSign
  | some x =>
    if beginsName x || x.isDigit then
      let (name,after) ← run (if x.isDigit then Char.isDigit else isNameChar) rounds c
      return (some name,false,after)
    else
      let after ← nextChar
      return (if isSpecialName x then some [x] else none,false,after)
  | none => return (none,false,← nextChar)

/-- The treatment of a parameter that the characters after its name ask for, and whether an empty value counts as
    none. -/
def treatment (c : Option Char) : Read (Treatment × Bool) := do
  match c with
  | some '%' => longest '%' Treatment.dropEnd
  | some '#' => longest '#' Treatment.dropStart
  | some ':' => return (((← nextChar).bind treatmentOf?).getD .wrong,true)
  | c => return ((c.bind treatmentOf?).getD .wrong,false)
where
  /-- A second character asks for the longest match. -/
  longest (sign : Char) (t : Bool → Treatment) : Read (Treatment × Bool) := do
    let d ← nextChar
    if d = some sign then return (t true,false)
    else
      back d
      return (t false,false)

/-- A parameter in braces. -/
def bracedParameter (w : Unfinished) : Read Unfinished := do
  let (name,asksLength,after) ← bracedName (← nextChar)
  let (t,colon) ← (match name with
    | none => do
      back after
      return (.wrong,false)
    | some _ =>
      if asksLength then do
        back after
        return (if after = some '}' then .length else .wrong,false)
      else treatment after : Read (Treatment × Bool))
  let name := name.getD []
  if t = .value && !colon then return w.add (.parameter name .value false [])
  else
    let manner := match t with
      | .dropEnd _ | .dropStart _ => .plain
      | _ => w.context.manner
    let manner := if manner = .arithmetic then .double else manner
    let w := if manner ≠ w.context.manner || w.context.innerQuotes then
        w.enter (Context.new manner true (manner ≠ .plain)) else w
    let c := w.context
    let c := { c with
      substitutions := c.substitutions + 1
      quotedSubstitutions := c.quotedSubstitutions + (if c.within then 1 else 0) }
    return { w with context := c }.openWith (.parameter name t colon)

/-- What a dollar sign begins. -/
def dollar (inner : Bool → Read (Option Tree)) (w : Unfinished) : Read Unfinished := do
  let c ← nextChar
  let nothing := do
    back c
    return w.add (.char '$')
  if (← get).expectation.endMark then nothing
  else match c with
    | some '(' =>
      let d ← nextChar
      if d = some '(' then return (w.enter (Context.new .arithmetic false true)).openWith .arithmetic
      else
        back d
        let pending := (← get).pending
        modify (fun s => { s with pending := [] })
        let t ← inner true
        modify (fun s => { s with pending := pending })
        return w.add (.command t)
    | some '{' => bracedParameter w
    | some x =>
      if beginsName x then
        let (name,after) ← run isNameChar rounds c
        back after
        return w.add (.parameter name .value false [])
      else if isSpecialName x then return w.add (.parameter [x] .value false [])
      else nothing
    | none => nothing

/-! ### Words -/

/-- Whether the end mark of a document stands here, and a line ends after it. -/
def atEndMark : Raw → Option Char → Read Bool
  | [], c => do
    if c = some '\n' then countLine
    return c = some '\n' || c.isNone
  | m :: r, c => do if c = some m then atEndMark r (← next) else return false

/-- The first character of a line of a document; none when the document ends here. -/
def lineStart (d : PendingDocument) (c : Option Char) : Read (Option Char) := do
  let c ← if d.strips then (do return (← runTabs rounds c)) else pure c
  let before ← get
  if ← atEndMark d.endMark c then return none
  else
    set before
    return c
where
  /-- Passes over tabulators. -/
  runTabs : Nat → Option Char → Read (Option Char)
    | 0, c => return c
    | fuel+1, c => do if c = some '\t' then runTabs fuel (← next) else return c

/-- Ends a quote. -/
def endQuote (document : Bool) (c : Char) (w : Unfinished) : Unfinished :=
  let x := w.context
  if document && x.substitutions = 0 then w.add (.char c)
  else
    let x := if x.quotedSubstitutions = 0 then { x with manner := .plain, within := false } else x
    let x := if c = '"' && x.substitutions > 0 then { x with innerQuotes := !x.innerQuotes } else x
    let w := { w with context := x, quoted := true }
    if document then w else w.add .mark

/-- Ends a substitution of a parameter, if one is open. -/
def endBrace (w : Unfinished) : Unfinished :=
  let x := w.context
  if !x.innerQuotes && x.substitutions > 0 then
    let left := x.substitutions - 1
    let w := if left = 0 && x.forSubstitution then w.leave
      else { w with context := { x with substitutions := left, quotedSubstitutions := x.quotedSubstitutions - 1 } }
    w.close
  else w.add (.char '}')

/-- A character after a backslash. -/
def escape (document : Bool) (w : Unfinished) : Read Unfinished := do
  match ← next with
  | none => return w.add (.quoted '\\')
  | some c =>
    let x := w.context
    let kept := x.within && c ≠ '\\' && c ≠ '\x60' && c ≠ '$' && (c ≠ '"' || (document && x.substitutions = 0)) &&
      (c ≠ '}' || x.substitutions = 0)
    let w := if kept then w.add (.quoted '\\') else w
    return { w.add (.quoted c) with quoted := true }

/-- The pieces of a word from a character on, and the character after the word. `fresh` tells that a line begins. -/
def pieces (inner : Bool → Read (Option Tree)) (document : Option PendingDocument) :
    Nat → Bool → Option Char → Unfinished → Read (Option Char × Unfinished)
  | 0, _, c, w => return (c,w)
  | fuel+1, fresh, c, w => do
    let c ← (match document, fresh with
      | some d, true => lineStart d c
      | _, _ => pure c : Read (Option Char))
    match c with
    | none => return (none,w)
    | some x =>
      let isDocument := document.isSome
      let goOn := fun (w : Unfinished) => do
        let c ← if w.context.manner = .single then next else nextChar
        pieces inner document fuel false c w
      match roleOf w.context.manner x with
      | .newline =>
        if w.context.manner = .plain && w.context.substitutions = 0 then return (c,w)
        else
          countLine
          pieces inner document fuel true (← next) (w.add (.char '\n'))
      | .word => goOn (w.add (.char x))
      | .special =>
        goOn (w.add (if !isDocument || w.context.within || w.context.substitutions > 0 then .quoted x else .char x))
      | .backslash => do goOn (← escape isDocument w)
      | .singleQuote =>
        let w := { w with context := { w.context with manner := .single } }
        goOn (if isDocument then w else w.add .mark)
      | .doubleQuote =>
        let inner := if w.context.substitutions > 0 then !w.context.innerQuotes else w.context.innerQuotes
        let w := { w with context := { w.context with manner := .double, within := true, innerQuotes := inner } }
        goOn (if isDocument then w else w.add .mark)
      | .endQuote => goOn (endQuote isDocument x w)
      | .dollar => do goOn (← dollar inner w)
      | .brace => goOn (endBrace w)
      | .parenOpens => goOn ({ w with context := { w.context with parens := w.context.parens + 1 } }.add (.char '('))
      | .parenCloses =>
        if w.context.parens > 0 then
          goOn ({ w with context := { w.context with parens := w.context.parens - 1 } }.add (.char ')'))
        else
          let d ← nextChar
          if d = some ')' then goOn w.leave.close
          else
            back d
            goOn (w.add (.char ')'))
      | .backquote =>
        if (← get).expectation.endMark then goOn (w.add (.char '\x60'))
        else
          let t ← oldCommand inner w.context.within
          goOn (w.add (.command t))
      | .separator => if w.context.substitutions = 0 then return (c,w) else goOn (w.add (.char x))

/-- Complains about a word in which something is still open. -/
def checkEnded (document : Bool) (w : Unfinished) : Read Unit := do
  if w.context.manner = .arithmetic then fail (txt "Missing \x27))\x27")
  if w.context.manner ≠ .plain && !document then fail (txt "Unterminated quoted string")
  if w.context.substitutions ≠ 0 then fail (txt "Missing \x27\x7d\x27")

/-- Reads a document. -/
def document (inner : Bool → Read (Option Tree)) (d : PendingDocument) : Read Unit := do
  let c ← if d.expands then nextChar else next
  let (_,w) ← pieces inner (some d) rounds true c (Unfinished.start (if d.expands then .double else .single))
  checkEnded true w
  modify (fun s => { s with documents := s.documents.setIfInBounds d.number w.pieces.reverse })

end Read
end Script
end JobShell

import JobShell.System.Program.CharacterClass
import JobShell.System.Search.Expression

/-!
# Reading expressions

An expression is written in one of two forms. In the extended form parentheses,
braces, bars, plus and question marks have their meanings by themselves; in the
basic form they have them after a backslash, and operators that have nothing
before them stand for themselves.
-/
namespace JobShell
namespace Search

/-- Why a text is no expression. -/
inductive ReadingError where
  | malformed
  | collation
  | className
  | backslash
  | reference
  | bracket
  | parenthesis
  | brace
  | repetition
  | range
  | tooBig
  | closing
  deriving DecidableEq, Repr

namespace ReadingError

/-- What is said of an error. -/
def message : ReadingError → String
  | .malformed => "Invalid regular expression"
  | .collation => "Invalid collation character"
  | .className => "Invalid character class name"
  | .backslash => "Trailing backslash"
  | .reference => "Invalid back reference"
  | .bracket => "Unmatched [, [^, [:, [., or [="
  | .parenthesis => "Unmatched ( or \\("
  | .brace => "Unmatched \\\x7b"
  | .repetition => "Invalid content of \\\x7b\\\x7d"
  | .range => "Invalid range end"
  | .tooBig => "Regular expression too big"
  | .closing => "Unmatched ) or \\)"

end ReadingError

/-- A token of an expression. -/
inductive Token where
  | char (c : Char)
  | any
  | bracket
  | opens
  | closes
  | or
  | star
  | plus
  | question
  | openBrace
  | closeBrace
  | again (n : Nat)
  | place (p : Place)
  | set (s : CharacterSet)
  | backslash
  | ending
  deriving DecidableEq, Repr

/-- The characters of words, or all others. -/
def wordSet (negated : Bool) : CharacterSet := ⟨negated,[('a','z'),('A','Z'),('0','9'),('_','_')]⟩

/-- The blank characters, or all others. -/
def spaceSet (negated : Bool) : CharacterSet := ⟨negated,[(' ',' '),('\t','\r')]⟩

/-- What a character after a backslash means. -/
def escapedToken (extended : Bool) (c : Char) : Token :=
  match c with
  | '<' => .place .wordStart
  | '>' => .place .wordEnd
  | 'b' => .place .wordEdge
  | 'B' => .place .noWordEdge
  | '\x60' => .place .lineStart
  | '\x27' => .place .lineEnd
  | 'w' => .set (wordSet false)
  | 'W' => .set (wordSet true)
  | 's' => .set (spaceSet false)
  | 'S' => .set (spaceSet true)
  | c =>
    if '1' ≤ c && c ≤ '9' then .again (c.toNat - 48)
    else if extended then .char c
    else match c with
      | '|' => .or
      | '(' => .opens
      | ')' => .closes
      | '+' => .plus
      | '?' => .question
      | '{' => .openBrace
      | '}' => .closeBrace
      | c => .char c

/-- Whether an expression in the basic form may end before a text, so that a dollar sign is the end of a line. -/
def mayEndBefore : Raw → Bool
  | [] => true
  | '\\' :: c :: _ => c = '|' || c = ')'
  | _ => false

/-- The first token of a text and its character, and the text after it. `here` tells that an expression may begin. -/
def nextToken (extended here : Bool) : Raw → Token × Char × Raw
  | [] => (.ending,'\x00',[])
  | ['\\'] => (.backslash,'\\',[])
  | '\\' :: c :: r => (escapedToken extended c,c,r)
  | c :: r =>
    let t := match c with
      | '*' => .star
      | '[' => .bracket
      | '.' => .any
      | '^' => if extended || here then .place .lineStart else .char c
      | '$' => if extended || mayEndBefore r then .place .lineEnd else .char c
      | c =>
        if !extended then .char c
        else match c with
          | '|' => .or
          | '(' => .opens
          | ')' => .closes
          | '+' => .plus
          | '?' => .question
          | '{' => .openBrace
          | '}' => .closeBrace
          | c => .char c
    (t,c,r)

/-- What is being read. -/
structure Progress where
  token : Token
  char : Char
  rest : Raw
  /-- How many groups have begun. -/
  groups : Nat
  /-- The groups that have ended. -/
  ended : List Nat
  /-- No expression is between the beginning of a branch and the current token, only places. -/
  atStart : Bool
  warnings : List String
  /-- What is wrong with an expression that can be read nevertheless, after the warnings. -/
  fault : Option String

/-- A part of reading. -/
abbrev Reading (α : Type) : Type := StateT Progress (Except ReadingError) α

namespace Reading

/-- How the text is written. -/
structure Form where
  extended : Bool
  folds : Bool

section
variable (form : Form)

/-- Goes on to the next token. -/
def advance (here : Bool) : Reading Unit :=
  modify fun s =>
    let (t,c,r) := nextToken form.extended here s.rest
    { s with token := t, char := c, rest := r }

/-- An expression begins here or does not. -/
def start (here : Bool) : Reading Unit := modify (fun s => { s with atStart := here })

/-- Finds something wrong. Only the first thing counts. -/
def find (fault : String) : Reading Unit := modify (fun s => { s with fault := s.fault.or (some fault) })

/-- Warns of an operator that has nothing to work on. -/
def warnOf (t : Token) : Reading Unit :=
  let what := match t with
    | .star => "*"
    | .plus => "+"
    | .question => "?"
    | _ => "\x7b...\x7d"
  modify fun s =>
    if s.fault.isSome then s else { s with warnings := s.warnings ++ [what ++ " at start of expression"] }

/-! ### Sets -/

/-- A token between brackets. -/
inductive Item where
  | char (c : Char)
  | opens (delimiter : Char)
  | dash
  | closes
  | caret
  | ending
  deriving DecidableEq

/-- The first token of a text between brackets, and the text after it. -/
def nextItem : Raw → Item × Raw
  | [] => (.ending,[])
  | '[' :: '.' :: r => (.opens '.',r)
  | '[' :: '=' :: r => (.opens '=',r)
  | '[' :: ':' :: c :: r => (.opens ':',c :: r)
  | '-' :: '-' :: '-' :: r => (.char '-',r)
  | '-' :: r => (.dash,r)
  | ']' :: r => (.closes,r)
  | '^' :: r => (.caret,r)
  | c :: r => (.char c,r)

/-- A member of a set. -/
inductive Member where
  | char (c : Char)
  | symbol (name : Raw)
  | equivalents (name : Raw)
  | characterClass (name : Raw)

/-- How long a name between brackets may be. -/
def nameLimit : Nat := 32

/-- The name up to a delimiter and a bracket, and the text after it. -/
def nameUpTo (delimiter : Char) : Nat → Raw → Raw → Option (Raw × Raw)
  | 0, _, _ => none
  | fuel+1, name, c :: d :: r =>
    if c = delimiter && d = ']' then some (name.reverse,r) else nameUpTo delimiter fuel (c :: name) (d :: r)
  | _+1, _, _ => none

/-- The member that begins with a token, and the text after it. A dash is only a member at the beginning or the end,
    or as the end of a range. -/
def member (isFree : Bool) (item : Item) (r : Raw) : Except ReadingError (Member × Raw) :=
  match item with
  | .opens d =>
    match nameUpTo d nameLimit [] r with
    | none => .error .bracket
    | some (name,r) =>
      .ok (if d = '.' then .symbol name else if d = '=' then .equivalents name else .characterClass name,r)
  | .dash => if isFree || (nextItem r).1 = .closes then .ok (.char '-',r) else .error .range
  | .closes => .ok (.char ']',r)
  | .caret => .ok (.char '^',r)
  | .char c => .ok (.char c,r)
  | .ending => .error .bracket

/-- The character that a member is at the end of a range. -/
def rangeEnd : Member → Except ReadingError Char
  | .char c => .ok c
  | .symbol [c] => .ok c
  | .symbol _ => .error .collation
  | .equivalents _ | .characterClass _ => .error .range

/-- The ranges of a member that stands alone. -/
def rangesOf (folds : Bool) : Member → Except ReadingError (List (Char × Char))
  | .char c | .symbol [c] | .equivalents [c] => .ok [(c,c)]
  | .symbol _ | .equivalents _ => .error .collation
  | .characterClass name =>
    match CharacterClass.ofName? name with
    | none => .error .className
    | some k =>
      let k := if folds && (k = .upper || k = .lower) then .alpha else k
      .ok (k.members.map (fun c => (c,c)))

/-- The ranges of the members from a token on up to the closing bracket, and the text after it. -/
def members (folds : Bool) : Nat → Bool → Item → Raw → Except ReadingError (List (Char × Char) × Raw)
  | 0, _, _, _ => .error .bracket
  | fuel+1, isFirst, item, r => do
    let (m,r) ← member isFirst item r
    let (next,after) := nextItem r
    let mayRange := match m with
      | .char _ | .symbol _ => true
      | _ => false
    if mayRange && next = .ending then .error .bracket
    else
      let (ranges,next,after) ← (if mayRange && next = .dash then
          match nextItem after with
          | (.ending,_) => .error .bracket
          | (.closes,_) => do return (← rangesOf folds m,.char '-',after)
          | (item,r) => do
            let (last,r) ← member true item r
            let a ← rangeEnd m
            let b ← rangeEnd last
            if b < a then .error .range
            else let (next,after) := nextItem r; return ([(a,b)],next,after)
        else do return (← rangesOf folds m,next,after) : Except ReadingError (List (Char × Char) × Item × Raw))
      if next = .ending then .error .bracket
      else if next = .closes then return (ranges,after)
      else
        let (more,rest) ← members folds fuel false next after
        return (ranges ++ more,rest)

/-- Whether the text of a set looks like the name of a class without its brackets. -/
def looksLikeClass (t : Raw) : Bool :=
  t.length > 2 && t.head? = some ':' && t.getLast? = some ':' && !t.contains '[' && !t.contains '-'

/-- The set after an opening bracket. -/
def bracket : Reading CharacterSet := do
  let s ← get
  let (first,after) := nextItem s.rest
  let negated := first = .caret
  let (first,after) := if negated then nextItem after else (first,after)
  if first = .ending then throw .malformed
  let first := if first = .closes then .char ']' else first
  match members form.folds (s.rest.length + 1) true first after with
  | .error e => throw e
  | .ok (ranges,rest) =>
    let body := (s.rest.drop (if negated then 1 else 0)).take (s.rest.length - rest.length - 1 - if negated then 1 else 0)
    set { s with rest := rest }
    if looksLikeClass body then find "character class syntax is [[:space:]], not [:space:]"
    return ⟨negated,ranges⟩

/-! ### Repetitions -/

/-- How often something may be repeated at most. -/
def repeatLimit : Nat := 32767

/-- A number between braces: none if there is none, and nothing at all if something else stands there. -/
def number : Nat → Option Nat → Bool → Reading (Option (Option Nat))
  | 0, _, _ => return none
  | fuel+1, sofar, good => do
    advance form false
    let s ← get
    if s.token = .ending then return none
    else if s.token = .closeBrace || s.char = ',' then return if good then some sofar else none
    else
      match s.token with
      | .char c =>
        if c.isDigit then number fuel (some (min (repeatLimit + 1) (sofar.getD 0 * 10 + (c.toNat - 48)))) good
        else number fuel sofar false
      | _ => number fuel sofar false

/-- What the text after a brace is. -/
inductive Bounds where
  | times (least : Nat) (most : Option Nat)
  | unordered
  | tooBig
  /-- There are no numbers, or no closing brace. -/
  | malformed (e : ReadingError)

/-- The bounds between braces. -/
def bounds : Reading Bounds := do
  let fuel := (← get).rest.length + 2
  let isComma := fun (s : Progress) => s.token = .char ','
  let wrong : Reading Bounds := do
    return .malformed (if (← get).token = .ending then .brace else .repetition)
  match ← number form fuel none true with
  | none => wrong
  | some least =>
    if least.isNone && !isComma (← get) then return .unordered
    else
      let n := least.getD 0
      let s ← get
      let most ← (if s.token = .closeBrace then return some (some n)
        else if isComma s then number form fuel none true
        else return none : Reading (Option (Option Nat)))
      match most with
      | none => wrong
      | some m =>
        if m.any (· < n) || (← get).token ≠ .closeBrace then return .unordered
        else if m.getD n > repeatLimit then return .tooBig
        else return .times n m

/-- An operator. -/
inductive Operator where
  | times (least : Nat) (most : Option Nat)
  /-- It stands for itself. -/
  | none

/-- The operator that is a brace. Without an expression before it, it may stand for itself whatever is wrong with its
    bounds. -/
def brace (bare : Bool) : Reading Operator := do
  let before ← get
  let itself : Reading Operator := do
    set { before with token := .char '{', char := '{' }
    return .none
  let problem := fun (e : ReadingError) => do
    if !bare then throw e
    if form.extended then itself
    else
      let o ← itself
      find "invalid content of \\\x7b\\\x7d"
      return o
  match ← bounds form with
  | .times n m =>
    if bare && before.atStart then warnOf .openBrace
    start false
    advance form false
    return .times n m
  | .unordered => problem .repetition
  | .tooBig =>
    if !bare then throw .tooBig
    if before.atStart then warnOf .openBrace
    find "regular expression too big"
    advance form false
    return .times 0 none
  | .malformed e => if form.extended then itself else problem e

/-- The operator here, behind which reading goes on. `bare` tells that there is no expression before it. -/
def operator (bare : Bool) : Reading Operator := do
  match (← get).token with
  | .openBrace => brace form bare
  | t =>
    if bare && (← get).atStart then warnOf t
    advance form false
    return match t with
      | .plus => .times 1 none
      | .question => .times 0 (some 1)
      | _ => .times 0 none

/-- Whether a token is an operator. -/
def isOperator : Token → Bool
  | .star | .plus | .question | .openBrace => true
  | _ => false

/-- Reads the operators after an expression, or after a place. -/
def repeated (bare : Bool) : Nat → Expression → Reading Expression
  | 0, e => return e
  | fuel+1, e => do
    if isOperator (← get).token then
      match ← operator form bare with
      | .none => return e
      | .times n m => repeated bare fuel (if m = some 0 then .empty else .many n m e)
    else return e

/-! ### Expressions -/

/-- Whether a branch ends before a token. -/
def endsBranch (nested : Bool) (t : Token) : Bool :=
  match t with
  | .or | .ending => true
  | .closes => nested
  | _ => false

/-- An expression without alternatives that begins with the current token. `self` reads alternatives in
    parentheses. -/
def single (self : Bool → Reading Expression) : Nat → Reading Expression
  | 0 => return .empty
  | fuel+1 => do
    let s ← get
    let plain := fun (e : Expression) => do
      start false
      advance form false
      repeated form false s.rest.length.succ e
    match s.token with
    | .char c => plain (.one (.single c))
    | .any => plain (.one .all)
    | .set x => plain (.one x)
    | .bracket =>
      let x ← bracket form
      plain (.one x)
    | .opens =>
      let n := s.groups + 1
      set { s with groups := n, atStart := true }
      advance form true
      let e ← (do
        if (← get).token = .closes then return .empty
        else
          let e ← self true
          if (← get).token ≠ .closes then throw .parenthesis
          return e : Reading Expression)
      modify (fun s => { s with ended := n :: s.ended })
      plain (.group n e)
    | .again n =>
      if !s.ended.contains n then throw .reference
      plain (.again n)
    | .place p =>
      advance form false
      if form.extended || !s.atStart then repeated form true s.rest.length.succ (.place p) else return .place p
    | .star | .plus | .question | .openBrace =>
      if form.extended then
        match ← operator form true with
        | .none => plain (.one (.single '{'))
        | .times _ _ =>
          if (← get).token = .closes then plain (.one (.single ')'))
          else if endsBranch true (← get).token then return .empty
          else single self fuel
      else plain (.one (.single s.char))
    | .closes => if form.extended then plain (.one (.single ')')) else throw .closing
    | .closeBrace => plain (.one (.single '}'))
    | .or | .ending => return .empty
    | .backslash => throw .backslash

/-- Expressions one after the other. -/
def branch (self : Bool → Reading Expression) (nested : Bool) : Nat → Reading Expression
  | 0 => return .empty
  | fuel+1 => do
    let e ← single form self fuel
    if endsBranch nested (← get).token then return e
    else return .sequence e (← branch self nested fuel)

/-- Alternatives. What ended in one of them has not ended in the others. -/
def choices (self : Bool → Reading Expression) (nested : Bool) : Nat → List Nat → Reading Expression
  | 0, _ => return .empty
  | fuel+1, before => do
    let size := (← get).rest.length + 2
    let e ← (do
      if endsBranch nested (← get).token then return .empty else branch form self nested size : Reading Expression)
    if (← get).token = .or then
      let ended := (← get).ended
      modify (fun s => { s with ended := before, atStart := true })
      advance form true
      let other ← choices self nested fuel before
      modify (fun s => { s with ended := s.ended ++ ended })
      return .either e other
    else return e

/-- Alternatives, with parentheses nested at most `depth` deep. -/
def alternatives : Nat → Bool → Reading Expression
  | 0, _ => throw .tooBig
  | depth+1, nested => do
    let s ← get
    choices form (alternatives depth) nested (s.rest.length + 2) s.ended

end

/-- What a text describes, with warnings, and what is wrong with it nevertheless. -/
def read (form : Form) (t : Raw) : Except ReadingError (Expression × List String × Option String) :=
  let whole : Reading Expression := do
    advance form true
    alternatives form (t.length + 2) false
  match StateT.run whole ⟨.ending,'\x00',t,0,[],true,[],none⟩ with
  | .error e => .error e
  | .ok (e,s) => .ok (e,s.warnings,s.fault)

end Reading
end Search
end JobShell

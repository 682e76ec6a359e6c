import JobShell.Toml.Value

/-!
# Documents of the TOML format

A document is a sequence of lines: a key with its value, or the head of a table
that the lines after it fill in.
-/
namespace JobShell
namespace Toml

/-- One part of a key. -/
def keyPart? (s : Text) : Option (Text × Text) :=
  match s with
  | '"' :: r => basicString (r.length + 1) r
  | '\'' :: r => literalString r
  | _ =>
    let bare := s.takeWhile (fun c => c.isAlphanum || c = '_' || c = '-')
    if bare.isEmpty then none else some (bare,s.drop bare.length)

/-- How deep a document may be nested. -/
def depthLimit : Nat := 79

/-- A key: parts with points between them. -/
def key? : Nat → Text → Option (List Text × Text)
  | 0, _ => none
  | fuel+1, s => do
    let (part,rest) ← keyPart? (skipBlanks s)
    match skipBlanks rest with
    | '.' :: r => let (more,rest) ← key? fuel r; return (part :: more,rest)
    | r => return ([part],r)

/-- A number, a date or a word. -/
def scalar? (s : Text) : Option (TomlValue × Text) :=
  let token := s.takeWhile isScalarChar
  let rest := s.drop token.length
  if token = txt "true" then some (.flag true,rest)
  else if token = txt "false" then some (.flag false,rest)
  else match moment? s with
    | some (t,rest) => some (.moment t,rest)
    | none =>
      if isFloat token then some (.float,rest)
      else (integer? token).map (fun n => (.integer n,rest))

/-- The elements of an array, after its bracket. -/
def elements (value : Text → Option (TomlValue × Text)) : Nat → Text → Option (List TomlValue × Text)
  | 0, _ => none
  | fuel+1, s =>
    match skipLines (s.length + 1) s with
    | ']' :: r => some ([],r)
    | s => do
      let (v,rest) ← value s
      match skipLines (rest.length + 1) rest with
      | ',' :: r => let (more,rest) ← elements value fuel r; return (v :: more,rest)
      | ']' :: r => return ([v],r)
      | _ => none

/-- A key with its value. -/
def pair? (value : Text → Option (TomlValue × Text)) (s : Text) : Option (List Text × TomlValue × Text) := do
  let (key,rest) ← key? depthLimit s
  match rest with
  | '=' :: r => let (v,rest) ← value (skipBlanks r); return (key,v,rest)
  | _ => none

/-- The pairs within braces, at least one of them, added to a table. -/
def inlinePairs (value : Text → Option (TomlValue × Text)) : Nat → TomlValue → Text → Option (TomlValue × Text)
  | 0, _, _ => none
  | fuel+1, table, s => do
    let (key,v,rest) ← pair? value s
    let table ← TomlValue.insert [] key.dropLast (key.getLast?.getD []) v table
    match skipBlanks rest with
    | ',' :: r => inlinePairs value fuel table r
    | '\x7d' :: r => return (table,r)
    | _ => none

/-- A value in which others are nested less than `depth` deep. -/
def value? : Nat → Text → Option (TomlValue × Text)
  | depth, s =>
    match s with
    | '"' :: _ | '\'' :: _ => (string? s).map (fun p => (.text p.1,p.2))
    | '[' :: r =>
      match depth with
      | 0 => none
      | d+1 => (elements (value? d) (r.length + 1) r).map (fun p => (.array p.1,p.2))
    | '\x7b' :: r =>
      match depth with
      | 0 => none
      | d+1 =>
        match skipBlanks r with
        | '\x7d' :: rest => some (TomlValue.emptyInlineTable,rest)
        | r => inlinePairs (value? d) (r.length + 1) TomlValue.emptyInlineTable r
    | _ => scalar? s

/-- The head of a table, after its brackets. -/
def head? (close : Text) (s : Text) : Option (List Text × Text) := do
  let (key,rest) ← key? depthLimit s
  if close.isPrefixOf rest then return (key,rest.drop close.length) else none

/-- Fills in a table from lines, at the place that the last head named. -/
def lines? : Nat → List Text → TomlValue → Text → Option TomlValue
  | 0, _, _, _ => none
  | fuel+1, place, root, s =>
    match skipLines (s.length + 1) s with
    | [] => some root
    | '[' :: '[' :: r => do
      let (key,rest) ← head? [']',']'] r
      lines? fuel key (← root.addTable key.dropLast (key.getLast?.getD [])) (← endOfLine? rest)
    | '[' :: r => do
      let (key,rest) ← head? [']'] r
      lines? fuel key (← root.openTable key.dropLast (key.getLast?.getD [])) (← endOfLine? rest)
    | s => do
      let (key,v,rest) ← pair? (value? depthLimit) s
      lines? fuel place (← TomlValue.insert place key.dropLast (key.getLast?.getD []) v root) (← endOfLine? rest)

/-- The byte order mark, which may stand before a document. -/
def byteOrderMark : Char := Char.ofNat 0xFEFF

/-- The table that a document describes; none when it is not well formed. -/
def document? (s : Text) : Option TomlValue :=
  let s := if s.head? = some byteOrderMark then s.tail else s
  lines? (s.length + 1) [] .emptyTable s

end Toml
end JobShell

import JobShell.Syntax.Lexeme
import JobShell.Syntax.Word
import JobShell.Text.Numeral

/-!
# Expansion of words

What the segments of a word stand for: escapes are resolved, variables and the
last status are replaced, and a tilde at the beginning of a word, or after its
first equals sign, becomes a home directory.
-/
namespace JobShell

/-- What a word is expanded with. -/
structure Surroundings where
  /-- The status of the last command. -/
  status : Int
  /-- The value of a variable of the environment. -/
  valueOf : Text → Option Text
  /-- The home directory of a user. -/
  homeOf : Text → Option Text

namespace Expansion

/-- The home directory of a user, or of the environment for the empty name. -/
def home? (s : Surroundings) (user : Text) : Option Text :=
  if user.isEmpty then s.valueOf (txt "HOME") else s.homeOf user

/-- Characters that begin the name of a variable. -/
def isNameStart (c : Char) : Bool := c.isAlpha || c = '_'

/-- Characters of the name of a variable. -/
def isNameChar (c : Char) : Bool := c.isAlphanum || c = '_'

/-- Characters that make a bare text more than itself. -/
def isSpecial (c : Char) : Bool := c = backslash || c = '$' || c = backQuote

/-- What a dollar sign and the beginning of the text after it stand for, and how
    many characters of that text are used. -/
def dollar (s : Surroundings) : Text → Text × Nat
  | [] => (['$'],0)
  | c :: r =>
    if c = '?' then (Numeral.ofInt s.status,1)
    else if c = '\x7b' then
      let name := r.takeWhile isNameChar
      if !name.isEmpty && (r.drop name.length).head? = some '\x7d' then
        ((s.valueOf name).getD [],name.length + 2)
      else (['$'],0)
    else if isNameStart c then
      let name := (c :: r).takeWhile isNameChar
      ((s.valueOf name).getD [],name.length)
    else (['$'],0)

/-- Whether a backslash before the character is an escape. -/
def isEscape (inDouble : Bool) (c : Char) : Bool :=
  !inDouble || c = doubleQuote || c = backslash || c = '$' || c = backQuote

/-- What the text of a segment stands for, after `skip` characters that are used. -/
def body (s : Surroundings) (inDouble : Bool) (skip : Nat) : Text → List Atom
  | [] => []
  | c :: r =>
    match skip with
    | k+1 => body s inDouble k r
    | 0 =>
      if c = backslash then
        match r.head? with
        | none => [.char backslash]
        | some x =>
          if isEscape inDouble x then .char x :: body s inDouble 1 r
          else .char backslash :: body s inDouble 0 r
      else if c = '$' then
        if r.head? = some '(' then
          let n := Substitution.parenLength r.tail + 1
          .command ('$' :: r.take n) :: body s inDouble n r
        else (dollar s r).1.map .char ++ body s inDouble (dollar s r).2 r
      else if c = backQuote then
        let n := Substitution.tickLength r
        .command (backQuote :: r.take n) :: body s inDouble n r
      else .char c :: body s inDouble 0 r

/-- The text up to and with the first equals sign, and the text after it. -/
def afterEquals? (t : Text) : Option (Text × Text) :=
  (Text.splitAt? '=' t).map (fun p => (p.1 ++ ['='],p.2))

/-- A home directory with the text around its tilde, when the first segment of a
    word has a tilde that is expanded. `last` tells whether the word ends with
    the segment. -/
def tilde? (s : Surroundings) (last : Bool) (t : Text) : Option (Text × Text × Text) :=
  let start : Option (Text × Text) :=
    if t.head? = some '~' then some ([],t)
    else (afterEquals? t).filter (fun p => !p.1.any isSpecial && p.2.head? = some '~')
  start.bind fun (before,rest) =>
    let user := rest.tail.takeWhile (· != '/')
    let tail := rest.tail.dropWhile (· != '/')
    if tail.isEmpty && !last then none
    else if user.any isSpecial then none
    else (home? s user).map (fun home => (before,home,tail))

/-- What the segments of a word stand for; `first` tells whether the word begins here. -/
def segments (s : Surroundings) (first : Bool) : List Segment → List Atom
  | [] => []
  | .single t :: r => t.map .char ++ segments s false r
  | .double t :: r => body s true 0 t ++ segments s false r
  | .bare t :: r =>
    (match if first then tilde? s r.isEmpty t else none with
    | some (before,home,tail) => (before ++ home).map .char ++ body s false 0 tail
    | none => body s false 0 t) ++ segments s false r

/-- Whether a segment makes its word a quoted one. -/
def isQuoting : Segment → Bool
  | .bare t => t.contains backslash
  | _ => true

/-- The word that segments stand for. -/
def word (s : Surroundings) (l : List Segment) : Word := .ofAtoms (segments s true l) (l.any isQuoting)

/-- The text with a home directory in the place of a tilde at its beginning, or
    after its first equals sign. A tilde of an unknown user stays. -/
def ofTilde (s : Surroundings) (t : Text) : Text :=
  let start : Option (Text × Text) :=
    if t.head? = some '~' then some ([],t)
    else (afterEquals? t).filter (fun p => p.2.head? = some '~')
  match start with
  | none => t
  | some (before,rest) =>
    match home? s (rest.tail.takeWhile (· != '/')) with
    | some home => before ++ home ++ rest.tail.dropWhile (· != '/')
    | none => t

end Expansion
end JobShell

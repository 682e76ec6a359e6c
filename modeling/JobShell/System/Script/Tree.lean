import JobShell.Text.Raw

/-!
# Commands of scripts

A script is a list of commands, each of which is a tree. The words of a command
are made of pieces: characters, and what is put in the place of something else
when the command is run.
-/
namespace JobShell
namespace Script

/-- What becomes of a parameter in a word. -/
inductive Treatment where
  /-- Its value. -/
  | value
  /-- A word instead, when it is not set. -/
  | orWord
  /-- A word when it is set, and nothing otherwise. -/
  | whenSet
  /-- A complaint when it is not set. -/
  | orComplaint
  /-- A word that it is set to, when it is not set. -/
  | orSet
  /-- Its value without the shortest end, or the longest one, that matches. -/
  | dropEnd (longest : Bool)
  /-- Its value without the shortest beginning, or the longest one, that matches. -/
  | dropStart (longest : Bool)
  | length
  /-- What cannot be understood. -/
  | wrong
  deriving DecidableEq, Repr

/-- Where a descriptor comes from. -/
inductive FileUse where
  | read
  | write
  /-- For writing, whatever is there already. -/
  | replace
  | append
  | update
  deriving DecidableEq, Repr

mutual

/-- A piece of a word. -/
inductive Piece where
  | char (c : Char)
  /-- A character that only stands for itself. -/
  | quoted (c : Char)
  /-- A quote begins or ends. -/
  | mark
  /-- A parameter. With `colon` an empty value counts as none. -/
  | parameter (name : Raw) (t : Treatment) (colon : Bool) (word : List Piece)
  /-- The output of a command. -/
  | command (t : Option Tree)
  /-- The value of an arithmetic expression. -/
  | arithmetic (word : List Piece)

/-- A change of a descriptor. -/
inductive Redirect where
  | file (fd : Nat) (use : FileUse) (name : List Piece)
  /-- A copy of another descriptor, or none. -/
  | copy (fd : Nat) (source : Option Nat)
  /-- A copy of the descriptor that a word names. -/
  | copyNamed (fd : Nat) (source : List Piece)
  /-- Text of the script itself, which has a number. -/
  | document (fd : Nat) (expands : Bool) (number : Nat)

/-- A command. Commands know the line that they stand in. -/
inductive Tree where
  | simple (line : Nat) (assignments words : List (List Piece)) (redirects : List Redirect)
  | pipe (background : Bool) (stages : List Tree)
  | redirected (line : Nat) (body : Tree) (redirects : List Redirect)
  | subshell (line : Nat) (body : Tree) (redirects : List Redirect)
  | background (line : Nat) (body : Tree) (redirects : List Redirect)
  | both (a b : Tree)
  | either (a b : Tree)
  | sequence (a b : Tree)
  | not (a : Tree)
  | branch (test body : Tree) (otherwise : Option Tree)
  /-- A loop that goes on while its test holds, or until it holds. -/
  | loop (untilHolds : Bool) (test body : Tree)
  | each (line : Nat) (name : Raw) (words : List (List Piece)) (body : Tree)
  | choose (line : Nat) (word : List Piece) (cases : List (List (List Piece) × Option Tree))
  | function (name : Raw) (line : Nat) (body : Tree)

end

/-- A word. -/
abbrev Word := List Piece

/-- Whether a character begins a name. -/
def beginsName (c : Char) : Bool := c = '_' || c.isAlpha

/-- Whether a character may stand in a name. -/
def isNameChar (c : Char) : Bool := beginsName c || c.isDigit

/-- The name that a text begins with. -/
def leadingName (t : Raw) : Raw :=
  if t.head?.any beginsName then t.takeWhile isNameChar else []

/-- Whether a text is a name. -/
def isName (t : Raw) : Bool := !t.isEmpty && leadingName t == t

/-- The plain characters that a word begins with. -/
def plainStart : Word → Raw
  | .char c :: r => c :: plainStart r
  | _ => []

/-- Whether a word is an assignment: a name and an equals sign. -/
def isAssignment (w : Word) : Bool :=
  let start := plainStart w
  let name := leadingName start
  !name.isEmpty && start[name.length]? = some '='

/-- The text of a word that is nothing but plain characters. -/
def plainText? (w : Word) : Option Raw :=
  let start := plainStart w
  if start.length = w.length then some start else none

end Script
end JobShell

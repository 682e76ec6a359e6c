import JobShell.Syntax.Expansion

/-!
# Completion

The word before the cursor is completed to a command where a command is
expected, and to a file elsewhere. Commands are the built-in ones, the aliases
and the executable files of the search path.
-/
namespace JobShell

/-- The names of the built-in commands, in increasing order. -/
def builtinNames : List Text :=
  [txt "alias",txt "bg",txt "cd",txt "exit",txt "export",txt "fg",txt "history",txt "jobs",txt "pwd",
    txt "unalias",txt "unset"]

/-- Whether a name is that of a built-in command. -/
def isBuiltin (name : Text) : Bool := builtinNames.contains name

/-- The executable files of a search path. -/
structure PathCache where
  /-- Their names, in increasing order and each once. -/
  commands : List Text
  /-- The search path that was read; none before the first reading. -/
  path : Option Text
  deriving DecidableEq, Repr

namespace PathCache

/-- A cache that has read nothing. -/
def empty : PathCache := ⟨[],none⟩

/-- The directories of a search path that are read, in order. -/
def directories (path : Text) : List Text := (Text.splitOn ':' path).filter (!·.isEmpty)

/-- The cache for a search path, which is read only when it differs from the last one. -/
def refresh (c : PathCache) (path : Text) (executables : Text → List Text) : PathCache :=
  if c.path = some path then c
  else ⟨Text.sortUnique ((directories path).flatMap executables),some path⟩

/-- Whether the search path has a command. -/
def hasCommand (c : PathCache) (name : Text) : Bool := c.commands.contains name

/-- The commands that begin with `start`: they follow each other in the order of the names. -/
def withStart (c : PathCache) (start : Text) : List Text :=
  (c.commands.dropWhile (fun name => Text.before name start)).takeWhile start.isPrefixOf

end PathCache

/-- The commands that can be completed. -/
structure Vocabulary where
  path : PathCache
  /-- The names of the aliases, in increasing order. -/
  aliases : List Text
  deriving DecidableEq, Repr

namespace Vocabulary

/-- Whether a name is that of a command. -/
def contains (u : Vocabulary) (name : Text) : Bool :=
  isBuiltin name || u.aliases.contains name || u.path.hasCommand name

/-- The commands that begin with `start`, in increasing order and each once. -/
def withStart (u : Vocabulary) (start : Text) : List Text :=
  Text.sortUnique (builtinNames.filter start.isPrefixOf ++ u.aliases.filter start.isPrefixOf ++
    u.path.withStart start)

end Vocabulary

/-- What completion looks at. -/
structure Outlook where
  commands : Vocabulary
  /-- The names in a directory, and whether each is a directory or leads to one;
      no names when the directory cannot be read. -/
  listing : Text → List (Text × Bool)
  /-- What a tilde stands for. -/
  surroundings : Surroundings

namespace Completion

/-- The word at the end of a text, and the text before it. Blanks and tabs separate words. -/
def lastWord (before : Text) : Text × Text :=
  ((before.reverse.dropWhile (fun c => c != ' ' && c != '\t')).reverse,
    (before.reverse.takeWhile (fun c => c != ' ' && c != '\t')).reverse)

/-- Whether a command is expected after a text. -/
def expectsCommand (front : Text) : Bool :=
  let front := Text.trimEnd front
  front.isEmpty || front.getLast? = some '|'

/-- A text up to and with its last slash, and the text after it. -/
def lastSlash (t : Text) : Text × Text :=
  ((t.reverse.dropWhile (· != '/')).reverse,(t.reverse.takeWhile (· != '/')).reverse)

/-- The files that a word can be completed to. A hidden file needs a word that begins with a
    point; a directory is shown with a slash; a tilde stays as it was typed. -/
def files (o : Outlook) (word : Text) : List Text :=
  let expanded := Expansion.ofTilde o.surroundings word
  let directory := (lastSlash expanded).1
  let start := (lastSlash expanded).2
  let shown :=
    if !directory.isEmpty && word.head? = some '~' && word.contains '/' then (lastSlash word).1
    else directory
  let names := (o.listing (if directory.isEmpty then txt "./" else directory)).filter fun p =>
    start.isPrefixOf p.1 && (p.1.head? != some '.' || start.head? = some '.')
  (names.map fun p => shown ++ p.1 ++ if p.2 then ['/'] else []).mergeSort Text.atMost

/-- What the word at the end of a text can be completed to. -/
def candidates (o : Outlook) (before : Text) : List Text :=
  let (front,word) := lastWord before
  if expectsCommand front && !word.contains '/' then o.commands.withStart word else files o word

/-- The longest text that both texts begin with. -/
def common : Text → Text → Text
  | a :: r, b :: s => if a = b then a :: common r s else []
  | _, _ => []

/-- The longest text that all texts of a list begin with; empty for the empty list. -/
def commonStart : List Text → Text
  | [] => []
  | s :: r => r.foldl common s

end Completion
end JobShell

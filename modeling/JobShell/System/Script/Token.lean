import JobShell.System.Script.Tree
import JobShell.Text.Bindings

/-!
# Tokens of scripts

The text of a script as a sequence of characters, in which the values of aliases
may have been put, and the tokens that it is made of. A reader knows what it has
read and what may come next. It asks for more text when it is at the end of what
it has, unless it was told that there is no more.
-/
namespace JobShell
namespace Script

/-- Why no command could be read. -/
inductive ReadFailure where
  /-- There is not enough text yet. -/
  | more
  | wrong (line : Nat) (message : Raw)

/-- A token. -/
inductive Token where
  | ending
  | newline
  | semicolon
  | ampersand
  | and
  | or
  | pipe
  | openParen
  | closeParen
  | caseEnd
  | redirect
  | word
  /-- A word that has a meaning where a command begins. -/
  | reserved (w : Raw)
  deriving DecidableEq, Repr

namespace Token

/-- A token as it is shown in complaints. -/
def shown : Token → Raw
  | .ending => txt "end of file"
  | .newline => txt "newline"
  | .semicolon => txt "\";\""
  | .ampersand => txt "\"&\""
  | .and => txt "\"&&\""
  | .or => txt "\"||\""
  | .pipe => txt "\"|\""
  | .openParen => txt "\"(\""
  | .closeParen => txt "\")\""
  | .caseEnd => txt "\";;\""
  | .redirect => txt "redirection"
  | .word => txt "word"
  | .reserved w => '"' :: w ++ ['"']

/-- The reserved words. -/
def reservedWords : List Raw :=
  ["!","case","do","done","elif","else","esac","fi","for","if","in","then","until","while","\x7b","\x7d"].map txt

/-- Whether a list of commands ends before a token. -/
def endsList : Token → Bool
  | .ending | .closeParen | .caseEnd => true
  | .reserved w => (["do","done","elif","else","esac","fi","then","\x7d"].map txt).contains w
  | _ => false

end Token

/-- What may come next. -/
structure Expectation where
  /-- Line feeds are passed over. -/
  newlines : Bool
  /-- Reserved words have their meaning. -/
  reserved : Bool
  /-- Aliases are replaced. -/
  aliases : Bool
  /-- The end mark of a document. -/
  endMark : Bool

namespace Expectation

/-- Nothing special is expected. -/
def nothing : Expectation := ⟨false,false,false,false⟩

/-- A command may begin. -/
def command : Expectation := ⟨false,true,true,false⟩

/-- A command may begin, perhaps on another line. -/
def commandBelow : Expectation := ⟨true,true,true,false⟩

/-- What is expected in one way or the other. -/
def union (a b : Expectation) : Expectation :=
  ⟨a.newlines || b.newlines,a.reserved || b.reserved,a.aliases || b.aliases,a.endMark || b.endMark⟩

end Expectation

/-- A document whose text is still to come. -/
structure PendingDocument where
  number : Nat
  endMark : Raw
  /-- Tabulators at the beginnings of its lines are dropped. -/
  strips : Bool
  expands : Bool

/-- Text that was put in front of other text. -/
structure PushedText where
  text : Raw
  /-- The aliases that stand for nothing as long as it is read. -/
  names : List Raw
  /-- A word after it may be an alias as well. -/
  goesOn : Bool

/-- What is read. -/
structure Reader where
  pushed : List PushedText
  /-- The aliases whose texts ended when the last character was looked for. -/
  released : List Raw
  rest : Raw
  /-- There is no more text. -/
  ended : Bool
  line : Nat
  aliases : Bindings
  expectation : Expectation
  /-- The last token is to be read again. -/
  again : Bool
  token : Token
  word : Word
  /-- The last word has quotes. -/
  quoted : Bool
  redirect : Redirect
  pending : List PendingDocument
  documents : Array Word

/-- Whether an alias stands for nothing for now. -/
def Reader.isInUse (s : Reader) (name : Raw) : Bool :=
  s.released.contains name || s.pushed.any (·.names.contains name)

/-- An action of a reader. -/
abbrev Read (α : Type) : Type := StateT Reader (Except ReadFailure) α

namespace Read

/-- How often a reader does something again until its text ends. -/
def rounds : Nat := 1000000000

/-- Complains about the text. -/
def fail {α : Type} (message : Raw) : Read α := do throw (.wrong (← get).line (txt "Syntax error: " ++ message))

/-- What is left of texts that were put in front, without those that are read. -/
structure Front where
  pushed : List PushedText
  released : List Raw
  expectation : Expectation

/-- Drops the texts that are read. An alias stands for nothing until a character after the one that follows its
    text is looked for, so that two aliases whose texts are each other's names have an end. -/
def Front.trim : List PushedText → Front → Front
  | [], f => { f with pushed := [] }
  | p :: r, f =>
    if p.text.isEmpty then
      Front.trim r ⟨r,p.names,if p.goesOn then { f.expectation with aliases := true } else f.expectation⟩
    else { f with pushed := p :: r }

/-- The next character; none at the end. -/
def next : Read (Option Char) := do
  let s ← get
  let f := Front.trim s.pushed ⟨s.pushed,[],s.expectation⟩
  let s := { s with pushed := f.pushed, released := f.released, expectation := f.expectation }
  match s.pushed with
  | { text := c :: t, names, goesOn } :: r =>
    set { s with pushed := ⟨t,names,goesOn⟩ :: r }
    return some c
  | _ =>
    match s.rest with
    | c :: r =>
      set { s with rest := r }
      return some c
    | [] =>
      if !s.ended then throw .more
      set s
      return none

/-- Takes a character back. -/
def back : Option Char → Read Unit
  | none => return
  | some c => modify fun s =>
    match s.pushed with
    | p :: r => { s with pushed := { p with text := c :: p.text } :: r }
    | [] => { s with rest := c :: s.rest }

/-- A line has ended. -/
def countLine : Read Unit := modify (fun s => { s with line := s.line + 1 })

/-- The next character, where lines that end with a backslash are joined. -/
def nextJoined : Nat → Read (Option Char)
  | 0 => next
  | fuel+1 => do
    match ← next with
    | some '\\' =>
      match ← next with
      | some '\n' =>
        countLine
        nextJoined fuel
      | c =>
        back c
        return some '\\'
    | c => return c

/-- The next character, where lines that end with a backslash are joined. -/
def nextChar : Read (Option Char) := nextJoined rounds

/-- Passes over the rest of a line. -/
def skipLine : Nat → Read Unit
  | 0 => return
  | fuel+1 => do
    match ← next with
    | none => return
    | some '\n' => back (some '\n')
    | some _ => skipLine fuel

/-- Sets what may come next. -/
def expect (e : Expectation) : Read Unit := modify (fun s => { s with expectation := e })

/-- The last token is read again. -/
def tokenBack : Read Unit := modify (fun s => { s with again := true })

/-- The token is remembered. -/
def found (t : Token) : Read Token := do
  modify (fun s => { s with token := t })
  return t

/-- Complains about the last token. -/
def unexpected {α : Type} (expected : Option Token) : Read α := do
  let t := (← get).token.shown ++ txt " unexpected"
  fail (match expected with
    | some e => t ++ txt " (expecting " ++ e.shown ++ [')']
    | none => t)

end Read
end Script
end JobShell

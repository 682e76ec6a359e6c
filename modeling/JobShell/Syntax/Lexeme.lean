import JobShell.Syntax.Substitution
import JobShell.Text.Blank

/-!
# Lexemes

A command line is read into operators and words, and a word into segments: text
in single quotes, text in double quotes, and text without quotes. Nothing is
expanded here, so the lexemes depend on the characters of the line alone.

The readers go through the text character by character; a count tells how many
of the next characters are already part of what was read.
-/
namespace JobShell

/-- Why a command line is refused. -/
inductive SyntaxError where
  /-- A quote is never closed. -/
  | unclosedQuote (quote : Char)
  /-- A command without a word. -/
  | emptyCommand
  /-- An operator that has no meaning here. -/
  | unsupportedOperator (operator : Text)
  /-- A redirection without a target. -/
  | missingRedirectTarget
  /-- A descriptor that is not a number. -/
  | badDescriptor
  /-- Something follows the ampersand. -/
  | trailingAmpersand
  deriving DecidableEq, Repr

/-- What a refused command line is answered with. -/
def SyntaxError.message : SyntaxError → Text
  | .unclosedQuote q => txt "unexpected EOF while looking for matching \x60" ++ [q] ++ txt "\x27"
  | .emptyCommand => txt "syntax error: empty command in pipeline"
  | .unsupportedOperator op => txt "syntax error near unexpected token \x60" ++ op ++ txt "\x27"
  | .missingRedirectTarget => txt "syntax error: missing redirect target"
  | .badDescriptor => txt "syntax error: invalid file descriptor in redirect"
  | .trailingAmpersand => txt "syntax error: \x60&\x27 must be the last token"

/-- A part of a word. -/
inductive Segment where
  /-- The text between single quotes. -/
  | single (body : Text)
  /-- The text between double quotes. -/
  | double (body : Text)
  /-- Text without quotes around it. -/
  | bare (body : Text)
  deriving DecidableEq, Repr

/-- A segment as it is written. -/
def Segment.source : Segment → Text
  | .single t => singleQuote :: t ++ [singleQuote]
  | .double t => doubleQuote :: t ++ [doubleQuote]
  | .bare t => t

/-- What a redirection does with the file it names. -/
inductive FileMode where
  /-- Standard output goes to the file, which is emptied first. -/
  | output
  /-- Standard output goes to the end of the file. -/
  | append
  /-- Standard input comes from the file. -/
  | input
  /-- Standard error goes to the file, which is emptied first. -/
  | error
  deriving DecidableEq, Repr

/-- An operator, or a word as it is written. -/
inductive Lexeme where
  | word (segments : List Segment)
  | pipe
  | ampersand
  | redirect (mode : FileMode)
  /-- A descriptor that becomes a duplicate of the one that follows. -/
  | duplicate (descriptor : Int)
  deriving DecidableEq, Repr

/-- Characters that end a word outside quotes. -/
def isWordBreak (c : Char) : Bool :=
  c = ' ' || c = '\t' || c = '\n' || c = '\r' || c = '|' || c = '&' || c = '>' || c = '<' || c = ';'

namespace Lexeme

/-- The number of characters of a segment without quotes, the next `skip`
    characters being part of it in any case. A backslash takes the next character
    along, and a substitution is taken as a whole. -/
def bareLength (skip : Nat) : Text → Nat
  | [] => 0
  | c :: r =>
    match skip with
    | k+1 => bareLength k r + 1
    | 0 =>
      if c = singleQuote || c = doubleQuote || isWordBreak c then 0
      else if c = backslash then bareLength 1 r + 1
      else if c = '$' && r.head? = some '(' then bareLength (Substitution.parenLength r.tail + 1) r + 1
      else if c = backQuote then bareLength (Substitution.tickLength r) r + 1
      else bareLength 0 r + 1

/-- The number of characters before the double quote that ends the segment. -/
def doubleLength? (escaped : Bool) : Text → Option Nat
  | [] => none
  | c :: r =>
    if escaped then (doubleLength? false r).map (· + 1)
    else if c = doubleQuote then some 0
    else (doubleLength? (c = backslash) r).map (· + 1)

/-- The number of characters before the next single quote. -/
def singleLength? : Text → Option Nat
  | [] => none
  | c :: r => if c = singleQuote then some 0 else (singleLength? r).map (· + 1)

/-- The segments of the word at the beginning of the text, after `skip` characters
    that are already read. -/
def segments (skip : Nat) : Text → Except SyntaxError (List Segment)
  | [] => .ok []
  | c :: r =>
    match skip with
    | k+1 => segments k r
    | 0 =>
      if c = singleQuote then
        match singleLength? r with
        | none => .error (.unclosedQuote singleQuote)
        | some n => (segments (n+1) r).map (.single (r.take n) :: ·)
      else if c = doubleQuote then
        match doubleLength? false r with
        | none => .error (.unclosedQuote doubleQuote)
        | some n => (segments (n+1) r).map (.double (r.take n) :: ·)
      else if isWordBreak c then .ok []
      else
        let n := bareLength 0 (c :: r)
        (segments (n-1) r).map (.bare ((c :: r).take n) :: ·)

/-- A word as it is written. -/
def wordSource (l : List Segment) : Text := l.flatMap Segment.source

/-- The lexemes of a text after `skip` characters that are already read. -/
def read (skip : Nat) : Text → Except SyntaxError (List Lexeme)
  | [] => .ok []
  | c :: r =>
    match skip with
    | k+1 => read k r
    | 0 =>
      if isAsciiBlank c then read 0 r
      else if c = '|' then
        if r.head? = some '|' then .error (.unsupportedOperator (txt "||"))
        else (read 0 r).map (.pipe :: ·)
      else if c = '&' then
        if r.head? = some '&' then .error (.unsupportedOperator (txt "&&"))
        else (read 0 r).map (.ampersand :: ·)
      else if c = ';' then .error (.unsupportedOperator (txt ";"))
      else if c = '>' then
        if r.head? = some '>' then (read 1 r).map (.redirect .append :: ·)
        else if r.head? = some '&' then (read 1 r).map (.duplicate 1 :: ·)
        else (read 0 r).map (.redirect .output :: ·)
      else if c = '<' then (read 0 r).map (.redirect .input :: ·)
      else if c = '2' && r.head? = some '>' then
        if r.tail.head? = some '&' then (read 2 r).map (.duplicate 2 :: ·)
        else (read 1 r).map (.redirect .error :: ·)
      else
        match segments 0 (c :: r) with
        | .error e => .error e
        | .ok segs => (read ((wordSource segs).length - 1) r).map (.word segs :: ·)

/-- The lexemes of a command line. -/
def ofLine (line : Text) : Except SyntaxError (List Lexeme) := read 0 line

end Lexeme
end JobShell

import JobShell.Syntax.Expansion

/-!
# Pipelines

A command line is a sequence of commands with pipes between them, each made of
words and redirections, and perhaps an ampersand at the end. The first word is
replaced by the tokens of its alias when it is bound and not quoted; the
replacement is not looked at again.
-/
namespace JobShell

/-- A lexeme whose words are expanded. -/
inductive Token where
  | word (w : Word)
  | pipe
  | ampersand
  | redirect (mode : FileMode)
  | duplicate (descriptor : Int)
  deriving DecidableEq, Repr

/-- A change of the descriptors of a command. -/
inductive Redirect where
  /-- A file is opened. -/
  | file (mode : FileMode) (target : Word)
  /-- `descriptor` becomes a duplicate of `source`. -/
  | duplicate (descriptor source : Int)
  deriving DecidableEq, Repr

/-- One command of a pipeline. -/
structure Command where
  args : List Word
  redirects : List Redirect
  deriving DecidableEq, Repr

/-- The commands of a line. -/
structure Pipeline where
  commands : List Command
  /-- The line ends with an ampersand. -/
  background : Bool
  deriving DecidableEq, Repr

/-- The text of the first word. -/
def Command.name (c : Command) : Text := (c.args.head?.map Word.text).getD []

namespace Token

/-- A lexeme in given surroundings. -/
def ofLexeme (s : Surroundings) : Lexeme → Token
  | .word l => .word (Expansion.word s l)
  | .pipe => .pipe
  | .ampersand => .ampersand
  | .redirect m => .redirect m
  | .duplicate d => .duplicate d

/-- The tokens of a text. -/
def ofText (s : Surroundings) (t : Text) : Except SyntaxError (List Token) :=
  (Lexeme.ofLine t).map (·.map (ofLexeme s))

/-- The value of the alias that the first token names. -/
def alias? (aliases : Text → Option Text) : List Token → Option Text
  | .word w :: _ => if w.quoted then none else aliases w.text
  | _ => none

/-- The tokens with the first one replaced by those of its alias. -/
def spliceAlias (s : Surroundings) (aliases : Text → Option Text) (l : List Token) :
    Except SyntaxError (List Token) :=
  match alias? aliases l with
  | none => .ok l
  | some value => (ofText s value).map (· ++ l.tail)

end Token

namespace Pipeline

/-- The pipeline of tokens, when `commands` are complete and `args` and
    `redirects` belong to the command that is being read. -/
def assemble (commands : List Command) (args : List Word) (redirects : List Redirect) :
    List Token → Except SyntaxError (Option Pipeline)
  | [] =>
    if !args.isEmpty then .ok (some ⟨commands ++ [⟨args,redirects⟩],false⟩)
    else if commands.isEmpty && redirects.isEmpty then .ok none
    else .error .emptyCommand
  | .word w :: r => assemble commands (args ++ [w]) redirects r
  | .pipe :: r =>
    if args.isEmpty then .error .emptyCommand else assemble (commands ++ [⟨args,redirects⟩]) [] [] r
  | .ampersand :: r =>
    if args.isEmpty then .error .emptyCommand
    else if r.isEmpty then .ok (some ⟨commands ++ [⟨args,redirects⟩],true⟩)
    else .error .trailingAmpersand
  | .redirect m :: .word w :: r => assemble commands args (redirects ++ [.file m w]) r
  | .redirect _ :: _ => .error .missingRedirectTarget
  | .duplicate d :: .word w :: r =>
    match Numeral.readInt Numeral.maxInt32 w.text with
    | some source => assemble commands args (redirects ++ [.duplicate d source]) r
    | none => .error .badDescriptor
  | .duplicate _ :: _ => .error .missingRedirectTarget

/-- The pipeline of a command line; `none` for a blank one. -/
def parse (s : Surroundings) (aliases : Text → Option Text) (line : Text) :
    Except SyntaxError (Option Pipeline) := do
  assemble [] [] [] (← Token.spliceAlias s aliases (← Token.ofText s line))

/-- Whether more input can complete the line: a quote is open, or the line ends with a backslash. -/
def needsMore (s : Surroundings) (aliases : Text → Option Text) (line : Text) : Bool :=
  (Text.trimEnd line).getLast? = some backslash ||
    match parse s aliases line with
    | .error (.unclosedQuote _) => true
    | _ => false

end Pipeline
end JobShell

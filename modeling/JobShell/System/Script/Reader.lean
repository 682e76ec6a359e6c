import JobShell.System.Script.WordReader

/-!
# Reading commands

Commands are read from left to right, one token being looked at in advance. What
a compound command is made of is read by the same rules, so that reading is a
recursion, which is cut off at a depth that no script has.
-/
namespace JobShell
namespace Script
namespace Read

section
variable (inner : Bool → Read (Option Tree))

/-! ### Tokens -/

/-- The redirection that begins with a character, for a descriptor that may be given. -/
def redirection (c : Char) (fd : Option Nat) : Read Unit := do
  let remember := fun (r : Redirect) => modify (fun s => { s with redirect := r })
  let d ← nextChar
  if c = '>' then
    let fd := fd.getD 1
    match d with
    | some '>' => remember (.file fd .append [])
    | some '|' => remember (.file fd .replace [])
    | some '&' => remember (.copyNamed fd [])
    | d =>
      back d
      remember (.file fd .write [])
  else
    let fd := fd.getD 0
    match d with
    | some '<' =>
      let e ← nextChar
      let strips := e = some '-'
      if !strips then back e
      modify fun s =>
        let n := s.documents.size
        { s with redirect := .document fd true n, documents := s.documents.push [],
                 pending := s.pending ++ [⟨n,[],strips,true⟩] }
    | some '&' => remember (.copyNamed fd [])
    | some '>' => remember (.file fd .update [])
    | d =>
      back d
      remember (.file fd .read [])

/-- The word that begins with a character, or a redirection. -/
def wordToken (c : Option Char) : Read Token := do
  let (c,w) ← pieces inner none rounds false c (Unfinished.start .plain)
  checkEnded false w
  let number := match w.pieces with
    | [] => some none
    | [.char d] => if d.isDigit then some (some (d.toNat - 48)) else none
    | _ => none
  match c, number with
  | some x, some fd =>
    if (x = '>' || x = '<') && !w.quoted then
      redirection x fd
      return ← found .redirect
  | _, _ => pure ()
  back c
  modify (fun s => { s with word := w.pieces.reverse, quoted := w.quoted })
  found .word

/-- The next token, whatever it means. -/
def plainToken : Nat → Read Token
  | 0 => return .ending
  | fuel+1 => do
    let one := fun (t : Token) => found t
    let two := fun (c : Char) (double single : Token) => do
      let d ← nextChar
      if d = some c then found double
      else
        back d
        found single
    match ← nextChar with
    | none => one .ending
    | some ' ' | some '\t' => plainToken fuel
    | some '#' =>
      skipLine rounds
      plainToken fuel
    | some '\n' =>
      countLine
      one .newline
    | some '&' => two '&' .and .ampersand
    | some '|' => two '|' .or .pipe
    | some ';' => two ';' .caseEnd .semicolon
    | some '(' => one .openParen
    | some ')' => one .closeParen
    | c => wordToken inner c

/-- The next token, which may be the last one once more. -/
def rawToken : Read Token := do
  let s ← get
  if s.again then
    set { s with again := false }
    return s.token
  else plainToken inner rounds

/-- Reads the documents whose texts begin here. -/
def documents : Read Unit := do
  let pending := (← get).pending
  modify (fun s => { s with pending := [] })
  for d in pending do document inner d

/-- Passes over line feeds. -/
def skipNewlines : Nat → Token → Read Token
  | 0, t => return t
  | fuel+1, t =>
    if t = .newline then do
      documents inner
      expect .nothing
      skipNewlines fuel (← rawToken inner)
    else return t

/-- The next token. -/
def token : Nat → Expectation → Read Token
  | 0, _ => return .ending
  | fuel+1, e => do
    let t ← rawToken inner
    let t ← if e.newlines then skipNewlines inner rounds t else pure t
    let s ← get
    let e := e.union s.expectation
    set { s with expectation := .nothing }
    if t ≠ .word || s.quoted then return t
    else
      let text := plainText? s.word
      match e.reserved, text with
      | true, some w =>
        if Token.reservedWords.contains w then return ← found (.reserved w)
      | _, _ => pure ()
      match e.aliases, text with
      | true, some w =>
        match if s.isInUse w then none else s.aliases.get? w with
        | none => return t
        | some value =>
          if !value.isEmpty then
            let on := value.getLast? = some ' ' || value.getLast? = some '\t'
            modify (fun s => { s with pushed := ⟨value,w :: s.released,on⟩ :: s.pushed, released := [] })
          token fuel e
      | _, _ => return t

/-- The next token. -/
def next? : Read Token := do token inner rounds (← get).expectation

/-- The next token, which must be the expected one. -/
def must (t : Token) : Read Unit := do
  if (← next? inner) ≠ t then unexpected (some t)

/-- The next token, which must be a reserved word. -/
def mustBe (w : String) : Read Unit := must inner (.reserved (txt w))

/-! ### Commands -/

/-- The word of a redirection. -/
def target : Read Redirect := do
  match (← get).redirect with
  | .document fd _ n =>
    expect { Expectation.nothing with endMark := true }
    if (← next? inner) ≠ .word then unexpected none
    let s ← get
    let mark := s.word.filterMap fun
      | .char c | .quoted c => some c
      | _ => none
    let expands := !s.quoted
    modify fun s =>
      { s with pending := s.pending.map (fun d => if d.number = n then { d with endMark := mark, expands := expands } else d) }
    return .document fd expands n
  | .copyNamed fd _ | .copy fd _ =>
    if (← next? inner) ≠ .word then unexpected none
    let w := (← get).word
    match plainText? w with
    | some [c] =>
      if c.isDigit then return .copy fd (some (c.toNat - 48))
      else if c = '-' then return .copy fd none
      else return .copyNamed fd w
    | _ => return .copyNamed fd w
  | .file fd use _ =>
    if (← next? inner) ≠ .word then unexpected none
    return .file fd use (← get).word

/-- The special commands of the language, which no function can replace. -/
def specialNames : List Raw :=
  [".",":","break","continue","eval","exec","exit","export","readonly","return","set","shift","times","trap",
    "unset"].map txt

/-- What a simple command is made of so far, in reverse order. -/
structure SimpleParts where
  assignments : List Word
  words : List Word
  redirects : List Redirect

/-- A simple command, or the definition of a function, of which some parts were read. -/
def simpleFrom (list : Read Tree) (line : Nat) : Nat → SimpleParts → Read Tree
  | 0, p => return .simple line p.assignments.reverse p.words.reverse p.redirects.reverse
  | fuel+1, p => do
    expect { Expectation.nothing with aliases := p.words.isEmpty }
    match ← next? inner with
    | .word =>
      let w := (← get).word
      if p.words.isEmpty && isAssignment w then simpleFrom list line fuel { p with assignments := w :: p.assignments }
      else simpleFrom list line fuel { p with words := w :: p.words }
    | .redirect =>
      let r ← target inner
      simpleFrom list line fuel { p with redirects := r :: p.redirects }
    | t =>
      match t, p.words, p.assignments, p.redirects with
      | .openParen, [w], [], [] =>
        must inner .closeParen
        match plainText? w with
        | some name =>
          if !isName name || specialNames.contains name then fail (txt "Bad function name")
          expect .commandBelow
          let line := (← get).line
          let body ← list
          return .function name line body
        | none => fail (txt "Bad function name")
      | _, _, _, _ =>
        tokenBack
        return .simple line p.assignments.reverse p.words.reverse p.redirects.reverse

/-- Redirections after a compound command. -/
def redirects : Nat → Read (List Redirect)
  | 0 => return []
  | fuel+1 => do
    if (← next? inner) = .redirect then
      let r ← target inner
      return r :: (← redirects fuel)
    else
      tokenBack
      return []

/-- Words up to another token. -/
def words : Nat → Read (List Word)
  | 0 => return []
  | fuel+1 => do
    if (← next? inner) = .word then
      let w := (← get).word
      return w :: (← words fuel)
    else return []

/-- The patterns of a case, up to a closing parenthesis; the first one was read. -/
def patterns : Nat → Read (List Word)
  | 0 => return []
  | fuel+1 => do
    let w := (← get).word
    if (← next? inner) = .pipe then
      let _ ← next? inner
      return w :: (← patterns fuel)
    else return [w]

/-- All arguments, each as a word of its own. -/
def allArguments : Word := [.mark,.parameter ['@'] .value false [],.mark]

/-- How far a list of commands goes. -/
inductive Extent where
  /-- To the end of a line. -/
  | line
  /-- To what cannot begin a command. There must be a command, or the end of the text. -/
  | block
  /-- The same, but there need not be a command. -/
  | perhaps
  deriving DecidableEq, Repr

/-- What stands for the commands that are missing at the end of a text. Reading fails after them. -/
def missing : Tree := .simple 0 [] [] []

/-- The commands of a part of a compound command. -/
def part (list : Extent → Read (Option Tree)) : Read Tree := do return (← list .block).getD missing

/-- The branches after the test of a branch was read. -/
def branches (list : Extent → Read (Option Tree)) : Nat → Read Tree
  | 0 => unexpected none
  | fuel+1 => do
    let test ← part list
    mustBe inner "then"
    let body ← part list
    match ← next? inner with
    | .reserved ['e','l','i','f'] => return .branch test body (some (← branches list fuel))
    | .reserved ['e','l','s','e'] => return .branch test body (some (← part list))
    | _ =>
      tokenBack
      return .branch test body none

/-- The cases of a choice. -/
def cases (list : Extent → Read (Option Tree)) : Nat → Read (List (List Word × Option Tree))
  | 0 => return []
  | fuel+1 => do
    expect { Expectation.nothing with newlines := true, reserved := true }
    let t ← next? inner
    if t = .reserved (txt "esac") then return []
    else
      if t = .openParen then let _ ← next? inner
      let ps ← patterns inner rounds
      if (← get).token ≠ .closeParen then unexpected (some .closeParen)
      let body ← list .perhaps
      expect { Expectation.nothing with newlines := true, reserved := true }
      match ← next? inner with
      | .reserved ['e','s','a','c'] => return [(ps,body)]
      | .caseEnd => return (ps,body) :: (← cases list fuel)
      | _ => unexpected (some .caseEnd)

/-- A command with what may follow it. -/
def withRedirects (line : Nat) (t : Tree) : Read Tree := do
  expect .command
  let rs ← redirects inner rounds
  match t, rs with
  | t, [] => return t
  | .subshell l body _, rs => return .subshell l body rs
  | t, rs => return .redirected line t rs

/-- A command. -/
def command (list : Extent → Read (Option Tree)) (again : Read Tree) : Read Tree := do
  let line := (← get).line
  let finish := fun (t : Tree) (w : String) => do
    mustBe inner w
    withRedirects inner line t
  match ← next? inner with
  | .reserved w =>
    if w = txt "if" then finish (← branches inner list rounds) "fi"
    else if w = txt "while" || w = txt "until" then
      let test ← part list
      mustBe inner "do"
      let body ← part list
      finish (.loop (w = txt "until") test body) "done"
    else if w = txt "for" then
      let t ← next? inner
      let s ← get
      match t, s.quoted, plainText? s.word with
      | .word, false, some name =>
        if !isName name then fail (txt "Bad for loop variable")
        expect .commandBelow
        let ws ← (do
          if (← next? inner) = .reserved (txt "in") then
            let ws ← words inner rounds
            let t := (← get).token
            if t ≠ .newline && t ≠ .semicolon then unexpected none
            return ws
          else
            if (← get).token ≠ .semicolon then tokenBack
            return [allArguments] : Read (List Word))
        expect .commandBelow
        mustBe inner "do"
        let body ← part list
        finish (.each line name ws body) "done"
      | _, _, _ => fail (txt "Bad for loop variable")
    else if w = txt "case" then
      if (← next? inner) ≠ .word then unexpected (some .word)
      let subject := (← get).word
      expect .commandBelow
      mustBe inner "in"
      let cs ← cases inner list rounds
      withRedirects inner line (.choose line subject cs)
    else if w = txt "\x7b" then finish (← part list) "\x7d"
    else unexpected none
  | .openParen =>
    let body ← part list
    must inner .closeParen
    withRedirects inner line (.subshell line body [])
  | .word | .redirect =>
    tokenBack
    simpleFrom inner again (← get).line rounds ⟨[],[],[]⟩
  | _ => unexpected none

/-- The stages of a pipeline after the first one. -/
def stages (one : Read Tree) : Nat → Read (List Tree)
  | 0 => return []
  | fuel+1 => do
    if (← next? inner) = .pipe then
      expect .commandBelow
      let t ← one
      return t :: (← stages one fuel)
    else
      tokenBack
      return []

/-- A pipeline. -/
def pipeline (one : Read Tree) : Read Tree := do
  let negated := (← next? inner) = .reserved ['!']
  if negated then expect .command else tokenBack
  let first ← one
  let others ← stages inner one rounds
  let t := if others.isEmpty then first else .pipe false (first :: others)
  return if negated then .not t else t

/-- Pipelines that are joined to one before them. -/
def joined (one : Read Tree) : Nat → Tree → Read Tree
  | 0, t => return t
  | fuel+1, t => do
    match ← next? inner with
    | .and =>
      expect .commandBelow
      let u ← pipeline inner one
      joined one fuel (.both t u)
    | .or =>
      expect .commandBelow
      let u ← pipeline inner one
      joined one fuel (.either t u)
    | _ =>
      tokenBack
      return t

/-- A command that is not waited for. -/
def toBackground (line : Nat) : Tree → Tree
  | .pipe _ stages => .pipe true stages
  | .redirected l body rs => .background l body rs
  | t => .background line t []

/-- A list of commands after others. None at the end of the text when nothing was read. -/
def listFrom (one : Read Tree) (oneLine : Bool) : Nat → Bool → Option Tree → Read (Option Tree × Bool)
  | 0, _, t => return (t,false)
  | fuel+1, mayEnd, sofar => do
    expect { Expectation.command with newlines := !oneLine }
    match ← next? inner with
    | .newline =>
      documents inner
      return (sofar,false)
    | .ending =>
      documents inner
      tokenBack
      return (sofar,sofar.isNone && oneLine)
    | t =>
      tokenBack
      if mayEnd && t.endsList then return (sofar,false)
      else
        let u ← joined inner one rounds (← pipeline inner one)
        let after ← next? inner
        let line := (← get).line
        let u := if after = .ampersand then toBackground line u else u
        let sofar := match sofar with
          | none => u
          | some t => .sequence t u
        match after with
        | .newline | .ending =>
          tokenBack
          listFrom one oneLine fuel (mayEnd || !oneLine) (some sofar)
        | .ampersand | .semicolon => listFrom one oneLine fuel (mayEnd || !oneLine) (some sofar)
        | _ =>
          if oneLine then unexpected none
          tokenBack
          return (some sofar,false)

end

/-- Reads commands, which are nested at most `depth` deep: a list of some extent, or one command. -/
def nested : Nat → Option Extent → Read (Option Tree × Bool)
  | 0, _ => fail (txt "nested too deeply")
  | depth+1, extent => do
    let list := fun e => do return (← nested depth (some e)).1
    let inner := fun closed => do
      let t ← list .perhaps
      if closed then must (fun _ => return none) .closeParen
      return t
    let again := do return (← nested depth none).1.getD missing
    let one := command inner list again
    match extent with
    | some e => listFrom inner one (e = .line) rounds (e = .perhaps) none
    | none => return (some (← one),false)

/-- How deep commands may be nested. -/
def depthLimit : Nat := 1000000

/-- What reading a command yields. -/
inductive Parsed where
  /-- There is no command any more. -/
  | ended
  /-- A command, or an empty line; `last` when the text has ended with it. -/
  | command (t : Option Tree) (last : Bool)

/-- Reads the next command. -/
def nextCommand : Read Parsed := do
  modify (fun s => { s with again := false, expectation := .nothing, pending := [] })
  let (t,isOver) ← nested depthLimit (some .line)
  if isOver then return .ended
  else
    let s ← get
    return .command t (s.again && s.token = .ending)

/-- Reads the whole text as if it stood in double quotes. -/
def quotedText : Read Word := do
  let inner := fun closed => do
    let (t,_) ← nested depthLimit (some .perhaps)
    if closed then must (fun _ => return none) .closeParen
    return t
  let c ← nextChar
  let (_,w) ← pieces inner (some ⟨0,['\x00'],false,true⟩) rounds false c (Unfinished.start .double)
  return w.pieces.reverse

/-- A reader at the beginning of a text. -/
def reader (text : Raw) (ended : Bool) (line : Nat) (aliases : Bindings) (documents : Array Word) : Reader where
  pushed := []
  released := []
  rest := text
  ended := ended
  line := line
  aliases := aliases
  expectation := .nothing
  again := false
  token := .ending
  word := []
  quoted := false
  redirect := .copy 0 none
  pending := []
  documents := documents

end Read
end Script
end JobShell

import JobShell.System.Program.Options
import JobShell.System.Program.Output
import JobShell.System.Script.Pattern
import JobShell.System.Search.Reading

/-!
# What is searched for, and how

A search is for lines that some patterns match, or for all others. Patterns are
texts, or expressions in one of two forms; they come from arguments and files.
-/
namespace JobShell
namespace Search

/-- What patterns are. -/
inductive Matcher where
  | basic
  | extended
  | fixed
  deriving DecidableEq, Repr

/-- Which names of files are shown instead of lines. -/
inductive Listing where
  | no
  | withLines
  | withoutLines
  deriving DecidableEq, Repr

/-- What is done with files that hold zero bytes. -/
inductive BinaryUse where
  /-- It is only said that there is a line. -/
  | mention
  | text
  /-- They are taken for files without lines. -/
  | skip
  deriving DecidableEq, Repr

/-- What is done with directories. -/
inductive DirectoryUse where
  | read
  | skip
  /-- The files below them are searched. -/
  | descend
  deriving DecidableEq, Repr

/-- A pattern, with the file and the line that it comes from if it does not come from an argument. -/
structure Key where
  text : Raw
  source : Option (Raw × Nat)

/-- A rule about the files that are searched, or about the directories. -/
structure FileRule where
  directories : Bool
  includes : Bool
  pattern : Raw

namespace FileRule

/-- What follows the slashes in a name, and the name itself. -/
def tails (name : Raw) : List Raw :=
  name :: ((List.range name.length).filter (fun i => name[i]? = some '/')).map (fun i => name.drop (i + 1))

/-- Whether a rule is about a name. The end of a name that was given is enough. -/
def isAbout (given : Bool) (name : Raw) (x : FileRule) : Bool :=
  (if given then tails name else [name]).any (Script.Pattern.isMatch x.pattern)

/-- Whether a file is passed over. The last rule that is about it decides; when there is none, a first rule that
    includes files tells that others are not. -/
def excludes (given directory : Bool) (name : Raw) (l : List FileRule) : Bool :=
  let l := l.filter (·.directories == directory)
  match l.reverse.find? (isAbout given name) with
  | some x => !x.includes
  | none => l.head?.any (·.includes)

end FileRule

/-- A search. -/
structure Request where
  keys : List Key
  /-- Patterns were given, which may be none. -/
  hasKeys : Bool
  matcher : Option Matcher
  folds : Bool
  wholeWords : Bool
  wholeLines : Bool
  inverts : Bool
  /-- How many lines are looked for in a file. -/
  most : Option Nat
  /-- The number of lines that was asked for is below zero. -/
  belowZero : Bool
  counts : Bool
  listing : Listing
  quiet : Bool
  onlyMatches : Bool
  before : Option Nat
  after : Option Nat
  /-- How much context there is when nothing else was said, in digits. -/
  context : Option Raw
  separator : Option Raw
  numbers : Bool
  offsets : Bool
  tabs : Bool
  /-- Whether names of files are shown; when there are several files if nothing was said. -/
  names : Option Bool
  nullNames : Bool
  label : Option Raw
  lineEnd : Char
  binary : BinaryUse
  directories : DirectoryUse
  rules : List FileRule
  followsLinks : Bool
  noMessages : Bool
  colors : Bool

namespace Request

/-- A search of which nothing was said yet. -/
def start : Request where
  keys := []
  hasKeys := false
  matcher := none
  folds := false
  wholeWords := false
  wholeLines := false
  inverts := false
  most := none
  belowZero := false
  counts := false
  listing := .no
  quiet := false
  onlyMatches := false
  before := none
  after := none
  context := none
  separator := some ['-','-']
  numbers := false
  offsets := false
  tabs := false
  names := none
  nullNames := false
  label := none
  lineEnd := '\n'
  binary := .mention
  directories := .read
  rules := []
  followsLinks := false
  noMessages := false
  colors := false

/-- The options. Letters stand for names that have none. -/
def table : OptionTable where
  letters := OptionTable.flags "0123456789EFGPHILTUVZabchilLnoqRrsuvwxyz" ++ OptionTable.valued "ABCDXdefm"
  names := [.flag "basic-regexp" 'G',.flag "extended-regexp" 'E',.flag "fixed-regexp" 'F',.flag "fixed-strings" 'F',
    .flag "perl-regexp" 'P',.setting "after-context" 'A',.setting "before-context" 'B',.setting "binary-files" '@',
    .flag "binary" 'U',.flag "byte-offset" 'b',.setting "context" 'C',.choice "color" 'k',.choice "colour" 'k',
    .flag "count" 'c',.setting "devices" 'D',.setting "directories" 'd',.setting "exclude" 'O',
    .setting "exclude-from" 'N',.setting "exclude-dir" 'Q',.setting "file" 'f',.flag "files-with-matches" 'l',
    .flag "files-without-match" 'L',.setting "group-separator" '%',.flag "help" '?',.setting "include" 'M',
    .flag "ignore-case" 'i',.flag "no-ignore-case" '+',.flag "initial-tab" 'T',.setting "label" '=',
    .flag "line-buffered" '!',.flag "line-number" 'n',.flag "line-regexp" 'x',.setting "max-count" 'm',
    .flag "no-filename" 'h',.flag "no-group-separator" '_',.flag "no-messages" 's',.flag "null" 'Z',
    .flag "null-data" 'z',.flag "only-matching" 'o',.flag "quiet" 'q',.flag "recursive" 'r',
    .flag "dereference-recursive" 'R',.setting "regexp" 'e',.flag "invert-match" 'v',.flag "silent" 'q',
    .flag "text" 'a',.flag "unix-byte-offsets" 'u',.flag "version" 'V',.flag "with-filename" 'H',
    .flag "word-regexp" 'w']
  inOrder := false

/-- What a search ends with when something went wrong. -/
def trouble : Nat := 2

/-- Says how the program is called, and ends it. -/
def misuse {α : Type} : Routine α := do
  Routine.warn (txt "Usage: grep [OPTION]... PATTERNS [FILE]...\nTry \x27grep --help\x27 for more information.\n")
  Routine.leave trouble trouble

/-- Adds patterns, one in each line. A pattern that is there already is not added. -/
def addKeys (r : Request) (t : Raw) (file : Option Raw) : Request :=
  let lines := Text.splitOn '\n' t
  let numbered := (lines.zip (List.range lines.length)).map (fun (l,i) => Key.mk l (file.map (·,i + 1)))
  { r with hasKeys := true, keys := numbered.foldl (fun l k => if l.any (·.text == k.text) then l else l ++ [k]) r.keys }

/-- The number that a value is, if it is one, and whether it is below zero. -/
def integer? (v : Raw) : Option (Nat × Bool) :=
  let s := v.dropWhile (fun c => c = ' ' || ('\t' ≤ c && c ≤ '\r'))
  let negative := s.head? = some '-'
  (Numeral.readDigits (if negative || s.head? = some '+' then s.tail else s)).map (fun n => (n,negative && n > 0))

/-- How many lines of context a value asks for. -/
def contextOf (v : Raw) : Routine Nat := do
  match integer? v with
  | some (n,false) => return n
  | _ => Routine.fail trouble (v ++ txt ": invalid context length argument")

/-- All that can be read from a descriptor. -/
def readAll (fd : Nat) : Nat → Bytes → Routine (Except Errno Bytes)
  | 0, b => return .ok b
  | fuel+1, b => do
    match ← Routine.ask (.read fd 65536) with
    | .error e => return .error e
    | .ok [] => return .ok b
    | .ok more => readAll fd fuel (b ++ more)

/-- What a file holds. -/
def contentOf (file : Raw) : Routine Bytes := do
  let opened ← if file = ['-'] then pure (.ok 0) else Routine.ask (.openFile .read file)
  let content ← (match opened with
    | .error e => return .error e
    | .ok fd => readAll fd Action.rounds [] : Routine (Except Errno Bytes))
  match content with
  | .error e => Routine.fail trouble (file ++ txt ": " ++ e.message)
  | .ok b => return b

/-- The patterns of a file. -/
def keysOf (r : Request) (file : Raw) : Routine Request := do
  match ← contentOf file with
  | [] => return { r with hasKeys := true }
  | b =>
    let t := Raw.ofBytes b
    return r.addKeys (if t.getLast? = some '\n' then t.dropLast else t) (some file)

/-- Adds a rule. -/
def addRule (r : Request) (x : FileRule) : Request := { r with rules := r.rules ++ [x] }

/-- Adds the rules of a file, one in each line. -/
def rulesOf (r : Request) (file : Raw) : Routine Request := do
  let isBlank := fun (c : Char) => c = ' ' || ('\t' ≤ c && c ≤ '\r')
  let lines := (Text.splitOn '\n' (Raw.ofBytes (← contentOf file))).map (fun l => (l.reverse.dropWhile isBlank).reverse)
  return (lines.filter (!·.isEmpty)).foldl (fun r l => r.addRule ⟨false,false,l⟩) r

/-- Sets what patterns are, once. -/
def setMatcher (r : Request) (m : Matcher) : Routine Request := do
  if r.matcher.any (· != m) then Routine.fail trouble (txt "conflicting matchers specified")
  return { r with matcher := some m }

/-- What an option changes. -/
def change (r : Request) (letter : Char) (v : Raw) : Routine Request := do
  match letter with
  | 'E' | 'P' => r.setMatcher .extended
  | 'F' => r.setMatcher .fixed
  | 'G' => r.setMatcher .basic
  | 'X' =>
    match [("grep",Matcher.basic),("egrep",.extended),("fgrep",.fixed)].find? (fun m => txt m.1 == v) with
    | some (_,m) => r.setMatcher m
    | none => Routine.fail trouble (txt "invalid matcher " ++ v)
  | 'A' => return { r with after := some (← contextOf v) }
  | 'B' => return { r with before := some (← contextOf v) }
  | 'C' => return { r with context := some (Numeral.ofNat (← contextOf v)) }
  | 'D' =>
    if v = txt "read" || v = txt "skip" then return r
    else Routine.fail trouble (txt "unknown devices method")
  | 'd' =>
    match [("read",DirectoryUse.read),("recurse",.descend),("skip",.skip)].filter (fun u => v.isPrefixOf (txt u.1)) with
    | [(_,u)] => return { r with directories := u }
    | l =>
      Routine.complain ((if l.isEmpty then txt "invalid" else txt "ambiguous") ++ txt " argument \x27" ++ v ++
        txt "\x27 for \x27--directories\x27\nValid arguments are:\n  - \x27read\x27\n  - \x27recurse\x27\n  - \x27skip\x27")
      Routine.warn (txt "Usage: grep [OPTION]... PATTERNS [FILE]...\nTry \x27grep --help\x27 for more information.\n")
      Routine.leave trouble 1
  | 'H' => return { r with names := some true }
  | 'h' => return { r with names := some false }
  | 'I' => return { r with binary := .skip }
  | 'a' => return { r with binary := .text }
  | '@' =>
    match [("binary",BinaryUse.mention),("text",.text),("without-match",.skip)].find? (fun u => txt u.1 == v) with
    | some (_,u) => return { r with binary := u }
    | none => Routine.fail trouble (txt "unknown binary-files type")
  | 'L' => return { r with listing := .withoutLines }
  | 'l' => return { r with listing := .withLines }
  | 'T' => return { r with tabs := true }
  | 'Z' => return { r with nullNames := true }
  | 'z' => return { r with lineEnd := '\x00' }
  | 'b' => return { r with offsets := true }
  | 'c' => return { r with counts := true }
  | 'e' => return r.addKeys v none
  | 'f' => r.keysOf v
  | 'i' | 'y' => return { r with folds := true }
  | '+' => return { r with folds := false }
  | 'm' =>
    match integer? v with
    | some (n,negative) => return { r with most := if negative then none else some n, belowZero := negative }
    | none => Routine.fail trouble (txt "invalid max count")
  | 'n' => return { r with numbers := true }
  | 'o' => return { r with onlyMatches := true }
  | 'q' => return { r with quiet := true }
  | 'R' => return { r with directories := .descend, followsLinks := true }
  | 'r' => return { r with directories := .descend, followsLinks := false }
  | 's' => return { r with noMessages := true }
  | 'u' =>
    Routine.complain (txt "warning: --unix-byte-offsets (-u) is obsolete")
    return r
  | 'v' => return { r with inverts := true }
  | 'w' => return { r with wholeWords := true }
  | 'x' => return { r with wholeLines := true }
  | '%' => return { r with separator := some v }
  | '_' => return { r with separator := none }
  | '=' => return { r with label := some v }
  | 'O' | 'M' => return r.addRule ⟨false,letter = 'M',v⟩
  | 'Q' => return r.addRule ⟨true,false,if v.all (· = '/') then v else (v.reverse.dropWhile (· = '/')).reverse⟩
  | 'N' => r.rulesOf v
  | 'k' =>
    if ["always","yes","force"].any (txt · == v) then return { r with colors := true }
    else return { r with colors := false }
  | 'V' =>
    Routine.put (txt "grep (GNU grep) 3.11\n")
    Routine.leave trouble 0
  | c =>
    if c.isDigit then
      let digits := (r.context.getD []).dropWhile (· == '0')
      return { r with context := some (digits ++ [c]) }
    else return r

/-- What an argument asks for. A number of context lines goes on with a digit only if a digit was right before it in
    the argument. -/
def readOne (r : Request) : List Argument → Bool → Routine Request
  | [], _ => return r
  | .operand _ :: rest, _ => readOne r rest false
  | .wrong _ t :: _, _ => do
    Routine.complain t
    misuse
  | .option c v :: rest, afterDigit => do
    let r := if c.isDigit && !afterDigit then { r with context := none } else r
    let r ← r.change c (v.getD [])
    readOne r rest c.isDigit

/-- What arguments ask for. -/
def read (r : Request) : List (List Argument) → Routine Request
  | [] => return r
  | l :: rest => do
    let r ← r.readOne l false
    read r rest

/-- How many lines of context there are before a line and after it. -/
def contexts (r : Request) : Option Nat × Option Nat :=
  let standard := r.context.bind Numeral.readDigits
  (r.before.or standard,r.after.or standard)

end Request

/-- The expression of the patterns of a search. -/
def compile (r : Request) : Routine Expression := do
  if r.matcher = some .fixed then return Expression.anyOf (r.keys.map (fun k => Expression.literal k.text))
  else
    let form : Reading.Form := ⟨r.matcher = some .extended,r.folds⟩
    let results := r.keys.map (fun k => (k,Reading.read form k.text))
    let mut failed := false
    for (k,x) in results do
      if let .error e := x then
        failed := true
        let place := match k.source with
          | some (file,line) => file ++ ':' :: Numeral.ofNat line ++ txt ": "
          | none => []
        Routine.complain (place ++ txt e.message)
    if failed then Routine.leave (α := Unit) Request.trouble Request.trouble
    let good := results.filterMap (fun (_,x) => x.toOption)
    for (_,warnings,fault) in good do
      for w in warnings do Routine.complain (txt "warning: " ++ txt w)
      if let some m := fault then Routine.fail (α := Unit) Request.trouble (txt m)
    return Expression.anyOf (good.map fun (e,_) => if e.looksBack then e else e.withoutGroups)

end Search
end JobShell

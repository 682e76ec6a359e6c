import JobShell.System.Script.Builtin.Basic
import JobShell.System.Script.Fields
import JobShell.System.Script.Jobs

/-!
# Commands for variables and arguments

Variables are exported, protected, taken away, made a function's own, or filled
from a line of input. Arguments are replaced, shifted, or gone through for
options. Options of the script itself are set and shown.
-/
namespace JobShell
namespace Script
namespace Run

/-- The name and the value of an assignment; no value without an equals sign. -/
def nameAndValue (t : Raw) : Raw × Option Raw :=
  match Text.splitAt? '=' t with
  | some (name,value) => (name,some value)
  | none => (t,none)

/-- The commands `export` and `readonly`. -/
def declare (command : Raw) (exported readonly : Bool) (args : List Raw) : Run Nat := do
  let (given,args) ← options ['p'] [] args
  if given.isEmpty && !args.isEmpty then
    for a in args do
      let (name,value) := nameAndValue a
      mark name value
  else showVariables command (fun v => (exported && v.exported) || (readonly && v.readonly))
  return 0
where
  /-- Marks a variable, which may be given a value. One that is known already is only marked without a value. -/
  mark (name : Raw) (value : Option Raw) : Run Unit := do
    match value, ← lookUp? name with
    | none, some v =>
      let v := { v with exported := v.exported || exported, readonly := v.readonly || readonly }
      modify (fun s => { s with vars := putVariable name v s.vars })
    | _, _ => setVariable name value exported readonly

/-- Makes a variable the own one of what is run, and gives it a value. -/
def makeOwn (name : Raw) (value : Option Raw) (exported : Bool) : Run Unit := do
  let before ← lookUp? name
  if before.isNone || value.isSome then setVariable name value exported false
  remember (.variable name before)

/-- The command `local`. -/
def makeLocal (args : List Raw) : Run Nat := do
  if (← get).saved.isEmpty then fail (txt "not in a function")
  for a in args do
    if a = ['-'] then remember (.options (← get).options)
    else
      let (name,value) := nameAndValue a
      makeOwn name value false
  return 0

/-- What is known again after something was run. -/
def restore : Saved → Run Unit
  | .options letters => modify (fun s => { s with options := letters })
  | .variable name none => do
    modify (fun s => { s with vars := s.vars.filter (·.1 != name) })
    follow name
  | .variable name (some v) => do
    modify (fun s => { s with vars := putVariable name v s.vars })
    follow name

/-- Something begins that may have variables of its own. -/
def beginOwn : Run Unit := modify (fun s => { s with saved := [] :: s.saved })

/-- What has variables of its own is over, and all such things in it, until no more than some number are left. -/
def endOwn (depth : Nat) : Nat → Run Unit
  | 0 => return
  | fuel+1 => do
    match (← get).saved with
    | [] => return
    | l :: r =>
      if r.length < depth then return
      else
        modify (fun s => { s with saved := r })
        for v in l do restore v
        endOwn depth fuel

/-- The command `unset`. -/
def unset (args : List Raw) : Run Nat := do
  let (given,args) ← options ['v','f'] [] args
  let functions := (given.getLast?).any (·.1 == 'f')
  for a in args do
    if functions then modify (fun s => { s with functions := s.functions.filter (·.1 != a) })
    else
      unassign a
      if a = txt "OPTIND" then fail (txt "Illegal number: ")
  return 0

/-! ### Options -/

/-- The options of scripts: their names, and letters for most of them. -/
def optionNames : List (String × Option Char) :=
  [("errexit",some 'e'),("noglob",some 'f'),("ignoreeof",some 'I'),("interactive",some 'i'),("monitor",some 'm'),
    ("noexec",some 'n'),("stdin",some 's'),("xtrace",some 'x'),("verbose",some 'v'),("vi",some 'V'),
    ("emacs",some 'E'),("noclobber",some 'C'),("allexport",some 'a'),("notify",some 'b'),("nounset",some 'u'),
    ("privileged",some 'p'),("nolog",none),("debug",none)]

/-- Sets an option, or takes it back. -/
def setLetter (letter : Char) (on : Bool) : Run Unit :=
  modify fun s =>
    let others := s.options.filter (· != letter)
    let others := if on && letter = 'V' then others.filter (· != 'E')
      else if on && letter = 'E' then others.filter (· != 'V') else others
    { s with options := if on then letter :: others else others }

/-- Shows all options, as a table or as the commands that set them. -/
def showOptions (asTable : Bool) (isOn : Option Char → Bool) : Run Unit := do
  if asTable then put (txt "Current option settings\n")
  for (name,letter) in optionNames do
    put (if asTable then Text.padEnd 16 (txt name) ++ txt (if isOn letter then "on\n" else "off\n")
      else txt "set " ++ txt (if isOn letter then "-o " else "+o ") ++ txt name ++ ['\n'])

/-- Sets the option of a name. -/
def setName (name : Raw) (on : Bool) : Run Unit := do
  match optionNames.find? (txt ·.1 == name) with
  | some (_,some letter) => setLetter letter on
  | some (_,none) => return
  | none => fail (txt "Illegal option " ++ (if on then '-' else '+') :: txt "o " ++ name)

/-- Sets the options of a word. Those that are `o` take names from the arguments after it, which are left. -/
def setWord (on : Bool) : Raw → List Raw → Run (List Raw)
  | [], args => return args
  | c :: r, args => do
    if c = 'o' then
      match args with
      | name :: rest =>
        setName name on
        setWord on r rest
      | [] =>
        let letters := (← get).options
        showOptions on (fun letter => letter.any letters.contains)
        setWord on r []
    else if optionNames.any (·.2 == some c) then
      setLetter c on
      setWord on r args
    else fail (txt "Illegal option -" ++ [c])

/-- Sets the options that arguments begin with. The arguments after them are left, if they are to be replaced. -/
def setOptions : Nat → List Raw → Run (Option (List Raw))
  | 0, _ => return none
  | fuel+1, args => do
    match args with
    | ['-'] :: r =>
      setLetter 'x' false
      setLetter 'v' false
      return if r.isEmpty then none else some r
    | ['-','-'] :: r => return some r
    | ('-' :: word) :: r => setOptions fuel (← setWord true word r)
    | ('+' :: word) :: r => setOptions fuel (← setWord false word r)
    | [] => return none
    | args => return some args

/-- Takes back that jobs are kept apart when there is no terminal that they could have for themselves. -/
def checkMonitor : Run Unit := do
  if (← option 'm') && (← get).isRoot then
    let reachable ← [0,1,2].anyM isTerminal
    if !reachable then
      warn (txt "can\x27t access tty; job control turned off")
      setLetter 'm' false

/-- The command `set`. -/
def set (args : List Raw) : Run Nat := do
  if args.isEmpty then showVariables [] (·.value.isSome)
  else
    let words ← setOptions (args.length + 1) args
    checkMonitor
    if let some words := words then modify (fun s => { s with arguments := Arguments.new words })
  return 0

/-! ### Arguments -/

/-- The command `shift`. -/
def shift (args : List Raw) : Run Nat := do
  let n ← (match args with
    | a :: _ => number a
    | [] => return 1 : Run Nat)
  let words := (← get).arguments.words
  if n > words.length then fail (txt "can\x27t shift that many")
  modify (fun s => { s with arguments := Arguments.new (words.drop n) })
  return 0

/-- The command `getopts`: the next option among arguments. -/
def getopts (args : List Raw) : Run Nat := do
  match ← operands args with
  | letters :: variable_ :: given =>
    let own := (← get).arguments
    let words := if given.isEmpty then own.words else given
    let (index,offset) := if own.index > words.length + 1 then (1,none) else (own.index,own.offset)
    -- what is left of the argument before the next one
    let before := (offset.bind fun n => if index ≤ 1 then none else (words[index-2]?).map (·.drop n)).getD []
    let (current,index) := match before, words[index-1]? with
      | c :: r, _ => (some (c :: r),index)
      | [], some ['-','-'] => (none,index + 1)
      | [], some ('-' :: c :: r) => (some (c :: r),index + 1)
      | [], _ => (none,index)
    let finish := fun (index : Nat) (offset : Option Nat) (c : Char) => do
      setVariable (txt "OPTIND") (some (Numeral.ofNat index)) false false
      assign variable_ [c]
      modify fun s => { s with arguments := { s.arguments with index := index, offset := offset } }
    let quiet := letters.head? = some ':'
    let report := fun (what : String) (c : Char) => do
      if quiet then assign (txt "OPTARG") [c]
      else
        say 2 (txt what ++ c :: (if what = "No arg for -" then txt " option\n" else ['\n']))
        unassign (txt "OPTARG")
    match current with
    | none =>
      finish index none '?'
      return 1
    | some [] => return 1
    | some (c :: r) =>
      let offset := ((words[index-2]?).getD []).length - r.length
      match takes? c letters with
      | none =>
        report "Illegal option -" c
        finish index (some offset) '?'
      | some false =>
        assign (txt "OPTARG") []
        finish index (some offset) c
      | some true =>
        match r, words[index-1]? with
        | [], none =>
          report "No arg for -" c
          finish index (some offset) (if quiet then ':' else '?')
        | [], some v =>
          assign (txt "OPTARG") v
          finish (index + 1) none c
        | r, _ =>
          assign (txt "OPTARG") r
          finish index none c
      return 0
  | _ => fail (txt "Usage: getopts optstring var [arg...]")
where
  /-- Whether an option takes a value; none when it is no option. -/
  takes? (c : Char) : Raw → Option Bool
    | [] => none
    | d :: r => if c = d then some (r.head? = some ':') else takes? c (if r.head? = some ':' then r.tail else r)
  termination_by l => l.length
  decreasing_by split <;> simp only [List.length_tail,List.length_cons] <;> omega

/-! ### Input -/

/-- What a line stands for that is read up to its end, and whether it has one. After a backslash a character stands
    for itself, and a line feed for nothing. -/
def readLine (raw : Bool) : Nat → Bool → List Glyph → Run (List Glyph × Bool)
  | 0, _, l => return (l,false)
  | fuel+1, escaped, l => do
    match ← ask (.read 0 1) with
    | .ok [x] =>
      let c := Char.ofNat x.toNat
      if c = '\x00' then readLine raw fuel escaped l
      else if escaped then
        let l := .opens false :: (if c = '\n' then [] else [.char c true]) ++ .closes :: l
        readLine raw fuel false l
      else if c = '\\' && !raw then readLine raw fuel true l
      else if c = '\n' then return (l,true)
      else readLine raw fuel false (.char c false :: l)
    | .ok _ => return (l,false)
    | .error e =>
      if e = Errno.interrupted then
        let arrived ← takeCaught
        if arrived.isEmpty then readLine raw fuel escaped l else return (l,false)
      else return (l,false)

/-- Gives variables the fields of a line. Those for which there are none become empty. -/
def fillVariables : List Raw → List (List Glyph) → Run Unit
  | [], _ => return
  | name :: r, fields => do
    assign name (Glyph.text (fields.head?.getD []))
    fillVariables r fields.tail

/-- The command `read`. -/
def read (args : List Raw) : Run Nat := do
  let (given,names) ← options ['r'] ['p'] args
  if names.isEmpty then fail (txt "arg count")
  let (l,ended) ← readLine (given.any (·.1 == 'r')) rounds false [.opens false]
  let fields := splitFields ((← separators?).getD standardSeparators) (some names.length) (.closes :: l).reverse
  fillVariables names fields
  return if ended then 0 else 1

end Run
end Script
end JobShell

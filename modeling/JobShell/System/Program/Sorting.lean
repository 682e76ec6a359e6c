import JobShell.System.Program.Options
import JobShell.System.Program.Output
import JobShell.System.Program.Quantity
import JobShell.System.Program.Quoting
import JobShell.System.Program.SortKey

/-!
# Sorting

`sort` writes the lines of its operands in order, merges operands that are in
order, or tells whether one is.
-/
namespace JobShell
namespace Sorting

/-- What is done with the operands. -/
inductive Duty where
  | sort
  | merge
  /-- Whether the operand is in order; the letter tells whether it is said where it is not. -/
  | check (letter : Char)
  deriving DecidableEq

/-- How the program was called. -/
structure Request where
  keys : List SortKey
  /-- The order of keys that have none of their own, and of whole lines. -/
  order : KeyOrder
  separator : Option Char
  stable : Bool
  unique : Bool
  terminator : Char
  duty : Duty
  output : Option Raw
  files : List Raw

/-! ### Options -/

/-- A number of a field or a character, and the text after it. -/
def readCount (complaint : String) (t : Raw) : Except Raw (Nat × Raw) :=
  let s := t.dropWhile (fun c => c = ' ' || ('\t' ≤ c && c ≤ '\r'))
  let s := match s with
    | '+' :: r => r
    | r => r
  let digits := s.takeWhile Char.isDigit
  match Numeral.readDigits digits with
  | some n => .ok (n,s.drop digits.length)
  | none => .error (txt complaint ++ txt ": invalid count at start of " ++ Quoting.plain t)

/-- What is said of a key that is written wrong. -/
def badField (complaint : String) (t : Raw) : Raw :=
  txt complaint ++ txt ": invalid field specification " ++ Quoting.plain t

/-- The key that a value of an option describes. -/
def readKey (t : Raw) : Except Raw SortKey := do
  let (field,s) ← readCount "invalid number at field start" t
  if field = 0 then throw (badField "field number is zero" t)
  let (char,s) ← match s with
    | '.' :: r => do
      let (n,s) ← readCount "invalid number after \x27.\x27" r
      if n = 0 then throw (badField "character offset is zero" t)
      pure (n - 1,s)
    | s => pure (0,s)
  let start := if field = 1 && char = 0 then none else some (field - 1,char)
  let (order,s) := KeyOrder.plain.withLetters .start s
  match s with
  | ',' :: r =>
    let (field,s) ← readCount "invalid number after \x27,\x27" r
    if field = 0 then throw (badField "field number is zero" t)
    let (char,s) ← match s with
      | '.' :: r => readCount "invalid number after \x27.\x27" r
      | s => pure (0,s)
    let (order,s) := order.withLetters .stop s
    if !s.isEmpty then throw (badField "stray character in field spec" t)
    return ⟨start,some (field - 1,char),order⟩
  | [] => return ⟨start,none,order⟩
  | _ => throw (badField "stray character in field spec" t)

/-- The key that an operand after a plus sign describes: fields are counted from zero there, and the end may
    follow after a mark. -/
def readOldKey (t : Raw) : Except Raw (Option SortKey) := do
  let first := t.takeWhile (· ≠ '\x00')
  match readCount "" first with
  | .error _ => return none
  | .ok (field,s) =>
    let (char,s) := match s with
      | '.' :: r => ((readCount "" r).toOption).getD (0,['?'])
      | s => (0,s)
    let start := if field = 0 && char = 0 then none else some (field,char)
    let (order,s) := KeyOrder.plain.withLetters .start s
    if !s.isEmpty then return none
    match t.drop first.length with
    | _ :: stop =>
      let (field,s) ← readCount "invalid number after \x27-\x27" stop
      let (char,s) ← match s with
        | '.' :: r => readCount "invalid number after \x27.\x27" r
        | s => pure (0,s)
      let (order,s) := order.withLetters .stop s
      if !s.isEmpty then throw (badField "stray character in field spec" ('-' :: stop))
      return some ⟨start,some (if char = 0 then field - 1 else field,char),order⟩
    | [] => return some ⟨start,none,order⟩

/-- The arguments with the two parts of a key after a plus sign joined by a mark. -/
def joinOldKeys : List Raw → List Raw
  | ['-','-'] :: r => ['-','-'] :: r
  | ('+' :: a) :: ('-' :: c :: b) :: r =>
    if c.isDigit then ('+' :: a ++ '\x00' :: c :: b) :: joinOldKeys r
    else ('+' :: a) :: joinOldKeys (('-' :: c :: b) :: r)
  | a :: r => a :: joinOldKeys r
  | [] => []

/-- The options of `sort`. -/
def table : OptionTable where
  letters := OptionTable.flags "bcCdfghimMnrRsuVz" ++ OptionTable.valued "koStTy"
  names := [.flag "ignore-leading-blanks" 'b',.choice "check" '1',.setting "compress-program" '2',.flag "debug" '3',
    .flag "dictionary-order" 'd',.flag "ignore-case" 'f',.setting "files0-from" '4',.flag "general-numeric-sort" 'g',
    .flag "ignore-nonprinting" 'i',.setting "key" 'k',.flag "merge" 'm',.flag "month-sort" 'M',
    .flag "numeric-sort" 'n',.flag "human-numeric-sort" 'h',.flag "version-sort" 'V',.flag "random-sort" 'R',
    .setting "random-source" '2',.setting "sort" '5',.setting "output" 'o',.flag "reverse" 'r',.flag "stable" 's',
    .setting "batch-size" '2',.setting "buffer-size" 'S',.setting "field-separator" 't',
    .setting "temporary-directory" 'T',.flag "unique" 'u',.flag "zero-terminated" 'z',.setting "parallel" '2',
    .flag "help" '?',.flag "version" '?']
  inOrder := false

/-- Complains about a value that is none of a few words, and shows those. -/
def refuseChoice {α : Type} (option : String) (v : Raw) (lines : List String) : Routine α := do
  Routine.complain (txt "invalid argument " ++ Quoting.plain v ++ txt (" for \x27--" ++ option ++ "\x27"))
  Routine.warn (txt "Valid arguments are:\n" ++ lines.flatMap (fun l => txt ("  - " ++ l ++ "\n")))
  Routine.misuse 2 []

/-- The word that a value is the beginning of, if it is clear which. -/
def pick? (words : List (String × Char)) (v : Raw) : Option Char :=
  match words.find? (fun w => txt w.1 = v) with
  | some w => some w.2
  | none =>
    match (words.filter (fun w => v.isPrefixOf (txt w.1))).map Prod.snd with
    | [] => none
    | c :: r => if r.all (· = c) then some c else none

/-- The words for ways to compare. -/
def orderWords : List (String × Char) :=
  [("general-numeric",'g'),("human-numeric",'h'),("month",'M'),("numeric",'n'),("random",'R'),("version",'V')]

/-- The request with another letter for whether an operand is in order. -/
def checking (r : Request) (letter : Char) : Routine Request := do
  match r.duty with
  | .check other => if other ≠ letter then Routine.fail 2 (txt "options \x27-cC\x27 are incompatible") else return r
  | _ => return { r with duty := .check letter }

/-- What the arguments ask for. -/
def request : List Argument → Request → Routine Request
  | [], r => return r
  | .wrong _ t :: _, _ => Routine.misuse 2 t
  | .operand f :: rest, r => do
    match f with
    | '+' :: key =>
      match readOldKey key with
      | .error t => Routine.fail 2 t
      | .ok (some k) => request rest { r with keys := r.keys ++ [k] }
      | .ok none => request rest { r with files := r.files ++ [f] }
    | f => request rest { r with files := r.files ++ [f] }
  | .option l value :: rest, r => do
    let v := value.getD []
    match KeyOrder.withLetter .both r.order l with
    | some o => request rest { r with order := o }
    | none =>
      if l = 'k' then
        match readKey v with
        | .ok k => request rest { r with keys := r.keys ++ [k] }
        | .error t => Routine.fail 2 t
      else if l = 't' then
        let c ← match v with
          | [] => Routine.fail 2 (txt "empty tab")
          | [c] => pure c
          | ['\\','0'] => pure '\x00'
          | v => Routine.fail 2 (txt "multi-character tab " ++ Quoting.plain v)
        if r.separator.any (· ≠ c) then Routine.fail (α := Unit) 2 (txt "incompatible tabs")
        request rest { r with separator := some c }
      else if l = 'o' then
        if r.output.any (· ≠ v) then Routine.fail (α := Unit) 2 (txt "multiple output files specified")
        request rest { r with output := some v }
      else if l = 'c' || l = 'C' then request rest (← checking r l)
      else if l = '1' then
        match value with
        | none => request rest (← checking r 'c')
        | some v =>
          match pick? [("quiet",'C'),("silent",'C'),("diagnose-first",'c')] v with
          | some c => request rest (← checking r c)
          | none => refuseChoice "check" v ["\x27quiet\x27, \x27silent\x27","\x27diagnose-first\x27"]
      else if l = '5' then
        match (pick? orderWords v).bind (KeyOrder.withLetter .both r.order) with
        | some o => request rest { r with order := o }
        | none => refuseChoice "sort" v (orderWords.map fun w => "\x27" ++ w.1 ++ "\x27")
      else if l = 'm' then
        request rest { r with duty := match r.duty with
          | .check c => .check c
          | _ => .merge }
      else if l = 's' then request rest { r with stable := true }
      else if l = 'u' then request rest { r with unique := true }
      else if l = 'z' then request rest { r with terminator := '\x00' }
      else request rest r

/-- The request with its keys as they are used: those without an order have that of lines, which is a key of its
    own when there are none. -/
def Request.settled (r : Request) : Request :=
  let keys := r.keys.map fun k => if k.order = KeyOrder.plain then { k with order := r.order } else k
  { r with keys := if keys.isEmpty && !r.order.isPlain then [⟨none,none,r.order⟩] else keys }

/-! ### Lines -/

/-- A line with what is compared of it. -/
abbrev Entry := Raw × List Raw

/-- A line with what is compared of it. -/
def Request.entry (r : Request) (line : Raw) : Entry := (line,r.keys.map (·.extract r.separator line))

/-- The order of what is compared of two lines by several keys. -/
def compareKeys : List SortKey → List Raw → List Raw → Ordering
  | k :: ks, x :: xs, y :: ys => (SortKey.compare k.order x y).then (compareKeys ks xs ys)
  | _, _, _ => .eq

/-- The order of two lines. -/
def Request.compare (r : Request) (a b : Entry) : Ordering :=
  let verdict := compareKeys r.keys a.2 b.2
  if verdict ≠ .eq || (!r.keys.isEmpty && (r.unique || r.stable)) then verdict
  else
    let whole := SortKey.compareBytes a.1 b.1
    if r.order.reverse then whole.swap else whole

/-- Whether a line may stand before another one. -/
def Request.atMost (r : Request) (a b : Entry) : Bool := r.compare a b ≠ .gt

/-- Lines without those equal to the one before. -/
def Request.dropRepeats (r : Request) : List Entry → List Entry → List Entry
  | [], out => out.reverse
  | a :: rest, [] => r.dropRepeats rest [a]
  | a :: rest, b :: out =>
    r.dropRepeats rest (if r.compare b a = .eq then b :: out else a :: b :: out)

/-- Lists of lines merged: the least of the first lines comes first, and of equal ones that of the first list. -/
def Request.mergeTwo (r : Request) : Nat → List Entry → List Entry → List Entry → List Entry
  | 0, _, _, out => out.reverse
  | _+1, [], b, out => out.reverse ++ b
  | _+1, a, [], out => out.reverse ++ a
  | fuel+1, x :: a, y :: b, out =>
    if r.atMost x y then r.mergeTwo fuel a (y :: b) (x :: out) else r.mergeTwo fuel (x :: a) b (y :: out)

/-- The number of the first line that is out of order, and the line. -/
def Request.disorder? (r : Request) : Nat → List Entry → Option (Nat × Raw)
  | n, a :: b :: rest =>
    let verdict := r.compare a b
    if verdict = .gt || (r.unique && verdict = .eq) then some (n+1,b.1) else r.disorder? (n+1) (b :: rest)
  | _, _ => none

/-- The lines of bytes; the last one may lack its end. -/
def linesOf (terminator : Char) (s : Raw) : List Raw :=
  let parts := Text.splitOn terminator s
  if parts.getLast? = some [] then parts.dropLast else parts

/-! ### The program -/

/-- How much is read at once. -/
def readSize : Nat := 65536

/-- All that a descriptor yields. -/
def readAll (name : Raw) (fd : Nat) : Nat → List Bytes → Routine Bytes
  | 0, seen => return seen.reverse.flatten
  | fuel+1, seen => do
    match ← Routine.ask (.read fd readSize) with
    | .error e => Routine.fail 2 (txt "read failed: " ++ Quoting.ifNeeded name ++ txt ": " ++ e.message)
    | .ok [] => return seen.reverse.flatten
    | .ok b => readAll name fd fuel (b :: seen)

/-- The lines of an operand. -/
def Request.load (r : Request) (name : Raw) : Routine (List Entry) := do
  let refuse := fun (what : String) (e : Errno) =>
    Routine.fail (α := Nat) 2 (txt what ++ txt ": " ++ Quoting.ifNeeded name ++ txt ": " ++ e.message)
  let fd ← (if name = ['-'] then do
      if let .error e ← Routine.ask (.statusOf 0) then let _ ← refuse "stat failed" e
      return 0
    else do
      match ← Routine.ask (.openFile .read name) with
      | .ok fd => return fd
      | .error e => refuse "open failed" e : Routine Nat)
  let b ← readAll name fd Action.rounds []
  if name ≠ ['-'] then let _ ← Routine.ask (.close fd)
  return (linesOf r.terminator (Raw.ofBytes b)).map r.entry

/-- The lines of operands, each by itself. -/
def Request.loadAll (r : Request) : List Raw → Routine (List (List Entry))
  | [] => return []
  | f :: rest => do
    let lines ← r.load f
    return lines :: (← r.loadAll rest)

/-- Refuses operands that cannot be read. -/
def checkInputs : List Raw → Routine Unit
  | [] => return
  | f :: rest => do
    if f ≠ ['-'] then
      if let .error e ← Routine.ask (.look true f) then
        Routine.fail (α := Unit) 2 (txt "cannot read: " ++ Quoting.ifNeeded f ++ txt ": " ++ e.message)
    checkInputs rest

/-- Writes lines to where they are to go. -/
def Request.write (r : Request) (lines : List Entry) : Routine Unit := do
  let shown := Quoting.ifNeeded (r.output.getD (txt "standard output"))
  if let some f := r.output then
    match ← Routine.ask (.openFile .write f) with
    | .ok fd =>
      let _ ← Routine.ask (.bind fd 1)
      let _ ← Routine.ask (.close fd)
    | .error e => Routine.fail (α := Unit) 2 (txt "open failed: " ++ shown ++ txt ": " ++ e.message)
  let refuse := fun (what : String) (e : Errno) => do
    -- what could not be written is not tried again
    modify fun p => { p with waiting := [] }
    Routine.fail (α := Unit) 2 (txt what ++ txt ": " ++ shown ++ txt ": " ++ e.message)
  if let some e ← Routine.putBytes (Raw.toBytes (lines.flatMap (fun l => l.1 ++ [r.terminator]))) then
    refuse "write failed" e
  if let some e ← Routine.flush then refuse "fflush failed" e

/-- The program `sort`. -/
def sort (args : List Raw) : Routine Nat := do
  let r ← request (table.read (joinOldKeys args)) ⟨[],.plain,none,false,false,'\n',.sort,none,[]⟩
  let r := r.settled
  if let some letters := r.keys.findSome? (·.order.clash?) then
    Routine.fail (α := Unit) 2 (txt "options \x27-" ++ letters ++ txt "\x27 are incompatible")
  let files := if r.files.isEmpty then [['-']] else r.files
  match r.duty with
  | .check letter =>
    if let some f := files[1]? then
      Routine.fail (α := Unit) 2 (txt "extra operand " ++ Quoting.always f ++ txt " not allowed with -" ++ [letter])
    if r.output.isSome then
      Routine.fail (α := Unit) 2 (txt "options \x27-" ++ letter :: txt "o\x27 are incompatible")
    let name := files.head?.getD []
    if name ≠ ['-'] then checkInputs [name]
    match r.disorder? 1 (← r.load name) with
    | none => return 0
    | some (n,line) =>
      if letter = 'c' then
        Routine.warn ((← Routine.name) ++ txt ": " ++ name ++ ':' :: Numeral.ofNat n ++ txt ": disorder: " ++ line ++ [r.terminator])
      return 1
  | duty =>
    checkInputs files
    if let some f := r.output then
      match ← Routine.ask (.openFile .update f) with
      | .ok fd => let _ ← Routine.ask (.close fd)
      | .error e => Routine.fail (α := Unit) 2 (txt "open failed: " ++ Quoting.ifNeeded f ++ txt ": " ++ e.message)
    let lists ← r.loadAll files
    let lines := if duty = .merge then
        lists.foldl (fun acc l => r.mergeTwo (acc.length + l.length + 1) acc l []) []
      else lists.flatten.mergeSort r.atMost
    r.write (if r.unique then r.dropRepeats lines [] else lines)
    return 0

end Sorting
end JobShell

import JobShell.System.Program.Options
import JobShell.System.Program.Output
import JobShell.System.Program.Quoting

/-!
# Runs of equal lines

`uniq` writes a line of every run of equal lines in its input, or those lines
that are repeated, or all of them with the runs set apart.
-/
namespace JobShell
namespace Runs

/-- Where line ends set runs apart. -/
inductive Setting where
  | before
  | after
  | between
  | around
  deriving DecidableEq

/-- What is written of a run. -/
structure Rule where
  count : Bool
  /-- Lines that are not repeated are written. -/
  single : Bool
  /-- The first line of a run of several is written. -/
  first : Bool
  /-- The other lines of such a run are written. -/
  others : Bool
  /-- How runs of several lines are set apart when all of their lines are written. -/
  apart : Option Setting
  /-- How all runs are set apart when all lines are written. -/
  groups : Option Setting
  fold : Bool
  skipFields : Nat
  skipCharacters : Nat
  compared : Option Nat
  terminator : Char

namespace Rule

/-- What is compared of a line. -/
def key (r : Rule) (line : Raw) : Raw :=
  let isBlank := fun (c : Char) => c = ' ' || c = '\t' || c = '\n'
  let rec fields : Nat → Raw → Raw
    | 0, s => s
    | _+1, [] => []
    | n+1, s => fields n ((s.dropWhile isBlank).dropWhile (fun c => !isBlank c))
  let s := (fields r.skipFields line).drop r.skipCharacters
  let s := match r.compared with
    | some n => s.take n
    | none => s
  if r.fold then s.map Char.toUpper else s

/-- A line as it is written, given how many lines of its run there were before it. -/
def render (r : Rule) (line : Raw) (before : Nat) : Raw :=
  (if r.count then Text.padStart 7 (Numeral.ofNat (before + 1)) ++ [' '] else []) ++ line ++ [r.terminator]

/-- What is written of the last line of a run so far, whether the next one is equal, and how many were equal before. -/
def verdict (r : Rule) (line : Raw) (equal : Bool) (before : Nat) : Raw :=
  let wanted := if before = 0 then r.single else if equal then r.others else r.first
  if wanted then r.render line before else []

end Rule

/-- What is remembered of the lines before. -/
structure Memory where
  /-- The last line that counts, and what is compared of it. -/
  last : Option (Raw × Raw)
  /-- How many lines were equal to it. -/
  equal : Nat
  /-- A run was completed. -/
  begun : Bool

/-- What is written when a line comes, and what is remembered after it. -/
def step (r : Rule) (m : Memory) (line : Raw) : Raw × Memory :=
  let key := r.key line
  let separator := [r.terminator]
  if r.single && r.first && !r.count then
    let fresh := m.last.all (fun l => l.2 ≠ key)
    let apart := fresh && match r.groups with
      | some .before | some .around => true
      | some .after | some .between => m.begun
      | none => false
    if fresh || r.groups.isSome then
      ((if apart then separator else []) ++ line ++ [r.terminator],⟨some (line,key),0,true⟩)
    else ([],m)
  else match m.last with
    | none => ([],{ m with last := some (line,key) })
    | some (last,lastKey) =>
      let same := key = lastKey
      let equal := if same then m.equal + 1 else m.equal
      let begun := m.begun || (r.apart.isSome && !same && equal > 0)
      let apart := same && equal = 1 && match r.apart with
        | some .before => true
        | some .between => begun
        | _ => false
      if !same || r.others then
        ((if apart then separator else []) ++ r.verdict last same equal,
          ⟨some (line,key),if same then equal else 0,begun⟩)
      else (if apart then separator else [],{ m with equal := equal, begun := begun })

/-- What is written after the last line. -/
def close (r : Rule) (m : Memory) : Raw :=
  if r.single && r.first && !r.count then
    match r.groups with
    | some .after | some .around => if m.begun then [r.terminator] else []
    | _ => []
  else match m.last with
    | some (line,_) => r.verdict line false m.equal
    | none => []

/-- What is written for lines, and what is remembered after them. -/
def steps (r : Rule) (m : Memory) (lines : List Raw) : Raw × Memory :=
  let (out,m) := lines.foldl (fun (acc : List Raw × Memory) line =>
    let (out,m) := step r acc.2 line
    (out :: acc.1,m)) ([],m)
  (out.reverse.flatten,m)

/-! ### The program -/

/-- The options of `uniq`. -/
def table : OptionTable where
  letters := OptionTable.flags "0123456789Dcdiuz" ++ OptionTable.valued "fsw"
  names := [.flag "count" 'c',.flag "repeated" 'd',.choice "all-repeated" 'D',.choice "group" 'g',
    .flag "ignore-case" 'i',.flag "unique" 'u',.setting "skip-fields" 'f',.setting "skip-chars" 's',
    .setting "check-chars" 'w',.flag "zero-terminated" 'z',.flag "help" '?',.flag "version" '?']
  inOrder := false

/-- What the arguments ask for. -/
structure Request where
  rule : Rule
  /-- An option says what is written. -/
  chosen : Bool
  /-- The number of fields was given by an option of its own. -/
  fieldsNamed : Bool
  files : List Raw

/-- A number that a value is, or a complaint about it. -/
def number (what v : Raw) : Routine Nat := do
  match Numeral.readDigits (if v.head? = some '+' then v.tail else v) with
  | some n => return n
  | none => Routine.fail 1 (v ++ txt ": " ++ what)

/-- The setting that a value of an option names. -/
def setting (option : String) (words : List (String × Option Setting)) (v : Raw) : Routine (Option Setting) := do
  let fits := (words.filter (fun w => txt w.1 = v)) ++ words.filter (fun w => v.isPrefixOf (txt w.1))
  match fits with
  | w :: rest =>
    if txt w.1 = v || rest.isEmpty then return w.2
    Routine.complain (txt "ambiguous argument " ++ Quoting.plain v ++ txt (" for \x27" ++ option ++ "\x27"))
  | [] => Routine.complain (txt "invalid argument " ++ Quoting.plain v ++ txt (" for \x27" ++ option ++ "\x27"))
  Routine.warn (txt "Valid arguments are:\n" ++ words.flatMap (fun w => txt ("  - \x27" ++ w.1 ++ "\x27\n")))
  Routine.misuse 1 []

/-- What the arguments ask for. -/
def request : List Argument → Request → Routine Request
  | [], r => return r
  | .wrong _ t :: _, _ => Routine.misuse 1 t
  | .operand f :: rest, r => do
    match f, Numeral.readDigits f.tail with
    | '+' :: _, some n => request rest { r with rule.skipCharacters := n }
    | f, _ =>
      if r.files.length = 2 then Routine.misuse 1 (txt "extra operand " ++ Quoting.plain f)
      request rest { r with files := r.files ++ [f] }
  | .option l value :: rest, r => do
    let v := value.getD []
    if l.isDigit then
      request rest { r with
        rule.skipFields := (if r.fieldsNamed then 0 else r.rule.skipFields) * 10 + Numeral.digit l, fieldsNamed := false }
    else if l = 'c' then request rest { r with rule.count := true, chosen := true }
    else if l = 'd' then request rest { r with rule.single := false, chosen := true }
    else if l = 'u' then request rest { r with rule.first := false, chosen := true }
    else if l = 'D' then
      let apart ← match value with
        | none => pure none
        | some v => setting "--all-repeated" [("none",none),("prepend",some .before),("separate",some .between)] v
      request rest { r with rule.single := false, rule.others := true, rule.apart := apart, chosen := true }
    else if l = 'g' then
      let groups ← match value with
        | none => pure (some .between)
        | some v => setting "--group" [("prepend",some .before),("append",some .after),("separate",some .between),
            ("both",some .around)] v
      request rest { r with rule.groups := groups }
    else if l = 'f' then
      let n ← number (txt "invalid number of fields to skip") v
      request rest { r with rule.skipFields := n, fieldsNamed := true }
    else if l = 's' then
      let n ← number (txt "invalid number of bytes to skip") v
      request rest { r with rule.skipCharacters := n }
    else if l = 'w' then
      let n ← number (txt "invalid number of bytes to compare") v
      request rest { r with rule.compared := some n }
    else if l = 'i' then request rest { r with rule.fold := true }
    else if l = 'z' then request rest { r with rule.terminator := '\x00' }
    else request rest r

/-- How much is read at once. -/
def readSize : Nat := 4096

/-- Passes the input through. -/
def pass (r : Rule) (name : Raw) : Nat → Raw → Memory → Routine Unit
  | 0, _, _ => return
  | fuel+1, begun, m => do
    match ← Routine.ask (.read 0 readSize) with
    | .error e => Routine.fail 1 (txt "error reading " ++ Quoting.always name ++ txt ": " ++ e.message)
    | .ok [] =>
      let (out,m) := if begun.isEmpty then ([],m) else step r m begun
      Routine.put (out ++ close r m)
    | .ok b =>
      let parts := Text.splitOn r.terminator (begun ++ Raw.ofBytes b)
      let (out,m) := steps r m parts.dropLast
      Routine.put out
      pass r name fuel (parts.getLast?.getD []) m

/-- Puts a file in the place of a descriptor. -/
def redirect (fd : Nat) (access : Access) (name : Raw) : Routine Unit := do
  if name ≠ ['-'] then
    let _ ← Routine.ask (.close fd)
    match ← Routine.ask (.openFile access name) with
    | .ok opened =>
      if opened ≠ fd then
        let _ ← Routine.ask (.bind opened fd)
        let _ ← Routine.ask (.close opened)
    | .error e => Routine.fail (α := Unit) 1 (Quoting.ifNeeded name ++ txt ": " ++ e.message)

/-- The program `uniq`. -/
def uniq (args : List Raw) : Routine Nat := do
  let plain : Rule := ⟨false,true,true,false,none,none,false,0,0,none,'\n'⟩
  let r ← request (table.read args) ⟨plain,false,false,[]⟩
  if r.rule.groups.isSome && r.chosen then
    Routine.misuse (α := Unit) 1 (txt "--group is mutually exclusive with -c/-d/-D/-u")
  if r.rule.count && r.rule.others then
    Routine.misuse (α := Unit) 1 (txt "printing all duplicated lines and repeat counts is meaningless")
  let input := r.files.head?.getD ['-']
  redirect 0 .read input
  redirect 1 .write ((r.files[1]?).getD ['-'])
  pass r.rule input Action.rounds [] ⟨none,0,false⟩
  return 0

end Runs
end JobShell

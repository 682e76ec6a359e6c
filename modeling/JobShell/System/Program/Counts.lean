import JobShell.System.Program.CharacterClass
import JobShell.System.Program.Options
import JobShell.System.Program.Output
import JobShell.System.Program.Quoting

/-!
# Counts

`wc` counts lines, words and bytes of its operands, and the columns of their
longest lines.
-/
namespace JobShell

/-- The numbers of lines, words and bytes, and the length of the longest line. -/
structure Counts where
  lines : Nat
  words : Nat
  bytes : Nat
  longest : Nat
  deriving Repr

namespace Counts

/-- Nothing counted. -/
def zero : Counts := ⟨0,0,0,0⟩

/-- Two counts together. -/
def add (a b : Counts) : Counts := ⟨a.lines + b.lines,a.words + b.words,a.bytes + b.bytes,max a.longest b.longest⟩

/-- What is known in the midst of counting: the counts so far, the column, and whether a word goes on. -/
structure Progress where
  counts : Counts
  column : Nat
  inWord : Bool

/-- Counts another byte. Only printable characters make words and columns. -/
def Progress.step (p : Progress) (b : UInt8) : Progress :=
  let n := { p.counts with bytes := p.counts.bytes + 1 }
  if b = 10 || b = 13 || b = 12 then
    ⟨{ n with lines := if b = 10 then n.lines + 1 else n.lines, longest := max n.longest p.column },0,false⟩
  else if b = 9 then ⟨n,p.column + 8 - p.column % 8,false⟩
  else if b = 32 then ⟨n,p.column + 1,false⟩
  else if b = 11 then ⟨n,p.column,false⟩
  else if 32 < b && b < 127 then ⟨{ n with words := if p.inWord then n.words else n.words + 1 },p.column + 1,true⟩
  else ⟨n,p.column,p.inWord⟩

/-- The counts at the end. -/
def Progress.finish (p : Progress) : Counts := { p.counts with longest := max p.counts.longest p.column }

/-- When a line of totals is written. -/
inductive Totals where
  | whenSeveral
  | always
  | only
  | never
  deriving DecidableEq

/-- Which counts are written, and how wide. -/
structure Columns where
  lines : Bool
  words : Bool
  characters : Bool
  bytes : Bool
  longest : Bool
  width : Nat

/-- The counts that are written. -/
def Columns.chosen (c : Columns) (n : Counts) : List Nat :=
  let pick := fun (b : Bool) (k : Nat) => if b then [k] else []
  pick c.lines n.lines ++ pick c.words n.words ++ pick c.characters n.bytes ++ pick c.bytes n.bytes ++
    pick c.longest n.longest

/-- A line of counts, with a name unless there is none. It is written at once. -/
def Columns.put (c : Columns) (n : Counts) (name : Option Raw) : Routine Unit := do
  let shown := Text.join [' '] ((c.chosen n).map fun k => Text.padStart c.width (Numeral.ofNat k))
  Routine.put (shown ++ (match name with
    | some f => ' ' :: if f.contains '\n' then Quoting.ifNeeded f else f
    | none => []) ++ ['\n'])
  let _ ← Routine.flush

/-- The options of `wc`. -/
def table : OptionTable where
  letters := OptionTable.flags "clLmw"
  names := [.flag "bytes" 'c',.flag "chars" 'm',.flag "lines" 'l',.flag "words" 'w',.flag "debug" 'd',
    .setting "files0-from" 'F',.setting "total" 'T',.flag "max-line-length" 'L',.flag "help" '?',.flag "version" '?']
  inOrder := false

/-- When totals are written, as the last option says. -/
def totals : List Argument → Totals → Routine Totals
  | [], t => return t
  | .option 'T' (some v) :: rest, _ => do
    let words := [("auto",Totals.whenSeveral),("always",.always),("only",.only),("never",.never)]
    match words.filter (fun w => txt w.1 = v), words.filter (fun w => v.isPrefixOf (txt w.1)) with
    | w :: _, _ | [], [w] => totals rest w.2
    | [], fits =>
      Routine.complain (txt (if fits.isEmpty then "invalid" else "ambiguous") ++ txt " argument " ++ Quoting.plain v ++
        txt " for \x27--total\x27")
      Routine.warn (txt "Valid arguments are:\n" ++ words.flatMap (fun w => txt ("  - \x27" ++ w.1 ++ "\x27\n")))
      Routine.misuse 1 []
  | _ :: rest, t => totals rest t

/-- How much is read at once. -/
def readSize : Nat := 16384

/-- Counts what a descriptor yields; whether all of it could be read. -/
def countAll (shown : Raw) (fd : Nat) : Nat → Progress → Routine (Counts × Bool)
  | 0, p => return (p.finish,true)
  | fuel+1, p => do
    match ← Routine.ask (.read fd readSize) with
    | .error e =>
      Routine.complainOf shown e
      return (p.finish,false)
    | .ok [] => return (p.finish,true)
    | .ok b => countAll shown fd fuel (b.foldl Progress.step p)

/-- Counts an operand, the standard input when there is none; none if it cannot be opened. -/
def countOperand (name : Option Raw) : Routine (Option Counts × Bool) := do
  let start : Progress := ⟨zero,0,false⟩
  match name with
  | none | some ['-'] =>
    let shown := Quoting.ifNeeded (name.getD (txt "standard input"))
    let (n,good) ← countAll shown 0 Action.rounds start
    return (some n,good)
  | some [] =>
    Routine.complain (txt "invalid zero-length file name")
    return (none,false)
  | some f =>
    match ← Routine.ask (.openFile .read f) with
    | .error e =>
      Routine.complainOf (Quoting.ifNeeded f) e
      return (none,false)
    | .ok fd =>
      let (n,good) ← countAll (Quoting.ifNeeded f) fd Action.rounds start
      let _ ← Routine.ask (.close fd)
      return (some n,good)

/-- Counts operands one after the other and writes each count; the sum, and whether all could be read. -/
def countOperands (c : Columns) (silent : Bool) : List (Option Raw) → Counts → Bool → Routine (Counts × Bool)
  | [], sum, good => return (sum,good)
  | name :: rest, sum, good => do
    match ← countOperand name with
    | (some n,fine) =>
      if !silent then c.put n name
      countOperands c silent rest (sum.add n) (good && fine)
    | (none,_) => countOperands c silent rest sum false

/-- The status of operands as far as it can be told. -/
def statusOf : List (Option Raw) → Routine (List FileStatus)
  | [] => return []
  | name :: rest => do
    let status ← (match name with
      | none | some ['-'] => do return (← Routine.ask (.statusOf 0)).map OpenStatus.file
      | some f => Routine.ask (.look true f) : Routine (Except Errno FileStatus))
    let more ← statusOf rest
    match status with
    | .ok s => return s :: more
    | .error _ => return more

/-- The program `wc`. -/
def wc (args : List Raw) : Routine Nat := do
  let args := table.read args
  if let some t := Argument.complaint? args then Routine.misuse (α := Unit) 1 t
  let has := fun l => Argument.has l args
  let mode ← totals args .whenSeveral
  let none_ := !(has 'l' || has 'w' || has 'm' || has 'c' || has 'L')
  let c : Columns := ⟨none_ || has 'l',none_ || has 'w',has 'm',none_ || has 'c',has 'L',1⟩
  let names := match Argument.operands args with
    | [] => [none]
    | l => l.map some
  let wide ← (if mode = .only || (names.length = 1 && (c.chosen zero).length = 1) then pure 1
    else do
      -- a column is as wide as the sum of the sizes, and wider when a size is not known before
      let all ← statusOf names
      let sum := (all.filter (·.type = .regular)).foldl (fun n s => n + s.size) 0
      let width := (Numeral.ofNat sum).length
      return if all.any (·.type ≠ .regular) then max width 7 else width : Routine Nat)
  let c := { c with width := wide }
  let (sum,good) ← countOperands c (mode = .only) names zero true
  if mode = .always || mode = .only || (mode = .whenSeveral && names.length > 1) then
    c.put sum (if mode = .only then none else some (txt "total"))
  if names.any (fun n => n.all (· = ['-'])) then
    if let .error e ← Routine.ask (.close 0) then Routine.fail (α := Unit) 1 (txt "-: " ++ e.message)
  return if good then 0 else 1

end Counts
end JobShell

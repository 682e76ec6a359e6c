import JobShell.System.Program.Options
import JobShell.System.Program.Output
import JobShell.System.Program.Quoting

/-!
# Copying

`cat` copies its operands to its output, as they are or with marks at lines and
characters. Lines are counted on from one operand to the next.
-/
namespace JobShell

/-- Which marks are made. -/
structure MarkRule where
  number : Bool
  /-- Only lines that are not empty are numbered. -/
  filledOnly : Bool
  ends : Bool
  tabs : Bool
  /-- Control characters and bytes beyond ASCII. -/
  controls : Bool
  /-- Of several empty lines in a row only one is copied. -/
  squeeze : Bool

/-- What is remembered between bytes. -/
structure MarkState where
  /-- The number of the last line. -/
  line : Nat
  /-- How many empty lines there were right before, and one more at the beginning of a line; none within a line. -/
  gap : Option Nat
  /-- A carriage return was not copied yet. -/
  carriage : Bool

namespace MarkRule

/-- Whether bytes are copied as they are. -/
def isPlain (r : MarkRule) : Bool := !(r.number || r.ends || r.tabs || r.controls || r.squeeze)

/-- A byte with its marks. -/
def mark (r : MarkRule) (c : Char) : Raw :=
  let n := c.toNat
  let control := fun (n : Nat) => if n < 32 then ['^',Char.ofNat (n + 64)] else if n = 127 then ['^','?'] else [Char.ofNat n]
  if c = '\t' then (if r.tabs then ['^','I'] else ['\t'])
  else if !r.controls then [c]
  else if n < 128 then control n
  else 'M' :: '-' :: control (n - 128)

/-- What is copied for a byte, and what is remembered after it. -/
def step (r : MarkRule) (s : MarkState) (c : Char) : Raw × MarkState :=
  let numeral := fun n => Text.padStart 6 (Numeral.ofNat n) ++ ['\t']
  if c = '\n' then
    let gap := (s.gap.map (· + 1)).getD 0
    if gap ≥ 2 && r.squeeze then ([],{ s with gap := some 2 })
    else
      let numbered := gap > 0 && r.number && !r.filledOnly
      let line := if numbered then s.line + 1 else s.line
      ((if numbered then numeral line else []) ++
        (if r.ends then (if s.carriage then ['^','M','$'] else ['$']) else []) ++ ['\n'],⟨line,some (min gap 2),false⟩)
  else
    let numbered := s.gap.isSome && r.number
    let line := if numbered then s.line + 1 else s.line
    let front := (if s.carriage then ['\x0d'] else []) ++ if numbered then numeral line else []
    if c = '\x0d' && r.ends && !r.controls then (front,⟨line,none,true⟩)
    else (front ++ r.mark c,⟨line,none,false⟩)

/-- What is copied for bytes, and what is remembered after them. -/
def steps (r : MarkRule) (s : MarkState) (b : Raw) : Raw × MarkState :=
  let (out,s) := b.foldl (fun (acc : List Raw × MarkState) c =>
    let (out,s) := r.step acc.2 c
    (out :: acc.1,s)) ([],s)
  (out.reverse.flatten,s)

end MarkRule

namespace Copying

/-- How much is read at once. -/
def readSize : Nat := 131072

/-- The options of `cat`. -/
def table : OptionTable where
  letters := OptionTable.flags "benstuvAET"
  names := [.flag "number-nonblank" 'b',.flag "number" 'n',.flag "squeeze-blank" 's',.flag "show-nonprinting" 'v',
    .flag "show-ends" 'E',.flag "show-tabs" 'T',.flag "show-all" 'A',.flag "help" '?',.flag "version" '?']
  inOrder := false

/-- Writes at once. -/
def writeAll (b : Bytes) : Routine Unit := do
  match ← Routine.write b with
  | none => return
  | some e => Routine.failWriting 1 (txt "write error") e

/-- Copies an open operand; whether all of it could be read. -/
def copy (r : MarkRule) (name : Raw) (fd : Nat) : Nat → MarkState → Routine (Bool × MarkState)
  | 0, s => return (true,s)
  | fuel+1, s => do
    match ← Routine.ask (.read fd readSize) with
    | .error e =>
      Routine.complainOf (Quoting.ifNeeded name) e
      return (false,s)
    | .ok [] => return (true,s)
    | .ok b =>
      if r.isPlain then
        writeAll b
        copy r name fd fuel s
      else
        let (out,s) := r.steps s (Raw.ofBytes b)
        writeAll (Raw.toBytes out)
        copy r name fd fuel s

/-- Whether what is read from a file is what is written to it. Both are as they are when the file is to be read. -/
def feedsItself (input output : OpenStatus) : Bool :=
  input.file.identity == output.file.identity &&
    match input.position, if output.append then some output.file.size else output.position with
    | some i, some o => i < o
    | _, _ => false

/-- Copies an operand; whether all of it could be read. -/
def copyOperand (r : MarkRule) (s : MarkState) (name : Raw) : Routine (Bool × MarkState) := do
  let opened ← if name = ['-'] then pure (.ok 0) else Routine.ask (.openFile .read name)
  match opened with
  | .error e =>
    Routine.complainOf (Quoting.ifNeeded name) e
    return (false,s)
  | .ok fd =>
    let result ← (do
      match ← Routine.ask (.statusOf fd), ← Routine.ask (.statusOf 1) with
      | .error e, _ | _, .error e =>
        Routine.complainOf (Quoting.ifNeeded name) e
        return (false,s)
      | .ok input, .ok output =>
        if feedsItself input output then
          Routine.complain (Quoting.ifNeeded name ++ txt ": input file is output file")
          return (false,s)
        else copy r name fd Action.rounds s : Routine (Bool × MarkState))
    if name ≠ ['-'] then let _ ← Routine.ask (.close fd)
    return result

/-- Copies operands one after the other; whether all could be read. -/
def copyAll (r : MarkRule) : List Raw → MarkState → Routine (Bool × MarkState)
  | [], s => return (true,s)
  | name :: rest, s => do
    let (good,s) ← copyOperand r s name
    let (better,s) ← copyAll r rest s
    return (good && better,s)

/-- The program `cat`. -/
def cat (args : List Raw) : Routine Nat := do
  let args := table.read args
  if let some t := Argument.complaint? args then Routine.misuse (α := Unit) 1 t
  let has := fun l => Argument.has l args
  let r : MarkRule := {
    number := has 'n' || has 'b', filledOnly := has 'b', ends := has 'E' || has 'e' || has 'A',
    tabs := has 'T' || has 't' || has 'A', controls := has 'v' || has 'e' || has 't' || has 'A', squeeze := has 's' }
  let names := match Argument.operands args with
    | [] => [['-']]
    | l => l
  match ← Routine.ask (.statusOf 1) with
  | .error e => Routine.fail 1 (txt "standard output: " ++ e.message)
  | .ok _ =>
    let (good,s) ← copyAll r names ⟨0,some 0,false⟩
    if s.carriage then writeAll [13]
    if names.contains ['-'] then
      if let .error e ← Routine.ask (.close 0) then
        Routine.fail (α := Unit) 1 (txt "closing standard input: " ++ e.message)
    return if good then 0 else 1

end Copying
end JobShell

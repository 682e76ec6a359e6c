import JobShell.System.Program.Options
import JobShell.System.Program.Output
import JobShell.System.Program.Quantity
import JobShell.System.Program.Quoting

/-!
# Beginnings and ends

`head` writes the beginnings of its operands, or all but their ends; `tail`
writes their ends, or all but their beginnings. A beginning is read no further
than it goes, as far as what is read has positions.
-/
namespace JobShell
namespace Ends

/-- What of each operand is written: so many lines or bytes, from an end or up to it. -/
structure Portion where
  lines : Bool
  count : Nat
  /-- For `head`, all but the end; for `tail`, all but the beginning. -/
  others : Bool
  /-- What ends a line. -/
  terminator : UInt8

/-- Whether titles are written: always, never, or when there are several operands. -/
inductive Titles where
  | always
  | never
  | several
  deriving DecidableEq

/-- How the program was called. -/
structure Request where
  portion : Portion
  titles : Titles
  /-- The program goes on with what is added to the operands. -/
  follow : Bool

/-- Bytes up to the `n`th line end, how many line ends are missing, and the bytes after it. -/
def splitLines (terminator : UInt8) : Nat → Bytes → Bytes × Nat × Bytes
  | 0, b => ([],0,b)
  | n+1, b =>
    let line := b.takeWhile (· != terminator)
    match b.drop line.length with
    | [] => (b,n+1,[])
    | _ :: r =>
      let (more,left,rest) := splitLines terminator n r
      (line ++ terminator :: more,left,rest)

/-- The lines of bytes with their ends; the last one may have none. -/
def linesOf (terminator : UInt8) (b : Bytes) : List Bytes :=
  let (done,last) := b.foldr (fun c (acc : List Bytes × Option Bytes) =>
    if c = terminator then (acc.2.toList ++ acc.1,some [c])
    else (acc.1,some (c :: acc.2.getD []))) ([],none)
  last.toList ++ done

/-- The beginning of bytes without a number of lines or bytes at its end. -/
def withoutEnd (p : Portion) (b : Bytes) : Bytes :=
  if p.lines then
    let lines := linesOf p.terminator b
    (lines.take (lines.length - p.count)).flatten
  else b.take (b.length - p.count)

/-- The end of bytes. -/
def endOf (p : Portion) (b : Bytes) : Bytes :=
  if p.lines then
    let lines := linesOf p.terminator b
    (lines.drop (lines.length - p.count)).flatten
  else b.drop (b.length - p.count)

/-- What is left after a beginning. -/
def afterBeginning (p : Portion) (b : Bytes) : Bytes :=
  if p.lines then (splitLines p.terminator (p.count - 1) b).2.2 else b.drop (p.count - 1)

/-- Prints bytes, and ends the program if they cannot be written. -/
def put (b : Bytes) : Routine Unit := do
  match ← Routine.putBytes b with
  | none => return
  | some e => Routine.failWriting 1 (txt "error writing \x27standard output\x27") e

/-- What an operand is called. -/
def shownName (name : Raw) : Raw := if name = ['-'] then txt "standard input" else name

/-- Complains that an operand cannot be read. -/
def refuseReading (name : Raw) (e : Errno) : Routine Bool := do
  Routine.complain (txt "error reading " ++ Quoting.always (shownName name) ++ txt ": " ++ e.message)
  return false

/-- Moves back from where an operand was read up to, if it has positions. -/
def goBack (fd back : Nat) : Routine Unit := do
  if let .ok s ← Routine.ask (.statusOf fd) then
    if let some position := s.position then
      let _ ← Routine.ask (.seek fd (position - back))

/-- How much is read at once. -/
def readSize : Nat := 8192

/-- Writes the first lines or bytes of an operand; whether it could be read. -/
def putBeginning (p : Portion) (name : Raw) (fd : Nat) : Nat → Nat → Routine Bool
  | 0, _ => return true
  | fuel+1, left => do
    if left = 0 then return true
    match ← Routine.ask (.read fd (if p.lines then readSize else min left readSize)) with
    | .error e => refuseReading name e
    | .ok [] => return true
    | .ok b =>
      if p.lines then
        let (out,left,rest) := splitLines p.terminator left b
        if left = 0 then goBack fd rest.length
        put out
        putBeginning p name fd fuel left
      else
        put b
        putBeginning p name fd fuel (left - b.length)

/-- All that an operand holds, or why it cannot be read. -/
def readAll (fd : Nat) : Nat → List Bytes → Routine (Except Errno Bytes)
  | 0, seen => return .ok seen.reverse.flatten
  | fuel+1, seen => do
    match ← Routine.ask (.read fd readSize) with
    | .error e => return .error e
    | .ok [] => return .ok seen.reverse.flatten
    | .ok b => readAll fd fuel (b :: seen)

/-- Writes a title. -/
def putTitle (first : Bool) (name : Raw) : Routine Unit :=
  Routine.put ((if first then [] else ['\n']) ++ txt "==> " ++ shownName name ++ txt " <==\n")

/-- Opens an operand. -/
def openOperand (name : Raw) : Routine (Option Nat) := do
  if name = ['-'] then return some 0
  match ← Routine.ask (.openFile .read name) with
  | .ok fd => return some fd
  | .error e =>
    Routine.complain (txt "cannot open " ++ Quoting.always name ++ txt " for reading: " ++ e.message)
    return none

/-- Passes over operands with an action on each that can be opened, given whether it is the first such; whether
    all of them could be read. -/
def eachOperand (titled : Bool) (act : Raw → Nat → Routine Bool) : List Raw → Bool → Routine Bool
  | [], _ => return true
  | name :: rest, first => do
    match ← openOperand name with
    | none =>
      let _ ← eachOperand titled act rest first
      return false
    | some fd =>
      if titled then putTitle first name
      let good ← act name fd
      if name ≠ ['-'] then let _ ← Routine.ask (.close fd)
      let better ← eachOperand titled act rest false
      return good && better

/-- Whether titles are written for so many operands. -/
def Request.titled (r : Request) (count : Nat) : Bool :=
  r.titles = .always || (r.titles = .several && count > 1)

/-- Closes the standard input if it was read. -/
def closeInput (names : List Raw) : Routine Unit := do
  if names.contains ['-'] then
    if let .error e ← Routine.ask (.close 0) then Routine.fail (α := Unit) 1 (txt "-: " ++ e.message)

/-- The quantity that a value of an option is. -/
def quantity (lines : Bool) (v : Raw) : Routine Nat := do
  match Quantity.read Quantity.units v with
  | .ok n => return n
  | .error e =>
    Routine.fail 1 (txt "invalid number of " ++ (if lines then txt "lines" else txt "bytes") ++ txt ": " ++
      Quoting.plain v ++ e.detail)

/-- The names of options that both programs have. -/
def names : List OptionName :=
  [.setting "bytes" 'c',.setting "lines" 'n',.flag "quiet" 'q',.flag "silent" 'q',.flag "verbose" 'v',
    .flag "zero-terminated" 'z',.flag "help" '?',.flag "version" '?']

/-! ### Beginnings -/

/-- The options of `head`. -/
def headTable : OptionTable where
  letters := OptionTable.valued "cn" ++ OptionTable.flags "qvz0123456789"
  names := names
  inOrder := false

/-- Letters after a number that is an option of `head` by itself, with the unit that they amount to. -/
def headLetters (r : Request) (unit : Raw) : Raw → Routine (Request × Raw)
  | [] => return (r,unit)
  | c :: rest => do
    if c = 'c' then headLetters { r with portion.lines := false } [] rest
    else if c = 'b' || c = 'k' || c = 'm' then headLetters { r with portion.lines := false } [c] rest
    else if c = 'l' then headLetters { r with portion.lines := true } unit rest
    else if c = 'q' then headLetters { r with titles := .never } unit rest
    else if c = 'v' then headLetters { r with titles := .always } unit rest
    else if c = 'z' then headLetters { r with portion.terminator := 0 } unit rest
    else Routine.misuse 1 (txt "invalid trailing option -- " ++ [c])

/-- What `head` is asked by its options. -/
def headRequest : List Argument → Request → Routine Request
  | [], r => return r
  | .option l value :: rest, r => do
    if l = 'c' || l = 'n' then
      let v := value.getD []
      let (others,v) := match v with
        | '-' :: v => (true,v)
        | v => (false,v)
      let n ← quantity (l = 'n') v
      headRequest rest { r with portion.lines := l = 'n', portion.count := n, portion.others := others }
    else if l = 'q' then headRequest rest { r with titles := .never }
    else if l = 'v' then headRequest rest { r with titles := .always }
    else if l = 'z' then headRequest rest { r with portion.terminator := 0 }
    else Routine.misuse 1 (if l.isDigit then txt "invalid trailing option -- " ++ [l] else [])
  | .wrong _ t :: _, _ => Routine.misuse 1 t
  | .operand _ :: rest, r => headRequest rest r

/-- The program `head`. -/
def head (args : List Raw) : Routine Nat := do
  let plain : Request := ⟨⟨true,10,false,10⟩,.several,false⟩
  let (r,args) ← (match args with
    | ('-' :: c :: number) :: rest =>
      if c.isDigit then do
        let digits := (c :: number).takeWhile Char.isDigit
        let (r,unit) ← headLetters plain [] ((c :: number).drop digits.length)
        return ({ r with portion.count := ← quantity r.portion.lines (digits ++ unit) },rest)
      else return (plain,args)
    | _ => return (plain,args) : Routine (Request × List Raw))
  let args := headTable.read args
  let r ← headRequest args r
  let files := match Argument.operands args with
    | [] => [['-']]
    | l => l
  let good ← eachOperand (r.titled files.length) (fun name fd => do
    if r.portion.others then
      match ← readAll fd Action.rounds [] with
      | .error e => refuseReading name e
      | .ok b =>
        let out := withoutEnd r.portion b
        goBack fd (b.length - out.length)
        put out
        return true
    else putBeginning r.portion name fd Action.rounds r.portion.count) files true
  closeInput files
  return if good then 0 else 1

/-! ### Ends -/

/-- The options of `tail`. -/
def tailTable : OptionTable where
  letters := OptionTable.valued "cns" ++ OptionTable.flags "fFqvz0123456789"
  names := names ++ [.choice "follow" 'f',.flag "retry" 'r',.setting "pid" 'p',.setting "sleep-interval" 's',
    .setting "max-unchanged-stats" 'u']
  inOrder := false

/-- What the first argument of `tail` asks by itself: a sign, a number, and letters. -/
def shortRequest? (args : List Raw) : Option Request :=
  let second := (args[1]?).getD []
  let fits := args.length = 1 || (args.length = 2 && (second.length < 2 || second.head? ≠ some '-')) ||
    (2 ≤ args.length && args.length ≤ 3 && second = ['-','-'])
  match args with
  | (sign :: body) :: _ =>
    let digits := body.takeWhile Char.isDigit
    let letters := body.drop digits.length
    let (scale,lines,letters) := match letters with
      | 'b' :: r => (512,false,r)
      | 'c' :: r => (1,false,r)
      | 'l' :: r => (1,true,r)
      | r => (1,true,r)
    let bare := match body with
      | ['c'] => true
      | b => b.isEmpty
    if fits && (sign = '+' || (sign = '-' && !bare)) && (letters.isEmpty || letters = ['f']) then
      some ⟨⟨lines,((Numeral.readDigits digits).getD 10) * scale,sign = '+',10⟩,.several,letters = ['f']⟩
    else none
  | _ => none

/-- What `tail` is asked by its options. -/
def tailRequest : List Argument → Request → Routine Request
  | [], r => return r
  | .option l value :: rest, r => do
    if l = 'c' || l = 'n' then
      let v := value.getD []
      let n ← quantity (l = 'n') (if v.head? = some '-' then v.tail else v)
      tailRequest rest { r with
        portion.lines := l = 'n', portion.count := n, portion.others := r.portion.others || v.head? = some '+' }
    else if l = 'f' || l = 'F' then tailRequest rest { r with follow := true }
    else if l = 'q' then tailRequest rest { r with titles := .never }
    else if l = 'v' then tailRequest rest { r with titles := .always }
    else if l = 'z' then tailRequest rest { r with portion.terminator := 0 }
    else if l.isDigit then Routine.fail 1 (txt "option used in invalid context -- " ++ [l])
    else tailRequest rest r
  | .wrong _ t :: _, _ => Routine.misuse 1 t
  | .operand _ :: rest, r => tailRequest rest r

/-- Writes what is added to an operand from time to time. -/
def watch (fd : Nat) : Nat → Routine Unit
  | 0 => return
  | fuel+1 => do
    let _ ← Routine.flush
    Routine.ask (.pause 1000000)
    if let .ok b ← readAll fd Action.rounds [] then put b
    watch fd fuel

/-- The program `tail`. -/
def tail (args : List Raw) : Routine Nat := do
  let plain : Request := ⟨⟨true,10,false,10⟩,.several,false⟩
  let (r,args) := match shortRequest? args with
    | some r => (r,args.tail)
    | none => (plain,args)
  let args := tailTable.read args
  let r ← tailRequest args r
  let files := match Argument.operands args with
    | [] => [['-']]
    | l => l
  if r.portion.count = 0 && !r.portion.others && !r.follow then return 0
  let good ← eachOperand (r.titled files.length) (fun name fd => do
    match ← readAll fd Action.rounds [] with
    | .error e => refuseReading name e
    | .ok b =>
      put (if r.portion.others then afterBeginning r.portion b else endOf r.portion b)
      if r.follow && files.length = 1 then watch fd Action.rounds
      return true) files true
  closeInput files
  return if good then 0 else 1

end Ends
end JobShell

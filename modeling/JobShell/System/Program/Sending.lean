import JobShell.System.Program.Options
import JobShell.System.Program.Output
import JobShell.System.Signal

/-!
# Sending signals

`kill` sends a signal to processes, or shows the names of signals.
-/
namespace JobShell
namespace Sending

/-- A whole number with a sign at the beginning of a text, after blanks, and the text after it. -/
def leadingInt? (t : Raw) : Option (Int × Raw) :=
  let s := t.dropWhile (fun c => c = ' ' || ('\t' ≤ c && c ≤ '\r'))
  let (negative,s) := match s with
    | '-' :: r => (true,r)
    | '+' :: r => (false,r)
    | r => (false,r)
  let digits := s.takeWhile Char.isDigit
  (Numeral.readDigits digits).map fun n => (if negative then -(n : Int) else n,s.drop digits.length)

/-- The signal of a name or a number. -/
def signalOf? (t : Raw) : Option Nat :=
  let name := t.map Char.toUpper
  let name := if (txt "SIG").isPrefixOf name then name.drop 3 else name
  let known := [("CLD",Signal.child),("IO",29),("IOT",6),("RTMIN",Signal.firstFree),("EXIT",0),("NULL",0)]
  match (known.find? (fun p => txt p.1 == name)).map Prod.snd with
  | some n => some n
  | none =>
    match Signal.ofName? name with
    | some n => some n
    | none =>
      let (start,number) := if (txt "RTMIN+").isPrefixOf name then (Signal.firstFree,name.drop 6) else (0,name)
      match leadingInt? number with
      | some (.ofNat n,[]) => if n ≤ 127 - Signal.firstFree then some (n + start) else none
      | _ => none

/-- The first option that is a signal, and the arguments without it. -/
def takeSignal : List Raw → Option Nat × List Raw
  | [] => (none,[])
  | a :: r =>
    let found := match a with
      | '-' :: t => signalOf? t
      | _ => none
    match found with
    | some n => (some n,r)
    | none => let more := takeSignal r; (more.1,a :: more.2)

/-- How the program is called. -/
def usage : Raw := Text.join ['\n'] ([
  "", "Usage:", " kill [options] <pid> [...]", "", "Options:",
  " <pid> [...]            send signal to every <pid> listed",
  " -<signal>, -s, --signal <signal>",
  "                        specify the <signal> to be sent",
  " -q, --queue <value>    integer value to be sent with the signal",
  " -l, --list=[<signal>]  list all signal names, or convert one to a name",
  " -L, --table            list all signal names in a nice table", "",
  " -h, --help     display this help and exit",
  " -V, --version  output version information and exit", "",
  "For more details see kill(1).", ""].map txt)

/-- Names of signals, sixteen in a line. -/
def listing : Raw :=
  let names := Signal.meanings.map (fun s => txt s.2.1)
  Text.join [' '] (names.take 16) ++ '\n' :: Text.join [' '] (names.drop 16) ++ ['\n']

/-- Numbers and names of signals, seven in a line. -/
def table : Raw :=
  (Signal.meanings.flatMap fun s =>
    Text.padStart 2 (Numeral.ofNat s.1) ++ ' ' :: Text.padEnd 8 (txt s.2.1) ++ (if s.1 % 7 = 0 then ['\n'] else [])) ++
  ['\n']

/-- The number of a process. No more of it counts than a process can be numbered by. -/
def target (what t : Raw) : Routine Pid := do
  match leadingInt? t with
  | some (n,[]) =>
    if -9223372036854775808 ≤ n && n ≤ 9223372036854775807 then return Int.bmod n 4294967296
    else Routine.fail 1 (what ++ txt ": \x27" ++ t ++ txt "\x27: Numerical result out of range")
  | _ => Routine.fail 1 (what ++ txt ": \x27" ++ t ++ txt "\x27")

/-- Sends a signal to processes, one after the other; whether all of them were there. -/
def sendAll (signo : Int) : List Raw → Routine Bool
  | [] => return true
  | t :: r => do
    let pid ← target (txt "failed to parse argument") t
    let failure ← Routine.ask (.signal pid signo)
    if let some e := failure then Routine.complain (txt "(" ++ Numeral.ofInt pid ++ txt "): " ++ e.message)
    let better ← sendAll signo r
    return failure.isNone && better

/-- The options of `kill`. -/
def optionTable : OptionTable where
  letters := [('l',.perhaps),('L',.never),('s',.always),('h',.never),('V',.never),('q',.always)]
  names := [.choice "list" 'l',.flag "table" 'L',.setting "signal" 's',.flag "help" 'h',.flag "version" 'V',
    .setting "queue" 'q']
  inOrder := false

/-- Says how the program is called, and ends it. -/
def misuse {α : Type} : Routine α := do
  Routine.warn usage
  Routine.leave 1 1

/-- Goes through the arguments; the signal to send. -/
def choose (signo : Int) : List Argument → Routine Int
  | [] => return signo
  | .operand _ :: r => choose signo r
  | .wrong letter _ :: _ => do
    let c := letter.getD '\x00'
    if c.isDigit then
      let _ ← Routine.ask (.signal (-(Numeral.digit c : Int)) signo)
      Routine.leave 1 1
    else
      Routine.complain (txt "invalid argument " ++ [c])
      misuse
  | .option 'l' value :: r => do
    let value := match value, r with
      | some v, _ => some v
      | none, .operand v :: _ => some v
      | none, _ => none
    match value with
    | none => Routine.put listing
    | some v =>
      let name := v.map Char.toUpper
      let name := if (txt "SIG").isPrefixOf name then name.drop 3 else name
      match Signal.ofName? name, (Numeral.readDigits v).bind Signal.name? with
      | some n, _ => Routine.put (Numeral.ofNat n ++ ['\n'])
      | none, some t => Routine.put (t ++ ['\n'])
      | none, none => Routine.complain (txt "unknown signal name " ++ v)
    Routine.leave 1 0
  | .option 'L' _ :: _ => do
    Routine.put table
    Routine.leave 1 0
  | .option 's' (some v) :: r => choose (((signalOf? v).map Int.ofNat).getD (-1)) r
  | .option 'h' _ :: _ => do
    Routine.put usage
    Routine.leave 1 0
  | .option 'V' _ :: _ => do
    Routine.put (txt "kill from procps-ng 4.0.4\n")
    Routine.leave 1 0
  | .option 'q' (some v) :: r => do
    let _ ← target (txt "must be an integer value to be passed with the signal.") v
    choose signo r
  | .option _ _ :: r => choose signo r

/-- The program `kill`. -/
def kill (args : List Raw) : Routine Nat := do
  if args.isEmpty then misuse (α := Unit)
  let (given,args) := takeSignal args
  let args := optionTable.read args
  let signo ← choose (given.getD Signal.terminate) args
  let targets := Argument.operands args
  if targets.isEmpty then misuse (α := Unit)
  return if ← sendAll signo targets then 0 else 1

end Sending
end JobShell

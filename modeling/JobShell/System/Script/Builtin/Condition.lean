import JobShell.System.Script.Builtin.Basic

/-!
# Conditions

`test` decides a condition on its arguments: comparisons of texts and numbers,
questions about files, and combinations of them.
-/
namespace JobShell
namespace Script
namespace Condition

/-- What an argument of a condition means. -/
inductive Sign where
  /-- A question about the next argument. -/
  | unary (name : Raw)
  /-- A comparison of its two neighbours. -/
  | binary (name : Raw)
  | not
  | and
  | or
  | opens
  | closes
  | operand
  | ending
  deriving DecidableEq, Repr

/-- The names of the questions. -/
def questions : List String :=
  ["-r","-w","-x","-e","-f","-d","-c","-b","-p","-u","-g","-k","-s","-t","-z","-n","-h","-O","-G","-L","-S"]

/-- The names of the comparisons. -/
def comparisons : List String := ["=","!=","<",">","-eq","-ne","-ge","-gt","-le","-lt","-nt","-ot","-ef"]

/-- The meaning that a text may have. -/
def sign? (t : Raw) : Option Sign :=
  if questions.any (txt · == t) then some (.unary t)
  else if comparisons.any (txt · == t) then some (.binary t)
  else match t with
    | ['!'] => some .not
    | ['-','a'] => some .and
    | ['-','o'] => some .or
    | ['('] => some .opens
    | [')'] => some .closes
    | _ => none

/-- Whether a text is a comparison. -/
def isComparison (t : Raw) : Bool :=
  match sign? t with
  | some (.binary _) => true
  | _ => false

/-- What the argument of a number means. A question is an operand when nothing comes after it, or when it is
    compared with what comes after it; a parenthesis is one when nothing comes after it. -/
def signAt (args : Array Raw) (i : Nat) : Sign :=
  match args[i]? with
  | none => .ending
  | some t =>
    match sign? t with
    | none => .operand
    | some (.unary q) =>
      match args[i+1]? with
      | none => .operand
      | some next => if args[i+2]?.isSome && isComparison next then .operand else .unary q
    | some .opens => if args[i+1]?.isSome then .opens else .operand
    | some s => s

/-- Complains about a condition. -/
def wrong {α : Type} (at_ : Raw) (message : String) : Run α :=
  Run.fail (if at_.isEmpty then txt message else at_ ++ txt ": " ++ txt message)

/-- The number that an operand is. -/
def numberOf (t : Raw) : Run Int := do
  match Run.wholeNumber? t with
  | some n => return max (-9223372036854775808) (min 9223372036854775807 n)
  | none => Run.fail (txt "Illegal number: " ++ t)

/-- The answer to a question about a file. -/
def fileAnswer (q : Raw) (s : FileStatus) : Bool :=
  match q with
  | ['-','f'] => s.type = .regular
  | ['-','d'] => s.type = .directory
  | ['-','c'] => s.type = .device
  | ['-','p'] => s.type = .pipe
  | ['-','h'] | ['-','L'] => s.type = .link
  | ['-','s'] => s.size > 0
  | ['-','x'] => s.runnable
  | ['-','e'] | ['-','r'] | ['-','w'] | ['-','O'] | ['-','G'] => true
  | _ => false

/-- The answer to a question. -/
def answer (q t : Raw) : Run Bool := do
  match q with
  | ['-','z'] => return t.isEmpty
  | ['-','n'] => return !t.isEmpty
  | ['-','t'] =>
    let n ← numberOf t
    if 0 ≤ n then Run.isTerminal n.toNat else return false
  | _ =>
    let follow := q ≠ ['-','h'] && q ≠ ['-','L']
    match ← Run.ask (.look follow t) with
    | .ok s => return fileAnswer q s
    | .error _ => return false

/-- Whether two operands compare as asked. -/
def compare (name a b : Raw) : Run Bool := do
  let numbers := fun (p : Int → Int → Bool) => do
    let x ← numberOf a
    let y ← numberOf b
    return p x y
  match name with
  | ['='] => return a = b
  | ['!','='] => return a ≠ b
  | ['<'] => return Text.before a b
  | ['>'] => return Text.before b a
  | ['-','e','q'] => numbers (· == ·)
  | ['-','n','e'] => numbers (· != ·)
  | ['-','g','e'] => numbers (fun x y => x ≥ y)
  | ['-','g','t'] => numbers (fun x y => x > y)
  | ['-','l','e'] => numbers (fun x y => x ≤ y)
  | ['-','l','t'] => numbers (fun x y => x < y)
  | ['-','e','f'] =>
    match ← Run.ask (.look true a), ← Run.ask (.look true b) with
    | .ok x, .ok y => return x.identity == y.identity
    | _, _ => return false
  | _ => return false

section
/- `self` decides the alternatives that begin at an argument. -/
variable (args : Array Raw) (self : Sign → Nat → Run (Bool × Nat))

/-- A part without connectives that begins at an argument: whether it holds, and its last argument. -/
def simple (s : Sign) (i : Nat) : Run (Bool × Nat) := do
  match s with
  | .ending => return (false,i)
  | .opens =>
    let s := signAt args (i + 1)
    if s = .closes then return (false,i + 1)
    else
      let (holds,j) ← self s (i + 1)
      if signAt args (j + 1) ≠ .closes then wrong [] "closing paren expected"
      return (holds,j + 1)
  | .unary q =>
    match args[i+1]? with
    | none => wrong q "argument expected"
    | some t => return (← answer q t,i + 1)
  | _ =>
    match signAt args (i + 1) with
    | .binary name =>
      match args[i+2]? with
      | none => wrong name "argument expected"
      | some b => return (← compare name ((args[i]?).getD []) b,i + 2)
    | _ => return (!((args[i]?).getD []).isEmpty,i)

/-- A part that may be negated. -/
def negated : Nat → Sign → Nat → Run (Bool × Nat)
  | 0, _, i => return (false,i)
  | fuel+1, s, i => do
    if s = .not then
      let next := signAt args (i + 1)
      let (holds,j) ← negated fuel next (if next = .ending then i else i + 1)
      return (!holds,j)
    else simple args self s i

/-- Parts that must all hold. -/
def both : Nat → Bool → Sign → Nat → Run (Bool × Nat)
  | 0, holds, _, i => return (holds,i)
  | fuel+1, holds, s, i => do
    let (h,j) ← negated args self (args.size + 2) s i
    if signAt args (j + 1) = .and then both fuel (holds && h) (signAt args (j + 2)) (j + 2)
    else return (holds && h,j)

/-- Parts of which one must hold. -/
def either : Nat → Bool → Sign → Nat → Run (Bool × Nat)
  | 0, holds, _, i => return (holds,i)
  | fuel+1, holds, s, i => do
    let (h,j) ← both args self (args.size + 2) true s i
    if signAt args (j + 1) = .or then either fuel (holds || h) (signAt args (j + 2)) (j + 2)
    else return (holds || h,j)

end

/-- Parts of which one must hold, with parentheses nested at most `depth` deep. -/
def alternatives (args : Array Raw) : Nat → Sign → Nat → Run (Bool × Nat)
  | 0, _, i => return (false,i)
  | depth+1, s, i => either args (alternatives args depth) (args.size + 2) false s i

/-- Decides a condition. Few arguments have a meaning of their own: a comparison comes before all else, then
    parentheses around everything, then a negation of everything. -/
def decide : Nat → List Raw → Run Bool
  | 0, _ => return false
  | _+1, [] => return false
  | fuel+1, args => do
    let whole := fun (s : Option Sign) (args : List Raw) => do
      let a := args.toArray
      let (holds,i) ← alternatives a (a.size + 2) (s.getD (signAt a 0)) 0
      match a[i]?, a[i+1]? with
      | some t, some _ => wrong t "unexpected operator"
      | _, _ => return holds
    match args with
    | [a,op,b] =>
      if isComparison op then whole (some .operand) args
      else if a = ['('] && b = [')'] then whole none [op]
      else if a = ['!'] then return !(← decide fuel args.tail)
      else whole none args
    | [a,b,c,d] =>
      if a = ['('] && d = [')'] then whole none [b,c]
      else if a = ['!'] then return !(← decide fuel [b,c,d])
      else whole none args
    | _ => whole none args

end Condition

namespace Run

/-- The command `test`, or its other form with brackets. -/
def test (name : Raw) (args : List Raw) : Run Nat := do
  let args ← (do
    if name.head? = some '[' then
      if args.getLast? ≠ some [']'] then fail (txt "missing ]")
      return args.dropLast
    else return args : Run (List Raw))
  return if ← Condition.decide (args.length + 1) args then 0 else 1

end Run
end Script
end JobShell

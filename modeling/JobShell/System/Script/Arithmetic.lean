import JobShell.System.Script.State

/-!
# Arithmetic of scripts

Expressions of whole numbers of 64 bits. They are worked out while they are read,
so that what was wrong first is complained of first; parts whose value does not
matter are read only.
-/
namespace JobShell
namespace Script
namespace Arithmetic

/-- A token of an expression. -/
inductive Lexeme where
  | number (n : Int)
  | name (n : Raw)
  | sign (s : String)
  | bad
  deriving DecidableEq, Repr

/-- The greatest number. -/
def greatest : Int := 9223372036854775807

/-- A number of 64 bits. -/
def wrap (n : Int) : Int := Int.bmod n 18446744073709551616

/-- The value of a digit of a number to some base. -/
def digit? (base : Nat) (c : Char) : Option Nat :=
  let n := if c.isDigit then c.toNat - 48
    else if 'a' ≤ c && c ≤ 'z' then c.toNat - 87
    else if 'A' ≤ c && c ≤ 'Z' then c.toNat - 55 else 99
  if n < base then some n else none

/-- The number that a text begins with, in decimal, or after a zero in octal, or after a zero and an x in
    hexadecimal; and the text after it. -/
def leadingNumber (t : Raw) : Nat × Raw :=
  let (base,body) := match t with
    | '0' :: x :: d :: r => if (x = 'x' || x = 'X') && (digit? 16 d).isSome then (16,d :: r) else (8,t)
    | '0' :: _ => (8,t)
    | _ => (10,t)
  let digits := body.takeWhile (fun c => (digit? base c).isSome)
  (digits.foldl (fun n c => base * n + (digit? base c).getD 0) 0,body.drop digits.length)

/-- The number that a variable holds; none when it holds something else. Blanks may stand around it. -/
def ofText? (t : Raw) : Option Int :=
  let s := t.dropWhile Run.isBlank
  let (negative,body) := match s with
    | '-' :: r => (true,r)
    | '+' :: r => (false,r)
    | r => (false,r)
  if s.isEmpty then some 0
  else if !body.head?.any Char.isDigit then none
  else
    let (n,rest) := leadingNumber body
    let n : Int := if negative then -n else n
    if !rest.all Run.isBlank || n > greatest || n < -greatest - 1 then none else some n

/-- The signs that are made of several characters come first. -/
def signs : List String :=
  ["<<=",">>=","<<",">>","<=",">=","==","!=","&&","||","*=","/=","%=","+=","-=","&=","^=","|=","=","<",">","|","&",
    "!","(",")","*","/","%","+","-","^","~","?",":"]

/-- The tokens of an expression. -/
def lexemes : Nat → Raw → List Lexeme
  | 0, _ => []
  | _+1, [] => []
  | fuel+1, c :: r =>
    if c = ' ' || c = '\t' || c = '\n' then lexemes fuel r
    else if c.isDigit then
      let (n,rest) := leadingNumber (c :: r)
      .number (min n greatest) :: lexemes fuel rest
    else if beginsName c then
      let name := (c :: r).takeWhile isNameChar
      .name name :: lexemes fuel ((c :: r).drop name.length)
    else match signs.find? (fun s => (txt s).isPrefixOf (c :: r)) with
      | some s => .sign s :: lexemes fuel ((c :: r).drop s.length)
      | none => [.bad]

/-- How tightly an operator binds; none for other signs. Zero is the tightest. -/
def precedence? (s : String) : Option Nat :=
  match s with
  | "*" | "/" | "%" => some 0
  | "+" | "-" => some 1
  | "<<" | ">>" => some 2
  | "<" | "<=" | ">" | ">=" => some 3
  | "==" | "!=" => some 4
  | "&" => some 5
  | "^" => some 6
  | "|" => some 7
  | _ => none

/-- The bits of a number. -/
def bits (n : Int) : Nat := (n % 18446744073709551616).toNat

/-- Zero and one for false and true. -/
def truth (b : Bool) : Int := if b then 1 else 0

/-- The value of an operation; none for a division by zero. -/
def operate (s : String) (a b : Int) : Option Int :=
  match s with
  | "*" => some (wrap (a * b))
  | "/" => if b = 0 then none else some (wrap (Int.tdiv a b))
  | "%" => if b = 0 then none else some (Int.tmod a b)
  | "+" => some (wrap (a + b))
  | "-" => some (wrap (a - b))
  | "<<" => some (wrap (a * (Nat.pow 2 (b % 64).toNat : Nat)))
  | ">>" => some (Int.fdiv a (Nat.pow 2 (b % 64).toNat : Nat))
  | "<" => some (truth (a < b))
  | "<=" => some (truth (a ≤ b))
  | ">" => some (truth (a > b))
  | ">=" => some (truth (a ≥ b))
  | "==" => some (truth (a = b))
  | "!=" => some (truth (a ≠ b))
  | "&" => some (wrap (Nat.land (bits a) (bits b) : Nat))
  | "^" => some (wrap (Nat.xor (bits a) (bits b) : Nat))
  | "|" => some (wrap (Nat.lor (bits a) (bits b) : Nat))
  | _ => some b

section
-- the whole expression, as it is shown in complaints
variable (whole : Raw)

/-- Complains about the expression. -/
def complain {α : Type} (t : String) : Run α :=
  Run.fail (txt "arithmetic expression: " ++ txt t ++ txt ": \"" ++ whole ++ ['"'])

/-- The value of an operation. -/
def apply (s : String) (a b : Int) : Run Int :=
  match operate s a b with
  | some n => return n
  | none => complain whole "division by zero"

/-- The number in a variable. -/
def lookUp (name : Raw) : Run Int := do
  let t := (← Run.value? name).getD []
  match ofText? t with
  | some n => return n
  | none => Run.fail (txt "Illegal number: " ++ t)

/-- The rest of a part of an expression, with its value. -/
abbrev Part : Type := Run (Int × List Lexeme)

/-- What an expression can begin with: an operand. `assignment` reads what stands in parentheses. -/
def primary (assignment : Bool → List Lexeme → Part) : Nat → Bool → List Lexeme → Part
  | 0, _, _ => complain whole "expecting primary"
  | fuel+1, idle, l => do
    let after := fun (f : Int → Int) (l : List Lexeme) => do
      let (n,l) ← primary assignment fuel idle l
      return (f n,l)
    match l with
    | .number n :: l => return (n,l)
    | .name v :: l =>
      let n ← if idle then pure 0 else lookUp v
      return (n,l)
    | .sign "(" :: l =>
      let (n,l) ← assignment idle l
      match l with
      | .sign ")" :: l => return (n,l)
      | _ => complain whole "expecting \x27)\x27"
    | .sign "+" :: l => after id l
    | .sign "-" :: l => after (fun n => wrap (-n)) l
    | .sign "!" :: l => after (fun n => truth (n = 0)) l
    | .sign "~" :: l => after (fun n => -n - 1) l
    | _ => complain whole "expecting primary"

/-- Operators that bind more tightly than `limit`, after a first operand. -/
def operations (operand : Bool → List Lexeme → Part) : Nat → Nat → Bool → Int → List Lexeme → Part
  | 0, _, _, a, l => return (a,l)
  | fuel+1, limit, idle, a, l =>
    match l with
    | .sign s :: rest =>
      match precedence? s with
      | some p =>
        if p < limit then do
          let (b,rest) ← operand idle rest
          let (b,rest) ← operations operand fuel p idle b rest
          let n ← if idle then pure b else apply whole s a b
          operations operand fuel limit idle n rest
        else return (a,l)
      | none => return (a,l)
    | _ => return (a,l)

/-- Operands that are joined by a sign which need not look at all of them. -/
def junction (operand : Bool → List Lexeme → Part) (s : String) (stops : Int → Bool) (join : Bool → Bool → Bool) :
    Nat → Bool → List Lexeme → Part
  | 0, idle, l => operand idle l
  | fuel+1, idle, l => do
    let (a,l) ← operand idle l
    match l with
    | .sign t :: rest =>
      if t = s then
        let (b,rest) ← junction operand s stops join fuel (idle || stops a) rest
        return (truth (join (a ≠ 0) (b ≠ 0)),rest)
      else return (a,l)
    | _ => return (a,l)

/-- A condition, or one of two values that depend on it. -/
def conditional (assignment : Bool → List Lexeme → Part) (operand : Bool → List Lexeme → Part) :
    Nat → Bool → List Lexeme → Part
  | 0, idle, l => operand idle l
  | fuel+1, idle, l => do
    let (a,l) ← operand idle l
    match l with
    | .sign "?" :: l =>
      let (b,l) ← assignment (idle || a = 0) l
      match l with
      | .sign ":" :: l =>
        let (c,l) ← conditional assignment operand fuel (idle || a ≠ 0) l
        return (if a ≠ 0 then b else c,l)
      | _ => complain whole "expecting \x27:\x27"
    | _ => return (a,l)

/-- The operator of an assignment. -/
def assigned? (s : String) : Option String :=
  match s with
  | "=" => some ""
  | "*=" => some "*"
  | "/=" => some "/"
  | "%=" => some "%"
  | "+=" => some "+"
  | "-=" => some "-"
  | "<<=" => some "<<"
  | ">>=" => some ">>"
  | "&=" => some "&"
  | "^=" => some "^"
  | "|=" => some "|"
  | _ => none

/-- An assignment, or an expression of another kind. -/
def assignment : Nat → Bool → List Lexeme → Part
  | 0, _, _ => complain whole "expecting primary"
  | fuel+1, idle, l =>
    let other := fun (_ : Unit) =>
      let first := primary whole (assignment fuel) fuel
      let binary := fun idle l => do
        let (a,l) ← first idle l
        operations whole first fuel 8 idle a l
      let conjunction := junction binary "&&" (· = 0) (· && ·) fuel
      let disjunction := junction conjunction "||" (· ≠ 0) (· || ·) fuel
      conditional whole (assignment fuel) disjunction fuel idle l
    match l with
    | .name v :: .sign s :: rest =>
      match assigned? s with
      | some op => do
        let (n,rest) ← assignment fuel idle rest
        if idle then return (n,rest)
        else
          let n ← if op.isEmpty then pure n else apply whole op (← lookUp v) n
          Run.assign v (Numeral.ofInt n)
          return (n,rest)
      | none => other ()
    | _ => other ()

end

/-- The value of an expression. -/
def evaluate (t : Raw) : Run Int := do
  let l := lexemes (t.length + 1) t
  let (n,rest) ← assignment t (l.length + 2) false l
  if rest.isEmpty then return n else complain t "expecting EOF"

end Arithmetic
end Script
end JobShell

import JobShell.System.Program.CharacterClass
import JobShell.System.Program.Escapes
import JobShell.System.Program.Options
import JobShell.System.Program.Output
import JobShell.System.Program.Quoting

/-!
# Exchanging characters

`tr` replaces the characters of one set by those of another, deletes those of a
set, and writes repeated characters of a set only once.
-/
namespace JobShell
namespace Exchange

/-- A part of a set as it is written. -/
inductive Part where
  | char (c : Char)
  | range (first last : Char)
  | members (k : CharacterClass)
  | equivalent (c : Char)
  /-- A character repeated so often; zero stands for as often as is needed. -/
  | repeated (c : Char) (n : Nat)
  deriving DecidableEq, Repr

namespace Part

/-- The characters of a part. -/
def expand : Part → Raw
  | .char c | .equivalent c => [c]
  | .range a b => (List.range (b.toNat + 1 - a.toNat)).map (fun i => Char.ofNat (a.toNat + i))
  | .members k => k.members
  | .repeated c n => List.replicate n c

/-- The number of characters of a part. -/
def size : Part → Nat
  | .repeated _ n => n
  | p => p.expand.length

/-- A repetition as often as is needed. -/
def isOpen : Part → Bool
  | .repeated _ n => n = 0
  | _ => false

/-- The class of a part that is upper or lower case. -/
def case? : Part → Option CharacterClass
  | .members k => if k.isCase then some k else none
  | _ => none

end Part

/-- A character of a set, and whether it was escaped. -/
abbrev Written := Char × Bool

/-- A set without its escapes. -/
def unescape : Nat → Raw → Routine (List Written)
  | 0, _ => return []
  | _+1, [] => return []
  | fuel+1, '\\' :: r => do
    match r with
    | [] =>
      Routine.complain (txt "warning: an unescaped backslash at end of string is not portable")
      return [('\\',false)]
    | c :: rest =>
      if (Escapes.digitIn? 8 c).isSome then
        let (n,_,after) := Escapes.leadingDigits 8 3 r
        if n < 256 then return (Char.ofNat n,true) :: (← unescape fuel after)
        else
          let (n,_,after) := Escapes.leadingDigits 8 2 r
          Routine.complain (txt "warning: the ambiguous octal escape \\" ++ r.take 3 ++
            txt " is being\n\tinterpreted as the 2-byte sequence \\0" ++ r.take 2 ++ txt ", " ++ (r.drop 2).take 1)
          return (Char.ofNat n,true) :: (← unescape fuel after)
      else return (((Escapes.letter? c).getD c),true) :: (← unescape fuel rest)
  | fuel+1, c :: r => do return (c,false) :: (← unescape fuel r)

/-- Whether a set goes on with a character that is not escaped. -/
def stands (c : Char) (s : List Written) : Bool := s.head? = some (c,false)

/-- A character as it is shown. -/
def shownCharacter (c : Char) : Raw :=
  if CharacterClass.printable.holds c then [c]
  else '\\' :: [Quoting.octal (c.toNat / 64).toUInt8,Quoting.octal (c.toNat / 8).toUInt8,Quoting.octal c.toNat.toUInt8]

/-- Text as it is shown. -/
def shownText (r : Raw) : Raw :=
  r.flatMap fun c =>
    if c = '\\' then ['\\','\\']
    else match ("\x07\x08\x0c\n\x0d\t\x0b".toList.idxOf? c).bind (fun i => "abfnrtv".toList[i]?) with
      | some l => ['\\',l]
      | none => shownCharacter c

/-- What stands before a delimiter and a closing bracket, and what stands after them. -/
def enclosed (delimiter : Char) : List Written → Option (List Written × List Written)
  | [] => none
  | c :: r =>
    if stands delimiter (c :: r) && stands ']' r then some ([],r.tail)
    else (enclosed delimiter r).map (fun p => (c :: p.1,p.2))

/-- A repetition after its bracket, and what stands after it; an error is what is said of it. -/
def readRepeated : List Written → Except Raw (Option (Part × List Written))
  | (c,_) :: ('*',false) :: r =>
    let inner := r.takeWhile (fun x => !x.2 && x.1 ≠ ']')
    match r.drop inner.length with
    | (']',false) :: rest =>
      let digits := inner.map Prod.fst
      let base := if digits.head? = some '0' then 8 else 10
      let (n,count,_) := Escapes.leadingDigits base digits.length digits
      if count = digits.length && n < 18446744073709551615 then .ok (some (.repeated c n,rest))
      else .error (txt "invalid repeat count " ++ Quoting.plain (shownText digits) ++ txt " in [c*n] construct")
    | _ => .ok none
  | _ => .ok none

/-- A part in brackets after the first one, and what stands after it. -/
def readBracketed (s : List Written) : Except Raw (Option (Part × List Written)) :=
  let otherwise := fun (inner : List Written) (complaint : Raw) =>
    let digits := inner.drop 1 |>.takeWhile (fun x => x.1.isDigit)
    if stands '*' inner && stands ']' (s.drop (2 + digits.length)) then readRepeated s else .error complaint
  match s with
  | (':',false) :: r =>
    match enclosed ':' r with
    | some (inner,rest) =>
      let name := inner.map Prod.fst
      if name.isEmpty then .error (txt "missing character class name \x27[::]\x27")
      else match CharacterClass.ofName? name with
        | some k => .ok (some (.members k,rest))
        | none => otherwise r (txt "invalid character class " ++ Quoting.plain (shownText name))
    | none => readRepeated s
  | ('=',false) :: r =>
    match enclosed '=' r with
    | some (inner,rest) =>
      match inner.map Prod.fst with
      | [] => .error (txt "missing equivalence class character \x27[==]\x27")
      | [c] => .ok (some (.equivalent c,rest))
      | name => otherwise r (shownText name ++ txt ": equivalence class operand must be a single character")
    | none => readRepeated s
  | s => readRepeated s

/-- The parts of a set. -/
def readParts : Nat → List Written → Except Raw (List Part)
  | 0, _ => .ok []
  | _+1, [] => .ok []
  | fuel+1, c :: r =>
    let single : Unit → Except Raw (List Part) := fun _ =>
      match r with
      | ('-',false) :: d :: rest =>
        if d.1 < c.1 then .error (txt "range-endpoints of \x27" ++ shownCharacter c.1 ++ '-' :: shownCharacter d.1 ++
          txt "\x27 are in reverse collating sequence order")
        else (Part.range c.1 d.1 :: ·) <$> readParts fuel rest
      | _ => (Part.char c.1 :: ·) <$> readParts fuel r
    if r.length < 2 then (Part.char c.1 :: ·) <$> readParts fuel r
    else if c = ('[',false) then
      match readBracketed r with
      | .error t => .error t
      | .ok (some (p,rest)) => (p :: ·) <$> readParts fuel rest
      | .ok none => single ()
    else single ()

/-- The number of characters of a set. -/
def sizeOf (l : List Part) : Nat := (l.map Part.size).foldl (· + ·) 0

/-- The characters of a set. -/
def expand (l : List Part) : Raw := l.flatMap Part.expand

/-- The set with its open repetition so long that the set has a size. -/
def fill (size : Nat) (l : List Part) : List Part :=
  if size ≥ sizeOf l && l.countP Part.isOpen = 1 then
    l.map fun p => match p with
      | .repeated c 0 => .repeated c (size - sizeOf l)
      | p => p
  else l

/-- What is left of a set, the part that is being gone through without what was passed. -/
structure Rest where
  /-- The characters left of the first part, its class when it is upper or lower case, and whether it begins. -/
  now : Raw
  kind : Option CharacterClass
  fresh : Bool
  later : List Part

namespace Rest

/-- The whole of a set. -/
def ofParts (l : List Part) : Rest := ⟨[],none,true,l⟩

/-- Goes on to the next part that has characters. -/
def settle : List Part → Rest
  | [] => ⟨[],none,false,[]⟩
  | p :: r => if p.size = 0 then settle r else ⟨p.expand,p.case?,true,r⟩

/-- What is left, beginning with a character if there is one. -/
def norm (r : Rest) : Rest := if r.now.isEmpty then settle r.later else r

/-- What is left after a character. -/
def next (r : Rest) : Rest := { r with now := r.now.tail, fresh := false }

/-- What is left after a part. -/
def skip (r : Rest) : Rest := { r with now := [] }

end Rest

/-- The pairs of characters of two sets that stand for each other, how much shorter the sets are when a class of
    upper or lower case counts as one character, or what is wrong with them. -/
def pairs : Nat → Rest → Rest → Except Raw (List (Raw × Raw) × Nat)
  | 0, _, _ => .ok ([],0)
  | fuel+1, a, b =>
    let a := a.norm
    let b := b.norm
    match b.now with
    | [] => .ok ([],0)
    | y :: _ =>
      if b.fresh && b.kind.isSome && !(a.fresh && a.kind.isSome) then
        .error (txt "misaligned [:upper:] and/or [:lower:] construct")
      else match a.now with
        | [] => .ok ([],0)
        | x :: _ =>
          if b.kind.isSome then
            (fun r => ((a.now,b.now) :: r.1,r.2 + 25)) <$> pairs fuel a.skip b.skip
          else (fun r => (([x],[y]) :: r.1,r.2)) <$> pairs fuel a.next b.next

/-- How `tr` was called. -/
structure Request where
  complement : Bool
  delete : Bool
  squeeze : Bool
  truncate : Bool

/-- The characters of a set, or all others. -/
def chosen (complement : Bool) (l : List Part) : Raw :=
  let s := expand l
  if complement then CharacterClass.bytes.filter (!s.contains ·) else s

/-- The set by whose last character a shorter set is made as long as another one. -/
def extend (by_ : Nat) (l : List Part) : Except Raw (List Part) :=
  match l.getLast? with
  | some (.char c) | some (.equivalent c) | some (.repeated c _) => .ok (l ++ [.repeated c by_])
  | some (.range _ c) => .ok (l ++ [.repeated c by_])
  | some (.members _) => .error
      (txt "when translating with string1 longer than string2,\nthe latter string must not end with a character class")
  | none => .error (txt "when not truncating set1, string2 must be non-empty")

/-- The characters with those that replace them, or what is wrong with the sets. -/
def replacement (r : Request) (first second : List Part) : Except Raw (List (Char × Char)) := do
  let fromSet := chosen r.complement first
  let second := fill fromSet.length second
  if second.countP Part.isOpen > 1 then throw (txt "only one [c*] repeat construct may appear in string2")
  let isEquivalent := fun p => match p with
    | Part.equivalent _ => true
    | _ => false
  if second.any isEquivalent then
    throw (txt "[=c=] expressions may not appear in string2 when translating")
  let isOtherClass := fun p => match p with
    | Part.members k => !k.isCase
    | _ => false
  if second.any isOtherClass then
    throw (txt "when translating, the only character classes that may appear in\nstring2 are \x27upper\x27 and \x27lower\x27")
  let isClass := fun p => match p with
    | Part.members _ => true
    | _ => false
  let fuel := fromSet.length + sizeOf second + 2
  let cased := !r.complement && second.any isClass
  let shorter ← if cased then Prod.snd <$> pairs fuel (.ofParts first) (.ofParts second) else pure 0
  let missing := (fromSet.length - shorter) - (sizeOf second - shorter)
  let second ← if missing > 0 && !r.truncate then extend missing second else pure second
  let toSet := expand second
  if r.complement then
    if first.any isClass && !(toSet.length = fromSet.length && toSet.all (some · = toSet.head?)) then
      throw (txt "when translating with complemented character classes,\nstring2 must map all characters in the domain to one")
    return fromSet.zip toSet
  else
    let (l,_) ← pairs fuel (.ofParts first) (.ofParts second)
    -- a class in the second set turns the case of the letters in the first one
    return l.flatMap fun (a,b) => a.zip b

/-- Characters after replacement, deletion and squeezing, and the last one written. -/
def exchange (table : Array Char) (deleted squeezed : Array Bool) :
    Raw → Option Char → Raw → Raw × Option Char
  | [], last, out => (out.reverse,last)
  | c :: r, last, out =>
    if (deleted[c.toNat]?).getD false then exchange table deleted squeezed r last out
    else
      let x := (table[c.toNat]?).getD c
      if last = some x && (squeezed[x.toNat]?).getD false then exchange table deleted squeezed r last out
      else exchange table deleted squeezed r (some x) (x :: out)

/-- Which bytes are among characters. -/
def marks (s : Raw) : Array Bool := (CharacterClass.bytes.map s.contains).toArray

/-- How much is read at once. -/
def readSize : Nat := 8192

/-- Passes the input through. -/
def pass (table : Array Char) (deleted squeezed : Array Bool) : Nat → Option Char → Routine Unit
  | 0, _ => return
  | fuel+1, last => do
    match ← Routine.ask (.read 0 readSize) with
    | .error e => Routine.fail 1 (txt "read error: " ++ e.message)
    | .ok [] => return
    | .ok b =>
      let (out,last) := exchange table deleted squeezed (Raw.ofBytes b) last []
      match ← Routine.putBytes (Raw.toBytes out) with
      | some e => Routine.failWriting 1 (txt "write error") e
      | none => pass table deleted squeezed fuel last

/-- The options of `tr`. -/
def table : OptionTable where
  letters := OptionTable.flags "AcCdst"
  names := [.flag "complement" 'c',.flag "delete" 'd',.flag "squeeze-repeats" 's',.flag "truncate-set1" 't',
    .flag "help" '?',.flag "version" '?']
  inOrder := true

/-- The parts of a set that is an operand. -/
def readSet (s : Raw) : Routine (List Part) := do
  let written ← unescape (s.length + 1) s
  match readParts (written.length + 1) written with
  | .ok l => return l
  | .error t => Routine.fail 1 t

/-- The program `tr`. -/
def tr (args : List Raw) : Routine Nat := do
  let args := table.read args
  if let some t := Argument.complaint? args then Routine.misuse (α := Unit) 1 t
  let has := fun l => Argument.has l args
  let r : Request := ⟨has 'c' || has 'C',has 'd',has 's',has 't'⟩
  let sets := Argument.operands args
  let least := if r.delete = r.squeeze then 2 else 1
  let most := if r.delete && !r.squeeze then 1 else 2
  if sets.length < least then
    match sets.getLast? with
    | none => Routine.misuse (α := Unit) 1 (txt "missing operand")
    | some s =>
      Routine.misuse (α := Unit) 1 (txt "missing operand after " ++ Quoting.plain s ++ (if r.squeeze then
        txt "\nTwo strings must be given when both deleting and squeezing repeats."
        else txt "\nTwo strings must be given when translating."))
  if let some s := sets[most]? then
    Routine.misuse (α := Unit) 1 (txt "extra operand " ++ Quoting.plain s ++ (if sets.length = 2 then
      txt "\nOnly one string may be given when deleting without squeezing repeats." else []))
  let first ← readSet (sets.head?.getD [])
  let second ← match sets[1]? with
    | some s => some <$> readSet s
    | none => pure none
  if first.any Part.isOpen then
    Routine.fail (α := Unit) 1 (txt "the [c*] repeat construct may not appear in string1")
  let fromSet := chosen r.complement first
  let same := CharacterClass.bytes.toArray
  let go := fun (table : Array Char) deleted squeezed => do
    pass table (marks deleted) (marks squeezed) Action.rounds none
    return 0
  match second with
  | none => if r.delete then go same fromSet [] else go same [] fromSet
  | some second =>
    if r.delete then
      if (fill fromSet.length second).countP Part.isOpen > 1 then
        Routine.fail (α := Unit) 1 (txt "only one [c*] repeat construct may appear in string2")
      if second.any Part.isOpen then
        Routine.fail (α := Unit) 1 (txt "the [c*] construct may appear in string2 only when translating")
      go same fromSet (expand second)
    else
      match replacement r first second with
      | .error t => Routine.fail 1 t
      | .ok l =>
        go (l.foldl (fun t p => t.set! p.1.toNat p.2) same) [] (if r.squeeze then expand (fill fromSet.length second) else [])

end Exchange
end JobShell

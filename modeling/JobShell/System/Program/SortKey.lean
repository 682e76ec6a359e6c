import JobShell.System.Program.CharacterClass
import JobShell.Text.Floating

/-!
# Keys of lines

A key is a part of a line with a way to compare it. Lines are compared by one key
after the other, and those equal by all keys as a whole.
-/
namespace JobShell

/-- Which characters of a key do not count. -/
inductive Ignored where
  /-- All but letters, digits and blanks. -/
  | punctuation
  | unprintable
  deriving DecidableEq, Repr

/-- How keys are compared. -/
structure KeyOrder where
  skipStart : Bool
  skipEnd : Bool
  ignored : Option Ignored
  fold : Bool
  numeric : Bool
  general : Bool
  human : Bool
  month : Bool
  version : Bool
  random : Bool
  reverse : Bool
  deriving DecidableEq, Repr

namespace KeyOrder

/-- The order of bytes. -/
def plain : KeyOrder := ⟨false,false,none,false,false,false,false,false,false,false,false⟩

/-- Whether nothing but the direction is set. -/
def isPlain (o : KeyOrder) : Bool := { o with reverse := false } = plain

/-- Which ends of a key the letter for blanks is about. -/
inductive Side where
  | start
  | stop
  | both
  deriving DecidableEq

/-- An order with what a letter sets. -/
def withLetter (side : Side) (o : KeyOrder) (c : Char) : Option KeyOrder :=
  match c with
  | 'b' => some { o with skipStart := o.skipStart || side ≠ .stop, skipEnd := o.skipEnd || side ≠ .start }
  | 'd' => some { o with ignored := some .punctuation }
  | 'f' => some { o with fold := true }
  | 'g' => some { o with general := true }
  | 'h' => some { o with human := true }
  | 'i' => some { o with ignored := some (o.ignored.getD .unprintable) }
  | 'M' => some { o with month := true }
  | 'n' => some { o with numeric := true }
  | 'R' => some { o with random := true }
  | 'r' => some { o with reverse := true }
  | 'V' => some { o with version := true }
  | _ => none

/-- An order with what the letters at the beginning of a text set, and the text after them. -/
def withLetters (side : Side) (o : KeyOrder) : Raw → KeyOrder × Raw
  | [] => (o,[])
  | c :: r =>
    match withLetter side o c with
    | some o => withLetters side o r
    | none => (o,c :: r)

/-- The letters of an order that does not fit together. -/
def clash? (o : KeyOrder) : Option Raw :=
  let other := o.version || o.random || o.ignored.isSome
  if [o.numeric,o.general,o.human,o.month,other].countP id > 1 then
    let letters : List (Bool × Char) := [(o.ignored = some .punctuation,'d'),(o.fold,'f'),(o.general,'g'),(o.human,'h'),
      (o.ignored = some .unprintable,'i'),(o.month,'M'),(o.numeric,'n'),(o.random,'R'),(o.version,'V')]
    some ((letters.filter Prod.fst).map Prod.snd)
  else none

end KeyOrder

/-- A part of a line, from a character of a field to a character of a field, both counted from zero. -/
structure SortKey where
  /-- None for the beginning of the line. -/
  start : Option (Nat × Nat)
  /-- None for the end of the line. -/
  stop : Option (Nat × Nat)
  order : KeyOrder
  deriving Repr

namespace SortKey

/-- Characters that separate fields where no separator is chosen. -/
def isBlank (c : Char) : Bool := c = ' ' || c = '\t' || c = '\n'

/-- A line after a number of its fields. -/
def dropFields (separator : Option Char) : Nat → Raw → Raw
  | 0, s => s
  | _+1, [] => []
  | n+1, s =>
    match separator with
    | some c => dropFields separator n ((s.dropWhile (· != c)).drop 1)
    | none => dropFields separator n ((s.dropWhile isBlank).dropWhile (fun c => !isBlank c))

/-- A line from the beginning of a key on. -/
def fromStart (separator : Option Char) (k : SortKey) (line : Raw) : Raw :=
  let (field,char) := k.start.getD (0,0)
  let s := dropFields separator field line
  (if k.order.skipStart then s.dropWhile isBlank else s).drop char

/-- What follows the end of a key. -/
def afterStop (separator : Option Char) (k : SortKey) (line : Raw) : Raw :=
  match k.stop with
  | none => []
  | some (field,0) =>
    match separator with
    | some c => (dropFields separator field line).dropWhile (· != c)
    | none => dropFields separator (field+1) line
  | some (field,char) =>
    let s := dropFields separator field line
    (if k.order.skipEnd then s.dropWhile isBlank else s).drop char

/-- The part of a line that a key is about. -/
def cut (separator : Option Char) (k : SortKey) (line : Raw) : Raw :=
  let s := k.fromStart separator line
  s.take (s.length - (k.afterStop separator line).length)

/-- Which characters of a key count. -/
def counts (o : KeyOrder) (c : Char) : Bool :=
  match o.ignored with
  | none => true
  | some .punctuation => c.isAlphanum || isBlank c
  | some .unprintable => CharacterClass.printable.holds c

/-- What is compared of a line. -/
def extract (separator : Option Char) (k : SortKey) (line : Raw) : Raw :=
  let s := (k.cut separator line).filter (counts k.order)
  if k.order.fold then s.map Char.toUpper else s

/-! ### Comparing -/

/-- The order of numbers. -/
def compareNat (a b : Nat) : Ordering := if a < b then .lt else if a = b then .eq else .gt

/-- The order of bytes. -/
def compareBytes : Raw → Raw → Ordering
  | [], [] => .eq
  | [], _ => .lt
  | _, [] => .gt
  | a :: r, b :: s => if a = b then compareBytes r s else if a < b then .lt else .gt

/-- A decimal number as it is compared: its sign, the digits before the point without zeros at the beginning, and
    those after it without zeros at the end. -/
def decimal (s : Raw) : Bool × Raw × Raw :=
  let s := s.dropWhile isBlank
  let (negative,s) := match s with
    | '-' :: r => (true,r)
    | r => (false,r)
  let whole := s.takeWhile Char.isDigit
  let fraction := match s.drop whole.length with
    | '.' :: r => Text.dropEndWhile (· == '0') (r.takeWhile Char.isDigit)
    | _ => []
  let whole := whole.dropWhile (· == '0')
  (negative && !(whole.isEmpty && fraction.isEmpty),whole,fraction)

/-- The order of decimal numbers. -/
def compareDecimal (a b : Raw) : Ordering :=
  let size := fun (x y : Raw × Raw) =>
    (compareNat x.1.length y.1.length).then ((compareBytes x.1 y.1).then (compareBytes x.2 y.2))
  match decimal a, decimal b with
  | (true,x), (true,y) => size y x
  | (true,_), (false,_) => .lt
  | (false,_), (true,_) => .gt
  | (false,x), (false,y) => size x y

/-- A floating-point number as a fraction over a common power of two. -/
def scaled (m : Nat) (power : Int) : Int := (m * Nat.pow 2 (power + 16445).toNat : Nat)

/-- Where a floating-point number stands: after what is no number, and after numbers that are none. -/
def compareGeneral (a b : Raw) : Ordering :=
  let value := fun (s : Raw) => (Floating.read .extended s).map (fun r => r.1)
  let rank := fun (x : Option Floating) => match x with
    | none => 0
    | some (.notNumber _) => 1
    | some (.infinite true) => 2
    | some (.finite _ _ _) => 3
    | some (.infinite false) => 4
  match value a, value b with
  | some (Floating.finite p m e), some (Floating.finite q n f) =>
    let u := if p then -scaled m e else scaled m e
    let v := if q then -scaled n f else scaled n f
    if u < v then .lt else if u = v then .eq else .gt
  | x, y => compareNat (rank x) (rank y)

/-- The rank of the unit after a number; zero has none, and that of a negative number counts downwards. -/
def unitRank (s : Raw) : Int :=
  let s := s.dropWhile isBlank
  let (negative,s) := match s with
    | '-' :: r => (true,r)
    | r => (false,r)
  let whole := s.takeWhile Char.isDigit
  let rest := s.drop whole.length
  let (fraction,rest) := match rest with
    | '.' :: r => (r.takeWhile Char.isDigit,r.dropWhile Char.isDigit)
    | r => ([],r)
  if (whole ++ fraction).any (· != '0') then
    let rank : Int := match rest.head? with
      | some 'K' | some 'k' => 1
      | some c => (("MGTPEZYRQ".toList.idxOf? c).map (fun i => ((i + 2 : Nat) : Int))).getD 0
      | none => 0
    if negative then -rank else rank
  else 0

/-- The order of numbers with units. -/
def compareHuman (a b : Raw) : Ordering :=
  let x := unitRank a
  let y := unitRank b
  if x < y then .lt else if x = y then compareDecimal a b else .gt

/-- The number of the month that a text begins with. -/
def month (s : Raw) : Nat :=
  let name := ((s.dropWhile isBlank).take 3).map Char.toUpper
  let names := ["JAN","FEB","MAR","APR","MAY","JUN","JUL","AUG","SEP","OCT","NOV","DEC"].map txt
  ((names.idxOf? name).map (· + 1)).getD 0

/-- The rank of the first character among those that are no digits; the end stands before all but tildes. -/
def versionRank : Raw → Int
  | [] => -1
  | c :: _ => if c.isDigit then 0 else if c.isAlpha then c.toNat else if c = '~' then -2 else c.toNat + 256

/-- The order of versions: numbers in them are compared as numbers. -/
def compareVersionParts : Nat → Raw → Raw → Ordering
  | 0, _, _ => .eq
  | fuel+1, a, b =>
    let isText := fun (s : Raw) => s.head?.any (fun c => !c.isDigit)
    if a.isEmpty && b.isEmpty then .eq
    else if isText a || isText b then
      let x := versionRank a
      let y := versionRank b
      if x < y then .lt else if x > y then .gt else compareVersionParts fuel a.tail b.tail
    else
      let p := (a.takeWhile Char.isDigit).dropWhile (· == '0')
      let q := (b.takeWhile Char.isDigit).dropWhile (· == '0')
      ((compareNat p.length q.length).then (compareBytes p q)).then
        (compareVersionParts fuel (a.dropWhile Char.isDigit) (b.dropWhile Char.isDigit))

/-- How much at the beginning of a name is followed by nothing but endings, each a point with letters. -/
def versionStem (s : Raw) : Raw :=
  let isInner := fun (c : Char) => c.isAlphanum || c = '~'
  let rec go : Nat → Raw → Raw → Raw
    | 0, seen, _ => seen.reverse
    | _+1, seen, [] => seen.reverse
    | fuel+1, seen, c :: r =>
      -- the character itself belongs to the stem if more than endings follows
      let rec endings : Nat → Raw → Raw
        | 0, r => r
        | fuel+1, r =>
          match r with
          | '.' :: d :: rest => if d.isAlpha || d = '~' then endings fuel (rest.dropWhile isInner) else r
          | r => r
      let rest := endings r.length r
      if rest.isEmpty then (c :: seen).reverse
      else go fuel ((c :: r.take (r.length - rest.length)).reverse ++ seen) rest
  go s.length [] s

/-- The order of names with versions in them. -/
def compareVersion (a b : Raw) : Ordering :=
  let parts := fun a b => compareVersionParts (a.length + b.length + 1) a b
  let special := fun (s : Raw) =>
    if s.isEmpty then 0 else if s = ['.'] then 1 else if s = ['.','.'] then 2 else if s.head? = some '.' then 3 else 4
  (compareNat (special a) (special b)).then ((parts (versionStem a) (versionStem b)).then (parts a b))

/-- The order of what is compared of two lines. -/
def compare (o : KeyOrder) (x y : Raw) : Ordering :=
  let verdict :=
    if o.numeric then compareDecimal x y
    else if o.general then compareGeneral x y
    else if o.human then compareHuman x y
    else if o.month then compareNat (month x) (month y)
    else if o.version then compareVersion x y
    else compareBytes x y
  if o.reverse then verdict.swap else verdict

end SortKey
end JobShell

import JobShell.Text.Raw

/-!
# Classes of characters

The classes that programs know by name. They are those of ASCII: no byte beyond
belongs to one.
-/
namespace JobShell

/-- A class of characters. -/
inductive CharacterClass where
  | alpha
  | digit
  | alnum
  | upper
  | lower
  | space
  | blank
  | punct
  | printable
  | graph
  | control
  | hexDigit
  deriving DecidableEq, Repr

namespace CharacterClass

/-- The classes by their names. -/
def table : List (Raw × CharacterClass) :=
  [(txt "alpha",.alpha),(txt "digit",.digit),(txt "alnum",.alnum),(txt "upper",.upper),(txt "lower",.lower),
    (txt "space",.space),(txt "blank",.blank),(txt "punct",.punct),(txt "print",.printable),(txt "graph",.graph),
    (txt "cntrl",.control),(txt "xdigit",.hexDigit)]

/-- The class of a name. -/
def ofName? (name : Raw) : Option CharacterClass := (table.find? (·.1 == name)).map Prod.snd

/-- Whether a class holds a character. -/
def holds (k : CharacterClass) (c : Char) : Bool :=
  let n := c.toNat
  match k with
  | .alpha => c.isAlpha
  | .digit => c.isDigit
  | .alnum => c.isAlphanum
  | .upper => c.isUpper
  | .lower => c.isLower
  | .space => n = 32 || (9 ≤ n && n ≤ 13)
  | .blank => n = 32 || n = 9
  | .punct => 33 ≤ n && n < 127 && !c.isAlphanum
  | .printable => 32 ≤ n && n < 127
  | .graph => 33 ≤ n && n < 127
  | .control => n < 32 || n = 127
  | .hexDigit => c.isDigit || ('a' ≤ c && c ≤ 'f') || ('A' ≤ c && c ≤ 'F')

/-- All bytes as characters, in their order. -/
def bytes : Raw := (List.range 256).map Char.ofNat

/-- The characters of a class, in their order. -/
def members (k : CharacterClass) : Raw := bytes.filter k.holds

/-- Upper and lower case are the classes that are translated into each other. -/
def isCase (k : CharacterClass) : Bool := k = .upper || k = .lower

end CharacterClass
end JobShell

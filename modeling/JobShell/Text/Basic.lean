/-!
# Text

Text is a list of characters. Positions that leave the library are counted in
the bytes of the UTF-8 form, so the width of a text is the sum of the widths of
its characters, and a cut at a byte position is allowed on a boundary only.
-/
namespace JobShell

/-- Text as the shell reads and writes it. -/
abbrev Text := List Char

/-- The bytes of a file, a pipe or a terminal. -/
abbrev Bytes := List UInt8

/-- The text of a literal. -/
abbrev txt (s : String) : Text := s.toList

namespace Text

/-- The number of bytes of the UTF-8 form. -/
def width : Text → Nat
  | [] => 0
  | c :: r => c.utf8Size + width r

@[simp] theorem width_nil : width [] = 0 := rfl
@[simp] theorem width_cons (c : Char) (r : Text) : width (c :: r) = c.utf8Size + width r := rfl

@[simp] theorem width_append (a b : Text) : width (a ++ b) = width a + width b := by
  induction a with
  | nil => simp
  | cons c r ih => simp [ih,Nat.add_assoc]

/-- The text before and after byte position `n`; `none` when `n` is not on a
    character boundary of the text. -/
def cut? : Nat → Text → Option (Text × Text)
  | 0, s => some ([],s)
  | _+1, [] => none
  | n+1, c :: r => if c.utf8Size ≤ n+1 then (cut? (n+1-c.utf8Size) r).map (fun p => (c :: p.1,p.2)) else none
  termination_by structural _ s => s

/-- The part of a text from byte position `m` to byte position `n`; `none` when one of them is not on a character
    boundary of the text, or `n` is before `m`. -/
def between? (t : Text) (m n : Nat) : Option Text := (cut? n t).bind fun p => (cut? m p.1).map Prod.snd

/-- The text before the first `c`, and the text after it. -/
def splitAt? (c : Char) : Text → Option (Text × Text)
  | [] => none
  | x :: r => if x = c then some ([],r) else (splitAt? c r).map (fun p => (x :: p.1,p.2))

/-- The pieces between the occurrences of `c`; one more than there are. -/
def splitOn (c : Char) : Text → List Text
  | [] => [[]]
  | x :: r =>
    if x = c then [] :: splitOn c r
    else match splitOn c r with
      | [] => [[x]]
      | p :: ps => (x :: p) :: ps

/-- The text without its longest suffix of characters in `p`. -/
def dropEndWhile (p : Char → Bool) (s : Text) : Text := (s.reverse.dropWhile p).reverse

/-- The lines of a text, each without its line feed; a line feed at the end
    begins no line. -/
def lines (s : Text) : List Text :=
  let parts := splitOn '\n' s
  if parts.getLast? = some [] then parts.dropLast else parts

/-- The text padded with blanks on the right to `n` characters. -/
def padEnd (n : Nat) (s : Text) : Text := s ++ List.replicate (n - s.length) ' '

/-- The text padded with blanks on the left to `n` characters. -/
def padStart (n : Nat) (s : Text) : Text := List.replicate (n - s.length) ' ' ++ s

/-- The texts one after the other with `sep` between two neighbours. -/
def join (sep : Text) : List Text → Text
  | [] => []
  | [s] => s
  | s :: r => s ++ sep ++ join sep r

/-- Whether `sub` stands somewhere in the text. -/
def hasInfix (sub : Text) : Text → Bool
  | [] => sub.isEmpty
  | c :: r => sub.isPrefixOf (c :: r) || hasInfix sub r

/-- Strict order by characters, which is the order of the UTF-8 forms by bytes. -/
def before : Text → Text → Bool
  | [], [] => false
  | [], _ :: _ => true
  | _ :: _, [] => false
  | a :: r, b :: s => if a = b then before r s else decide (a.val < b.val)

/-- Whether `a` is before or equal to `b`. -/
def atMost (a b : Text) : Bool := !before b a

/-- The texts in increasing order, each once. -/
def sortUnique (l : List Text) : List Text := (l.mergeSort atMost).foldr insertFront []
where
  /-- A text in front of a sorted list, unless it is the first of the list. -/
  insertFront (s : Text) : List Text → List Text
    | [] => [s]
    | t :: r => if s = t then t :: r else s :: t :: r

end Text
end JobShell

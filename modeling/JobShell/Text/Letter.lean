import JobShell.Text.LetterTable

/-!
# Lower case

The lower case of a text in the full Unicode sense: a character may become two,
and a capital sigma becomes a final sigma at the end of a word.
-/
namespace JobShell
namespace Letter

/-- Whether a code point lies in one of the ranges. -/
def inRanges (l : List (Nat × Nat)) (n : Nat) : Bool := l.any (fun p => p.1 ≤ n && n ≤ p.2)

/-- Characters that have case. -/
def isCased (c : Char) : Bool :=
  if c.toNat < 128 then c.isAlpha else inRanges LetterTable.cased c.toNat

/-- Characters that a search for a neighbouring letter passes over. -/
def isCaseIgnorable (c : Char) : Bool := inRanges LetterTable.caseIgnorable c.toNat

/-- The code point of the lower case when that is one character. -/
def lowerCode (n : Nat) : Nat :=
  match LetterTable.lower.find? (fun r => r.1 ≤ n && n ≤ r.2.1 && (n - r.1) % r.2.2.1 == 0) with
  | some r => (n + r.2.2.2).toNat
  | none => n

/-- The lower case of a character on its own. -/
def lowerChar (c : Char) : Text :=
  if c.toNat < 128 then [c.toLower]
  else if c.toNat = 0x130 then ['i',Char.ofNat 0x307]
  else [Char.ofNat (lowerCode c.toNat)]

/-- Whether the first character that is not ignorable has case. -/
def meetsCased (s : Text) : Bool :=
  match s.dropWhile isCaseIgnorable with
  | [] => false
  | c :: _ => isCased c

/-- The capital sigma. -/
def capitalSigma : Char := Char.ofNat 0x3A3

/-- The lower case of what follows `before`, which is reversed. -/
def lowerAfter (before : Text) : Text → Text
  | [] => []
  | c :: r =>
    (if c = capitalSigma then
      (if meetsCased before && !meetsCased r then [Char.ofNat 0x3C2] else [Char.ofNat 0x3C3])
    else lowerChar c) ++ lowerAfter (c :: before) r

/-- The lower case of a text. -/
def lower (s : Text) : Text := lowerAfter [] s

end Letter
end JobShell

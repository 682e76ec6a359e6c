import JobShell.Text.ClusterTable
import JobShell.Text.Letter
import JobShell.Text.Segmentation

/-!
# Extended grapheme clusters

A cluster is what a reader takes for one character. Whether a cluster ends
between two characters depends on the second one and on a bounded memory of the
text before it: its last class, whether an odd number of regional indicators,
a pictograph with a joiner, or a consonant with a linker precedes. A text is
cut from the left by carrying that memory along.
-/
namespace JobShell

/-- The classes of characters that the cluster rules tell apart. -/
inductive ClusterClass where
  | carriageReturn | lineFeed | control | extend | joiner | spacingMark | leading
  | regional | leadJamo | vowelJamo | tailJamo | openSyllable | closedSyllable
  | pictograph | consonant | other
  deriving DecidableEq, Repr

namespace Cluster
open Letter (inRanges)

/-- The class of a code point. -/
def classOfCode (n : Nat) : ClusterClass :=
  if n = 13 then .carriageReturn
  else if n = 10 then .lineFeed
  else if 32 ≤ n && n < 127 then .other
  else if n = 0x200D then .joiner
  else if inRanges ClusterTable.control n then .control
  else if 0xAC00 ≤ n && n ≤ 0xD7A3 then
    if (n - 0xAC00) % 28 = 0 then .openSyllable else .closedSyllable
  else if inRanges [(0x1100,0x115F),(0xA960,0xA97C)] n then .leadJamo
  else if inRanges [(0x1160,0x11A7),(0xD7B0,0xD7C6),(0x16D63,0x16D63),(0x16D67,0x16D6A)] n then .vowelJamo
  else if inRanges [(0x11A8,0x11FF),(0xD7CB,0xD7FB)] n then .tailJamo
  else if 0x1F1E6 ≤ n && n ≤ 0x1F1FF then .regional
  else if inRanges ClusterTable.extend n then .extend
  else if inRanges ClusterTable.spacingMark n then .spacingMark
  else if inRanges ClusterTable.leading n then .leading
  else if inRanges ClusterTable.pictograph n then .pictograph
  else if inRanges ClusterTable.consonant n then .consonant
  else .other

/-- The class of a character. -/
def classOf (c : Char) : ClusterClass := classOfCode c.toNat

/-- Marks that link two consonants. -/
def isLinker (c : Char) : Bool := c.toNat ≥ 128 && inRanges ClusterTable.linker c.toNat

/-- Marks that may stand between a consonant, a linker and the next consonant. -/
def isConjunctExtend (c : Char) : Bool :=
  (classOf c == .extend || classOf c == .joiner) && !isLinker c && c.toNat != 0x200C

/-- How far a sequence that a joiner or a linker may continue has come. -/
inductive Chain where
  /-- No such sequence ends here. -/
  | none
  /-- The first character of the sequence and characters that extend it. -/
  | started
  /-- The sequence continues over the next character. -/
  | linked
  deriving DecidableEq, Repr

/-- What the rules remember of the text before a position. -/
structure Memory where
  /-- The class of the last character. -/
  last : ClusterClass
  /-- An odd number of regional indicators ends here. -/
  oddRegional : Bool
  /-- A pictograph with extending characters, and then perhaps a joiner. -/
  picture : Chain
  /-- A consonant with extending characters, and a linker among them or not. -/
  conjunct : Chain
  deriving DecidableEq, Repr

/-- The memory after a character that comes first, or after a break. -/
def Memory.start (c : Char) : Memory where
  last := classOf c
  oddRegional := classOf c == .regional
  picture := if classOf c == .pictograph then .started else .none
  conjunct := if classOf c == .consonant then .started else .none

/-- The memory after one more character. -/
def Memory.next (m : Memory) (c : Char) : Memory where
  last := classOf c
  oddRegional := classOf c == .regional && !m.oddRegional
  picture :=
    if classOf c == .pictograph then .started
    else match m.picture, classOf c with
      | .started, .extend => .started
      | .started, .joiner => .linked
      | _, _ => .none
  conjunct :=
    if classOf c == .consonant then .started
    else match m.conjunct with
      | .none => .none
      | k => if isLinker c then .linked else if isConjunctExtend c then k else .none

/-- Whether a cluster ends before `c`. -/
def breaksBefore (m : Memory) (c : Char) : Bool :=
  match m.last, classOf c with
  | .carriageReturn, .lineFeed => false
  | .carriageReturn, _ | .lineFeed, _ | .control, _ => true
  | _, .carriageReturn | _, .lineFeed | _, .control => true
  | .leadJamo, .leadJamo | .leadJamo, .vowelJamo | .leadJamo, .openSyllable
  | .leadJamo, .closedSyllable => false
  | .openSyllable, .vowelJamo | .openSyllable, .tailJamo | .vowelJamo, .vowelJamo
  | .vowelJamo, .tailJamo => false
  | .closedSyllable, .tailJamo | .tailJamo, .tailJamo => false
  | _, .extend | _, .joiner | _, .spacingMark => false
  | .leading, _ => false
  | _, .consonant => m.conjunct != .linked
  | _, .pictograph => m.picture != .linked
  | .regional, .regional => !m.oddRegional
  | _, _ => true

/-- The clusters of what follows a character that begins the cluster `current`, which is reversed. -/
def clustersAfter (m : Memory) (current : Text) : Text → List Text
  | [] => [current.reverse]
  | c :: r =>
    if breaksBefore m c then current.reverse :: clustersAfter (m.next c) [c] r
    else clustersAfter (m.next c) (c :: current) r

/-- The clusters of a text, in order. -/
def clusters : Text → List Text
  | [] => []
  | c :: r => clustersAfter (.start c) [c] r

/-- The clusters of Unicode. From the back they are those from the front, the last one first. -/
instance segmentation : Segmentation where
  clusters := clusters
  lastCluster? t := (clusters t).getLast?.map fun g => (Text.width t - Text.width g,g)

end Cluster
end JobShell

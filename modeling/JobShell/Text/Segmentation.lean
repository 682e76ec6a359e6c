import JobShell.Text.Basic

/-!
# Clusters

What a reader takes for one character may be several of them, a cluster. Where a
cluster ends is settled by tables and rules that grow with every edition of
Unicode, so it is left open here: a segmentation gives the clusters of a text,
from the front and from the back.
-/
namespace JobShell

/-- A way to cut texts into clusters. -/
class Segmentation where
  /-- The clusters of a text, from the front on. -/
  clusters : Text → List Text
  /-- The first cluster of a text from the back, with the byte position at which it begins. -/
  lastCluster? : Text → Option (Nat × Text)

namespace Segmentation

/-- A text cut behind its first cluster. -/
def cutFirst [Segmentation] (t : Text) : Text × Text :=
  match (clusters t).head? with
  | some g => (t.take g.length,t.drop g.length)
  | none => (t,[])

/-- A text cut before its last cluster. -/
def cutLast [Segmentation] (t : Text) : Text × Text :=
  match lastCluster? t with
  | some (_,g) => (t.take (t.length - g.length),t.drop (t.length - g.length))
  | none => ([],t)

end Segmentation
end JobShell

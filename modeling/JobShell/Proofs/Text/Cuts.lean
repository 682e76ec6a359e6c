import JobShell.Text.Basic

/-!
# Cuts at byte positions

A text may be cut where a part of it ends, and such a cut gives back the parts.
-/
namespace JobShell
namespace Text

theorem width_pos {t : Text} (nonempty : t ≠ []) : 0 < width t := by
  obtain ⟨c,r,rfl⟩ := List.exists_cons_of_ne_nil nonempty
  exact Nat.add_pos_left c.utf8Size_pos _

theorem cut?_append (a b : Text) : cut? (width a) (a ++ b) = some (a,b) := by
  induction a with
  | nil => rw [width_nil,cut?]; rfl
  | cons c r ih =>
    obtain ⟨n,size⟩ : ∃ n, c.utf8Size + width r = n + 1 :=
      ⟨c.utf8Size + width r - 1,by have := c.utf8Size_pos; omega⟩
    have fits : c.utf8Size ≤ n + 1 := by omega
    have left : n + 1 - c.utf8Size = width r := by omega
    rw [width_cons,List.cons_append,size,cut?,if_pos fits,left,ih]
    rfl

/-- Where a beginning of a text ends there is a boundary. -/
theorem exists_cut?_of_prefix {a t : Text} (start : a <+: t) : ∃ tail, cut? (width a) t = some (a,tail) := by
  obtain ⟨tail,rfl⟩ := start
  exact ⟨tail,cut?_append a tail⟩

theorem between?_append (a b c : Text) : between? (a ++ b ++ c) (width a) (width (a ++ b)) = some b := by
  rw [between?,cut?_append,Option.bind_some,cut?_append]
  rfl

end Text
end JobShell

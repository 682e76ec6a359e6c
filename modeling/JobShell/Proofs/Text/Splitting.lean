import JobShell.Text.Basic

/-!
# Splitting at a character

A text is split at the first occurrence of a character, and the two parts give
the text back.
-/
namespace JobShell
namespace Text

theorem splitAt?_append {c : Char} {a : Text} (free : c ∉ a) (b : Text) : splitAt? c (a ++ c :: b) = some (a,b) := by
  induction a with
  | nil => simp [splitAt?]
  | cons x r ih =>
    have other : x ≠ c := fun e => free (by simp [e])
    have tail := ih (fun h => free (List.mem_cons_of_mem _ h))
    rw [List.cons_append,splitAt?,if_neg other,tail]
    rfl

theorem splitAt?_eq_some_iff {c : Char} {t a b : Text} : splitAt? c t = some (a,b) ↔ t = a ++ c :: b ∧ c ∉ a := by
  constructor
  · intro found
    induction t generalizing a with
    | nil => cases found
    | cons x r ih =>
      rw [splitAt?] at found
      by_cases here : x = c
      · rw [if_pos here] at found
        cases found
        exact ⟨by rw [here]; rfl,List.not_mem_nil⟩
      · rw [if_neg here] at found
        obtain ⟨⟨a',b'⟩,rest,equal⟩ := Option.map_eq_some_iff.mp found
        cases equal
        obtain ⟨whole,free⟩ := ih rest
        refine ⟨by rw [whole]; rfl,fun h => ?_⟩
        rcases List.mem_cons.mp h with first | later
        · exact here first.symm
        · exact free later
  · rintro ⟨rfl,free⟩
    exact splitAt?_append free b

theorem splitAt?_free {c : Char} {t : Text} (free : c ∉ t) : splitAt? c t = none := by
  cases found : splitAt? c t with
  | none => rfl
  | some p =>
    obtain ⟨rfl,-⟩ := splitAt?_eq_some_iff.mp found
    simp at free

end Text
end JobShell

import JobShell.Proofs.Session.Acting
import JobShell.Proofs.Syntax.Spans
import JobShell.Session.Run

/-!
# Expanding a word

A word is expanded by cutting its text at the byte ranges that were recorded. For
a word that is written from pieces every cut is where a piece begins or ends, so
the word is expanded as if its pieces were still known (`Act.expandWord_ofAtoms`).
-/
namespace JobShell
namespace Act
variable {σ : Type}

theorem part_append (a b c : Text) : (part (a ++ b ++ c) (Text.width a) (Text.width (a ++ b)) : Act σ Text) = pure b := by
  rw [part,Text.between?_append]

variable (capture : Capture σ)

/-- The text of pieces, every command being run in its turn. -/
def expandPieces : List Atom → Act σ Text
  | [] => return []
  | .char c :: r => do return c :: (← expandPieces r)
  | .command span :: r => do
    let output ← capture (Substitution.command span)
    return output ++ (← expandPieces r)

/-- The text from the end of `front` on is expanded. The characters of `literal` are those since the last substitution,
    and the pieces are still to come. -/
theorem expandFrom_spansFrom (front literal : Text) (l : List Atom) :
    expandFrom capture (front ++ literal ++ l.flatMap Atom.text) (Text.width front)
      (Atom.spansFrom (Text.width (front ++ literal)) l) = (literal ++ ·) <$> expandPieces capture l := by
  induction l generalizing front literal with
  | nil =>
    have last := part_append (σ := σ) front literal []
    rw [List.append_nil] at last
    rw [Atom.spansFrom,expandFrom,List.flatMap_nil,List.append_nil,last,expandPieces,map_pure,List.append_nil]
  | cons a r ih =>
    cases a with
    | char c =>
      have next := ih front (literal ++ [c])
      have place : Text.width (front ++ literal) + c.utf8Size = Text.width (front ++ (literal ++ [c])) := by
        simp [Nat.add_assoc]
      rw [Atom.spansFrom,place,List.flatMap_cons,Atom.text,expandPieces,map_eq_pure_bind,bind_assoc]
      simpa using next
    | command t =>
      -- The characters since the last substitution are copied, and those after this one are none yet.
      have next := ih (front ++ literal ++ t) []
      have copied := part_append (σ := σ) front literal (t ++ r.flatMap Atom.text)
      have cut := part_append (σ := σ) (front ++ literal) t (r.flatMap Atom.text)
      rw [List.append_nil] at next
      rw [← List.append_assoc] at copied
      rw [Atom.spansFrom,expandFrom,List.flatMap_cons,Atom.text,← Text.width_append,← List.append_assoc,copied,cut,next,
        expandPieces]
      simp

/-- **Cutting a word gives back its pieces.** -/
theorem expandWord_ofAtoms (l : List Atom) (quoted : Bool) : expandWord capture (.ofAtoms l quoted) = expandPieces capture l := by
  have whole := expandFrom_spansFrom capture [] [] l
  rw [Word.ofAtoms_eq,expandWord]
  simpa using whole

end Act
end JobShell

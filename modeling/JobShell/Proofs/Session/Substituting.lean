import JobShell.Proofs.Session.Capturing
import JobShell.Proofs.Syntax.Origins
import JobShell.System.Machine.Start

/-!
# Putting outputs in the place of substitutions

The byte ranges of the substitutions of a word stand one after the other in its
text, and each cuts out a substitution as it is written. Expanding the word
replaces exactly these ranges, and every other character of the text stays where
it is.
-/
namespace JobShell

namespace Text

/-- A byte range cuts a piece out of a text, on boundaries of characters. -/
def Cuts (t : Text) (range : Nat × Nat) (piece : Text) : Prop :=
  ∃ before after, t = before ++ (piece ++ after) ∧ range = (width before,width before + width piece)

/-- A text that begins at a byte position, before and after each of the pieces at some byte ranges was replaced by its
    output. All other characters stay as they are and where they are. -/
inductive Replaced (output : Text → Text) : Nat → Text → List (Nat × Nat) → Text → Prop where
  | rest (position : Nat) (t : Text) : Replaced output position t [] t
  | piece (position : Nat) (literal piece : Text) {t result : Text} {ranges : List (Nat × Nat)}
      (later : Replaced output (position + width (literal ++ piece)) t ranges result) :
      Replaced output position (literal ++ piece ++ t)
        ((position + width literal,position + width (literal ++ piece)) :: ranges) (literal ++ output piece ++ result)

/-- Parts of a text are the same when they are equally wide. -/
theorem append_inj_of_width {a b c d : Text} (same : a ++ b = c ++ d) (wide : width a = width c) : a = c ∧ b = d := by
  have cut := cut?_append a b
  rw [same,wide,cut?_append,Option.some.injEq,Prod.mk.injEq] at cut
  exact ⟨cut.1.symm,cut.2.symm⟩

/-- There is one text after the replacement. -/
theorem Replaced.unique {output : Text → Text} {position : Nat} {t x y : Text} {ranges : List (Nat × Nat)}
    (one : Replaced output position t ranges x) (other : Replaced output position t ranges y) : x = y := by
  induction one generalizing y with
  | rest position t =>
    cases other
    rfl
  | piece position literal piece later ih =>
    generalize whole : literal ++ piece ++ _ = t at other
    generalize place : (_,_) :: _ = ranges at other
    cases other with
    | rest => cases place
    | piece _ literal' piece' later' =>
      simp only [List.cons.injEq,Prod.mk.injEq,Nat.add_left_cancel_iff] at place
      obtain ⟨⟨wide,wide'⟩,rfl⟩ := place
      obtain ⟨front,rfl⟩ := append_inj_of_width whole wide'
      obtain ⟨rfl,rfl⟩ := append_inj_of_width front wide
      rw [ih later']

end Text

namespace Atom

/-- The ranges stand one after the other. -/
theorem spansFrom_sorted {l : List Atom} (start : Nat) :
    (∀ range ∈ spansFrom start l, start ≤ range.1) ∧ (spansFrom start l).Pairwise (fun a b => a.2 ≤ b.1) := by
  induction l generalizing start with
  | nil => exact ⟨fun _ mem => absurd mem List.not_mem_nil,List.Pairwise.nil⟩
  | cons a r ih =>
    cases a with
    | char c =>
      obtain ⟨after,sorted⟩ := ih (start + c.utf8Size)
      exact ⟨fun range mem => Nat.le_of_add_right_le (after range mem),sorted⟩
    | command t =>
      obtain ⟨after,sorted⟩ := ih (start + Text.width t)
      refine ⟨fun range mem => ?_,.cons after sorted⟩
      rcases List.mem_cons.mp mem with rfl | mem
      · exact Nat.le_refl start
      · exact Nat.le_of_add_right_le (after range mem)

/-- Each range cuts out a substitution. -/
theorem cuts_of_mem_spansFrom (front : Text) {l : List Atom} {range : Nat × Nat}
    (mem : range ∈ spansFrom (Text.width front) l) : ∃ span ∈ commands l, Text.Cuts (front ++ l.flatMap text) range span := by
  induction l generalizing front with
  | nil => cases mem
  | cons a r ih =>
    cases a with
    | char c =>
      have next : Text.width front + c.utf8Size = Text.width (front ++ [c]) := by simp
      rw [spansFrom,next] at mem
      simpa [text] using ih _ mem
    | command t =>
      rw [spansFrom,← Text.width_append] at mem
      rcases List.mem_cons.mp mem with rfl | mem
      · refine ⟨t,by simp,front,r.flatMap text,rfl,?_⟩
        rw [Text.width_append]
      · obtain ⟨span,later,cuts⟩ := ih _ mem
        exact ⟨span,by simp [later],by simpa [text] using cuts⟩

/-- A piece with the output of its command in its place. -/
def replacement (output : Text → Text) : Atom → Text
  | .char c => [c]
  | .command span => output (Substitution.command span)

/-- Outputs are put in the place of the substitutions. The characters of `literal` are those since the last of them. -/
theorem replaced_spansFrom (output : Text → Text) (position : Nat) (literal : Text) (l : List Atom) :
    Text.Replaced (output ∘ Substitution.command) position (literal ++ l.flatMap text)
      (spansFrom (position + Text.width literal) l) (literal ++ l.flatMap (replacement output)) := by
  induction l generalizing position literal with
  | nil => exact .rest ..
  | cons a r ih =>
    cases a with
    | char c =>
      have next := ih position (literal ++ [c])
      have place : position + Text.width (literal ++ [c]) = position + Text.width literal + c.utf8Size := by
        simp [Nat.add_assoc]
      rw [place] at next
      simpa [text,replacement,spansFrom] using next
    | command t =>
      have next := Text.Replaced.piece position literal t (ih (position + Text.width (literal ++ t)) [])
      simpa [text,replacement,spansFrom,Nat.add_assoc] using next

end Atom

namespace Act
variable {σ : Type} {capture : Capture σ} {output : Text → Text}

/-- Pieces are expanded to their texts and the outputs of their commands, when these are always the same. -/
theorem yields_expandPieces (captures : ∀ command s, ∃ t, Yields (capture command) s (output command) t) (l : List Atom)
    (s : Session σ) : ∃ t, Yields (expandPieces capture l) s (l.flatMap (Atom.replacement output)) t := by
  induction l generalizing s with
  | nil => exact ⟨s,yields_pure [] s⟩
  | cons a r ih =>
    cases a with
    | char c =>
      obtain ⟨t,rest⟩ := ih s
      exact ⟨t,rest.bind (yields_pure _ t)⟩
    | command span =>
      obtain ⟨t,first⟩ := captures (Substitution.command span) s
      obtain ⟨u,rest⟩ := ih t
      exact ⟨u,first.bind (rest.bind (yields_pure _ u))⟩

end Act

namespace Word
variable {P : Text → Prop} {w : Word}

/-- The ranges that were recorded stand one after the other, and each cuts out a substitution. -/
theorem Written.spans_cut (written : w.Written P) :
    w.spans.Pairwise (fun a b => a.2 ≤ b.1) ∧ ∀ range ∈ w.spans, ∃ span, w.text.Cuts range span ∧ P span := by
  obtain ⟨l,same,each⟩ := written
  rw [same,ofAtoms_eq]
  refine ⟨(Atom.spansFrom_sorted 0).2,fun range mem => ?_⟩
  obtain ⟨span,here,cuts⟩ := Atom.cuts_of_mem_spansFrom [] mem
  exact ⟨span,cuts,each span here⟩

/-- The text is cut at the ranges that were recorded, and the outputs are put there. -/
theorem Written.yields_expandWord (written : w.Written P) {σ : Type} {capture : Capture σ} {output : Text → Text}
    (captures : ∀ command s, ∃ t, Act.Yields (capture command) s (output command) t) (s : Session σ) :
    ∃ text t, Act.Yields (Act.expandWord capture w) s text t ∧
      w.text.Replaced (output ∘ Substitution.command) 0 w.spans text := by
  obtain ⟨l,same,-⟩ := written
  obtain ⟨t,yields⟩ := Act.yields_expandPieces captures l s
  rw [← Act.expandWord_ofAtoms capture l w.quoted,← same] at yields
  refine ⟨_,t,yields,?_⟩
  rw [same,ofAtoms_eq]
  exact Atom.replaced_spansFrom output 0 [] l

end Word

namespace Pipeline
open Substitution (StandsIn)

/-- **Substitutions and their expansion.** In every word of a pipeline the byte ranges that were recorded stand one after
    the other, and each cuts a substitution out of the text that stands in the line, or in the value of the alias that is
    applied to it. Cutting the text at these ranges never breaks down, and expanding the word replaces the text at them
    by the outputs of the commands there, and nothing else. -/
theorem parse_substitutions {s : Surroundings} {aliases : Text → Option Text} {line : Text} {p : Pipeline}
    (parsed : parse s aliases line = .ok (some p)) {w : Word} (mem : w ∈ p.words) :
    w.spans.Pairwise (fun a b => a.2 ≤ b.1) ∧
    (∀ range ∈ w.spans, range.1 < range.2 ∧ ∃ span, w.text.Cuts range span ∧
      (StandsIn span line ∨ ∃ value, Token.applied? s aliases line = some value ∧ StandsIn span value)) ∧
    ∀ {σ : Type} (capture : Capture σ) (output : Text → Text),
      (∀ command before, ∃ after, Act.Yields (capture command) before (output command) after) →
      ∀ before, ∃ text after, Act.Yields (Act.expandWord capture w) before text after ∧
        w.text.Replaced (output ∘ Substitution.command) 0 w.spans text := by
  have written := written_of_parse parsed mem
  obtain ⟨sorted,cuts⟩ := written.spans_cut
  refine ⟨sorted,fun range inside => ?_,fun capture output captures before => written.yields_expandWord captures before⟩
  obtain ⟨span,⟨front,after,whole,same⟩,stands⟩ := cuts range inside
  have begins : Substitution.Begins span := stands.elim (·.begins) (fun ⟨_,_,stands⟩ => stands.begins)
  refine ⟨?_,span,⟨front,after,whole,same⟩,stands⟩
  rw [same]
  exact Nat.lt_add_of_pos_right (Text.width_pos begins.ne_nil)

/-- A word in which the value of a variable looks like a substitution and two substitutions follow each other, in a line
    whose alias has a substitution as well. -/
theorem parse_substitutions_value :
    let s : Surroundings := ⟨0,fun name => if name = ['A'] then some (txt "$(x)") else none,fun _ => none⟩
    let aliases := fun name => if name = txt "ll" then some (txt "ls $(a b)") else none
    let line := txt "ll \u00e9$A\x22$(c)\x22\x60e\x60"
    let w : Word := ⟨txt "\u00e9$(x)$(c)\x60e\x60",[(6,10),(10,13)],true⟩
    let before : Session Machine := ⟨Shell.start (.inMemory 10 true) (Machine.start ⟨[]⟩ [] [] .empty 0),
      Machine.start ⟨[]⟩ [] [] .empty 0⟩
    let output := fun command => '<' :: command ++ ['>']
    (∃ p, parse s aliases line = .ok (some p) ∧ w ∈ p.words) ∧
    (∀ range ∈ w.spans, range.1 < range.2 ∧ ∃ span, w.text.Cuts range span ∧
      (StandsIn span line ∨ ∃ value, Token.applied? s aliases line = some value ∧ StandsIn span value)) ∧
    ∃ after, Act.Yields (Act.expandWord (fun command => pure (output command)) w) before
      (txt "\u00e9$(x)<c><e>") after := by
  intro s aliases line w before output
  let p : Pipeline := ⟨[⟨[⟨txt "ls",[],false⟩,⟨txt "$(a b)",[(0,6)],false⟩,w],[]⟩],false⟩
  have parsed : parse s aliases line = .ok (some p) := rfl
  have mem : w ∈ p.words := by decide
  obtain ⟨_,cuts,expands⟩ := parse_substitutions parsed mem
  refine ⟨⟨_,parsed,mem⟩,cuts,?_⟩
  obtain ⟨text,after,expanded,replaced⟩ := expands (fun command => pure (output command)) output
    (fun command before => ⟨before,Act.yields_pure _ before⟩) before
  have expected : w.text.Replaced (output ∘ Substitution.command) 0 w.spans (txt "\u00e9$(x)<c><e>") :=
    .piece 0 (txt "\u00e9$(x)") (txt "$(c)") (.piece 10 [] (txt "\x60e\x60") (.rest 13 []))
  exact ⟨after,replaced.unique expected ▸ expanded⟩

end Pipeline
end JobShell

import JobShell.Proofs.Syntax.Joining
import JobShell.Syntax.Pipeline

/-!
# Aliases as text

A line whose first word names an alias is parsed as the line that has the value
of the alias, and a blank, in the place of that word. The value is taken once:
no alias is looked up in the new line, so it does not matter what the words of
the value, or the name itself, are bound to.
-/
namespace JobShell

namespace Lexeme

theorem read_blanks {b : Text} (blanks : ∀ c ∈ b, isAsciiBlank c = true) (t : Text) : read 0 (b ++ t) = read 0 t := by
  induction b with
  | nil => rfl
  | cons c r ih =>
    have later := ih fun d mem => blanks d (List.mem_cons_of_mem _ mem)
    rw [List.cons_append,read_blank (blanks c (by simp)),later]

/-- The line begins, after blanks, with a word that is written as `w`; `rest` follows it. -/
structure FirstWord (line w rest : Text) (segs : List Segment) : Prop where
  blanks : ∃ b, line = b ++ (w ++ rest) ∧ ∀ c ∈ b, isAsciiBlank c = true
  begins : beginsWord (w ++ rest) = true
  word : segments 0 (w ++ rest) = .ok segs
  source : wordSource segs = w

theorem FirstWord.ofLine {line w rest : Text} {segs : List Segment} (first : FirstWord line w rest segs) :
    ofLine line = (read 0 rest).map (.word segs :: ·) := by
  obtain ⟨b,rfl,blanks⟩ := first.blanks
  have nonempty : w ≠ [] := first.source ▸ wordSource_ne_nil first.begins first.word
  rw [Lexeme.ofLine,read_blanks blanks,read_word first.begins nonempty first.word first.source]

end Lexeme

/-- Without aliases the tokens stay as they are. -/
theorem Token.spliceAlias_none (s : Surroundings) (l : List Token) : spliceAlias s (fun _ => none) l = .ok l := by
  have unbound : alias? (fun _ => none) l = none := by
    rcases l with _ | ⟨t,r⟩
    · rfl
    · cases t <;> simp [alias?]
  rw [spliceAlias,unbound]

namespace Pipeline
open Lexeme (FirstWord Unfinished)

/-- **One textual hop.** A line begins with an unquoted word that is bound to a text which can be read and is not left
    open at its end. Then the line is parsed as, without any alias, the text with a blank and the rest of the line. -/
theorem parse_alias {s : Surroundings} {aliases : Text → Option Text} {line w rest value : Text} {segs : List Segment}
    {l : List Lexeme} (first : FirstWord line w rest segs) (unquoted : (Expansion.word s segs).quoted = false)
    (bound : aliases (Expansion.word s segs).text = some value) (lexemes : Lexeme.ofLine value = .ok l)
    (finished : ¬ Unfinished l) :
    parse s aliases line = parse s (fun _ => none) (value ++ ' ' :: rest) := by
  have joined : Lexeme.ofLine (value ++ ' ' :: rest) = (Lexeme.read 0 rest).map (l ++ ·) := by
    rw [Lexeme.ofLine,Lexeme.reads_of_finished lexemes finished _ (Lexeme.apart_space rest),Lexeme.read_space]
  rw [parse,parse]
  simp only [Token.ofText,first.ofLine,joined]
  cases Lexeme.read 0 rest with
  | error e => rfl
  | ok k =>
    have named : Token.alias? aliases (.word (Expansion.word s segs) :: k.map (Token.ofLexeme s)) = some value := by
      simpa [Token.alias?,unquoted] using bound
    have spliced : Token.spliceAlias s aliases (.word (Expansion.word s segs) :: k.map (Token.ofLexeme s)) =
        .ok ((l ++ k).map (Token.ofLexeme s)) := by
      simp only [Token.spliceAlias,named,Token.ofText,lexemes,Except.map,List.map_append,List.tail_cons]
    simp only [Except.map,bind,Except.bind,List.map_cons,Token.ofLexeme,spliced,Token.spliceAlias_none]

/-- The value holds the name of the alias and that of another one, and ends with an escaped blank. -/
theorem parse_alias_once :
    let s : Surroundings := ⟨1,fun _ => none,fun _ => none⟩
    let value := txt "x|ll $(a b)\x5c "
    let aliases := fun name =>
      if name = txt "ll" then some value else if name = txt "x" then some (txt "y") else none
    parse s aliases (txt " ll>&2") = parse s (fun _ => none) (value ++ txt " >&2") ∧
      parse s (fun _ => none) (value ++ txt " >&2") = .ok (some ⟨[⟨[⟨txt "x",[],false⟩],[]⟩,
        ⟨[⟨txt "ll",[],false⟩,⟨txt "$(a b) ",[(0,6)],true⟩],[.duplicate 1 2]⟩],false⟩) := by
  intro s value aliases
  refine ⟨?_,rfl⟩
  have first : FirstWord (txt " ll>&2") (txt "ll") (txt ">&2") [.bare (txt "ll")] :=
    ⟨⟨[' '],by decide,by simp [isAsciiBlank]⟩,by decide,rfl,by decide⟩
  have lexemes : Lexeme.ofLine value = .ok [.word [.bare (txt "x")],.pipe,.word [.bare (txt "ll")],
      .word [.bare (txt "$(a b)\x5c ")]] := rfl
  have enclosed : Substitution.Enclosed (txt "a b") := .char (by decide) (.char (by decide) (.char (by decide) .nil))
  have complete : Lexeme.Complete (txt "$(a b)\x5c ") := .parens enclosed (.escape ' ' .nil)
  refine parse_alias first (by decide) (by decide) lexemes ?_
  rintro ⟨segs,last,t,bare,opened⟩
  cases last
  cases bare
  exact complete.not_leftOpen opened

end Pipeline
end JobShell

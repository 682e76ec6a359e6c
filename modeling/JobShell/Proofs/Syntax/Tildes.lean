import JobShell.Proofs.Syntax.Expanding
import JobShell.Proofs.Syntax.Reading
import JobShell.Proofs.Syntax.Spans
import JobShell.Syntax.Pipeline

/-!
# Tildes on the command line and elsewhere

A tilde is expanded in two places of this library: in the first segment of a word, where
escapes, substitutions and quotes around it are looked at, and in a path that is
just a text, such as that of the history. A text without any of these is
expanded the same way as a word of a command line (`Pipeline.parse_plainWord`).
-/
namespace JobShell

namespace Expansion

/-- The text with what comes in the place of its tilde. -/
def ofParts : Text × Text × Text → Text
  | (before,home,tail) => before ++ home ++ tail

/-- A tilde has its place in a word where it has it in a path, when there is nothing special before it. -/
theorem filter_afterEquals {t : Text} (plain : t.any isSpecial = false) :
    (afterEquals? t).filter (fun p => !p.1.any isSpecial && p.2.head? = some '~') =
      (afterEquals? t).filter (fun p => p.2.head? = some '~') := by
  cases found : afterEquals? t with
  | none => rfl
  | some p =>
    obtain ⟨⟨a,b⟩,split,rfl⟩ := Option.map_eq_some_iff.mp found
    obtain ⟨rfl,-⟩ := Text.splitAt?_eq_some_iff.mp split
    have front : (a ++ ['=']).any isSpecial = false := by
      rw [List.append_cons,List.any_append,Bool.or_eq_false_iff] at plain
      exact plain.1
    simp only [Option.filter_some,front,Bool.not_false,Bool.true_and]

/-- A text without special characters is expanded as a path just as it is as the only segment of a word. -/
theorem ofTilde_plain (s : Surroundings) {t : Text} (plain : t.any isSpecial = false) :
    ofTilde s t = ((tilde? s true t).map ofParts).getD t := by
  rw [ofTilde,tilde?]
  dsimp only
  rw [filter_afterEquals plain]
  cases start : (if t.head? = some '~' then some ([],t) else (afterEquals? t).filter fun p => p.2.head? = some '~') with
  | none => rfl
  | some p =>
    obtain ⟨before,rest⟩ := p
    have part : ∀ c ∈ rest, c ∈ t := by
      split_ifs at start with first
      · cases start
        exact fun c mem => mem
      · obtain ⟨later,-⟩ := Option.filter_eq_some_iff.mp start
        obtain ⟨⟨a,b⟩,split,equal⟩ := Option.map_eq_some_iff.mp later
        cases equal
        obtain ⟨rfl,-⟩ := Text.splitAt?_eq_some_iff.mp split
        exact fun c mem => by simp [mem]
    have user : (rest.tail.takeWhile (· != '/')).any isSpecial = false := by
      rw [List.any_eq_false] at plain ⊢
      intro c mem
      exact plain c (part c (List.mem_of_mem_tail ((List.takeWhile_sublist _).subset mem)))
    simp only [Option.bind_some,Bool.not_true,Bool.and_false,Bool.false_eq_true,if_false,user]
    cases home? s (rest.tail.takeWhile (· != '/')) <;> rfl

/-- Such a text is a word that is not quoted, without substitutions. -/
theorem word_plain (s : Surroundings) {t : Text} (plain : t.any isSpecial = false) :
    word s [.bare t] = ⟨ofTilde s t,[],false⟩ := by
  have unquoted : backslash ∉ t := by
    intro mem
    exact List.any_eq_false.mp plain backslash mem rfl
  have atoms : segments s true [.bare t] = (ofTilde s t).map .char := by
    rw [ofTilde_plain s plain,segments,segments,List.append_nil]
    cases found : tilde? s true t with
    | none => simp [found,body_plain s false plain]
    | some p =>
      obtain ⟨before,home,tail⟩ := p
      obtain ⟨user,rfl,-,-⟩ := tilde?_eq_some found
      have last : tail.any isSpecial = false := by
        simp only [List.any_append,List.any_cons,Bool.or_eq_false_iff] at plain
        exact plain.2.2.2
      simp [found,ofParts,body_plain s false last]
  rw [word,atoms,Word.ofAtoms_map_char]
  simp [isQuoting,unquoted]

end Expansion

namespace Pipeline
open Lexeme

/-- Plain characters are not special. -/
theorem any_isSpecial_of_isPlain {t : Text} (plain : ∀ c ∈ t, isPlain c = true) : t.any Expansion.isSpecial = false := by
  rw [List.any_eq_false]
  intro c mem
  obtain ⟨-,-,-,-,noBackslash,noDollar,noTick⟩ := isPlain_iff.mp (plain c mem)
  simp [Expansion.isSpecial,noBackslash,noDollar,noTick]

/-- **Tildes agree.** Of a text without blanks, operators, quotes, backslashes, dollar signs and back quotes the command
    line makes the word that a path makes of it, whatever home directories there are: unquoted and without
    substitutions. -/
theorem parse_plainWord (s : Surroundings) {t : Text} (nonempty : t ≠ []) (plain : ∀ c ∈ t, isPlain c = true) :
    ∃ w : Word, parse s (fun _ => none) ('x' :: ' ' :: t) = .ok (some ⟨[⟨[⟨['x'],[],false⟩,w],[]⟩],false⟩) ∧
      w.text = Expansion.ofTilde s t ∧ w.spans = [] ∧ w.quoted = false := by
  have first : ∀ c ∈ (['x'] : Text), isPlain c = true := List.all_eq_true.mp rfl
  have lexemes : Lexeme.ofLine ('x' :: ' ' :: t) = .ok [.word [.bare ['x']],.word [.bare t]] :=
    ((reads_plain (List.cons_ne_nil 'x' []) first).space (reads_plain nonempty plain)).ofLine
  have tokens : Token.ofText s ('x' :: ' ' :: t) =
      .ok [.word ⟨['x'],[],false⟩,.word ⟨Expansion.ofTilde s t,[],false⟩] := by
    have word := Expansion.word_plain s (any_isSpecial_of_isPlain plain)
    rw [Token.ofText,lexemes]
    simp only [Except.map,List.map_cons,List.map_nil,Token.ofLexeme,word]
    rfl
  refine ⟨⟨Expansion.ofTilde s t,[],false⟩,?_,rfl,rfl,rfl⟩
  rw [parse,tokens]
  rfl

/-- A tilde after an equals sign, before the name of a user and a slash. -/
theorem parse_plainWord_assignment :
    let s : Surroundings := ⟨0,fun _ => none,fun user => if user = txt "me" then some (txt "/home/me") else none⟩
    let t := txt "A=~me/b=~"
    t ≠ [] ∧ (∀ c ∈ t, isPlain c = true) ∧ Expansion.ofTilde s t = txt "A=/home/me/b=~" ∧
      ∃ w : Word, parse s (fun _ => none) ('x' :: ' ' :: t) = .ok (some ⟨[⟨[⟨['x'],[],false⟩,w],[]⟩],false⟩) ∧
        w.text = Expansion.ofTilde s t ∧ w.spans = [] ∧ w.quoted = false := by
  intro s t
  have nonempty : t ≠ [] := by decide
  have plain : ∀ c ∈ t, isPlain c = true := List.all_eq_true.mp (by decide)
  exact ⟨nonempty,plain,by decide,parse_plainWord s nonempty plain⟩

end Pipeline
end JobShell

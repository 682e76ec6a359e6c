import JobShell.Proofs.Syntax.Injection
import JobShell.Proofs.Syntax.Joining

/-!
# Where the substitutions of a word come from

A substitution is a piece of the text that its word was read from: of the line,
or of the value of the alias that the line begins with. No value of a variable
brings one.
-/
namespace JobShell

namespace Substitution

/-- A text begins as a substitution is written. -/
def Begins (t : Text) : Prop := txt "$(" <+: t ∨ [backQuote] <+: t

theorem Begins.ne_nil {t : Text} (begins : Begins t) : t ≠ [] := by
  rintro rfl
  rcases begins with parens | ticks
  · cases List.prefix_nil.mp parens
  · cases List.prefix_nil.mp ticks

/-- A substitution that stands in a text as it is written. -/
structure StandsIn (span t : Text) : Prop where
  begins : Begins span
  inside : span <:+: t

theorem StandsIn.mono {span t u : Text} (stands : StandsIn span t) (inside : t <:+: u) : StandsIn span u :=
  ⟨stands.begins,stands.inside.trans inside⟩

end Substitution

open Substitution (StandsIn)

/-! ### Words -/

namespace Expansion

/-- The substitutions of a segment stand in its text. -/
theorem standsIn_body (s : Surroundings) {inDouble : Bool} {skip : Nat} {t span : Text}
    (mem : span ∈ Atom.commands (body s inDouble skip t)) : StandsIn span t := by
  induction t generalizing skip with
  | nil => simp [body,Atom.commands] at mem
  | cons c r ih =>
    have later : ∀ {k}, span ∈ Atom.commands (body s inDouble k r) → StandsIn span (c :: r) :=
      fun mem => (ih mem).mono (List.suffix_cons c r).isInfix
    cases skip with
    | succ k =>
      rw [body] at mem
      exact later mem
    | zero =>
      rw [body] at mem
      split_ifs at mem with escape dollarSign opens tick
      · cases next : r.head? with
        | none => simp [next,Atom.commands] at mem
        | some x =>
          simp only [next] at mem
          split_ifs at mem <;> exact later mem
      · rw [Atom.commands_command,List.mem_cons] at mem
        rcases mem with rfl | mem
        · obtain ⟨u,rfl⟩ := List.head?_eq_some_iff.mp opens
          subst dollarSign
          exact ⟨.inl ⟨_,rfl⟩,((List.prefix_cons_inj '$').mpr (List.take_prefix _ _)).isInfix⟩
        · exact later mem
      · rw [Atom.commands_append,Atom.commands_map_char,List.nil_append] at mem
        exact later mem
      · rw [Atom.commands_command,List.mem_cons] at mem
        rcases mem with rfl | mem
        · subst tick
          exact ⟨.inr ⟨_,rfl⟩,((List.prefix_cons_inj backQuote).mpr (List.take_prefix _ _)).isInfix⟩
        · exact later mem
      · exact later mem

/-- The substitutions of a word stand in the word as it is written. -/
theorem standsIn_segments (s : Surroundings) {first : Bool} {l : List Segment} {span : Text}
    (mem : span ∈ Atom.commands (segments s first l)) : StandsIn span (Lexeme.wordSource l) := by
  induction l generalizing first with
  | nil => simp [segments,Atom.commands] at mem
  | cons g r ih =>
    have source : Lexeme.wordSource (g :: r) = g.source ++ Lexeme.wordSource r := List.flatMap_cons
    have here : ∀ {t}, t <:+: g.source → StandsIn span t → StandsIn span (Lexeme.wordSource (g :: r)) := by
      intro t inside stands
      rw [source]
      exact stands.mono (inside.trans (List.prefix_append _ _).isInfix)
    have later : span ∈ Atom.commands (segments s false r) → StandsIn span (Lexeme.wordSource (g :: r)) := by
      intro mem
      rw [source]
      exact (ih mem).mono (List.suffix_append _ _).isInfix
    cases g with
    | single t =>
      rw [segments,Atom.commands_append,Atom.commands_map_char,List.nil_append] at mem
      exact later mem
    | double t =>
      rw [segments,Atom.commands_append,List.mem_append] at mem
      exact mem.elim (fun mem => here ⟨[doubleQuote],[doubleQuote],rfl⟩ (standsIn_body s mem)) later
    | bare t =>
      rw [commands_bare,List.mem_append] at mem
      exact mem.elim (fun mem => here (List.infix_refl t) (standsIn_body s mem)) later

end Expansion

/-! ### Lines -/

namespace Lexeme

/-- Every word stands in the line as it is written. -/
theorem wordSource_isInfix {skip : Nat} {t : Text} {l : List Lexeme} (lexemes : read skip t = .ok l)
    {segs : List Segment} (mem : .word segs ∈ l) : wordSource segs <:+: t := by
  induction t generalizing skip l with
  | nil =>
    cases lexemes
    cases mem
  | cons c r ih =>
    have later : ∀ {k m}, read k r = .ok m → .word segs ∈ m → wordSource segs <:+: c :: r :=
      fun lexemes mem => (ih lexemes mem).trans (List.suffix_cons c r).isInfix
    -- What an operator adds is no word.
    have operator : ∀ {k x}, (read k r).map (x :: ·) = .ok l → x ≠ .word segs → wordSource segs <:+: c :: r := by
      intro k x lexemes other
      obtain ⟨m,rest,rfl⟩ := exists_of_map lexemes
      exact later rest ((List.mem_cons.mp mem).resolve_left (Ne.symm other))
    cases skip with
    | succ k => exact later lexemes mem
    | zero =>
      rw [read] at lexemes
      split_ifs at lexemes
      · exact later lexemes mem
      any_goals exact operator lexemes (by simp)
      cases word : segments 0 (c :: r) with
      | error e =>
        rw [word] at lexemes
        cases lexemes
      | ok new =>
        simp only [word] at lexemes
        obtain ⟨m,rest,rfl⟩ := exists_of_map lexemes
        rcases List.mem_cons.mp mem with same | mem
        · cases same
          obtain ⟨after,whole⟩ := exists_wordSource word
          exact ⟨[],after,by rw [List.nil_append,← whole]⟩
        · exact later rest mem

end Lexeme

namespace Token

/-- The words among the tokens are written from pieces, and the substitutions among these stand in the text. -/
theorem written_of_ofText {s : Surroundings} {t : Text} {l : List Token} (tokens : ofText s t = .ok l) {w : Word}
    (mem : .word w ∈ l) : w.Written (StandsIn · t) := by
  obtain ⟨lexemes,read,rfl⟩ := Lexeme.exists_of_map tokens
  obtain ⟨x,here,same⟩ := List.mem_map.mp mem
  cases x with
  | word segs =>
    cases same
    exact Word.written_ofAtoms (fun span inside =>
      (Expansion.standsIn_segments s inside).mono (Lexeme.wordSource_isInfix read here)) _
  | _ => cases same

/-- The value of the alias that is put in the place of the first word of a line. -/
def applied? (s : Surroundings) (aliases : Text → Option Text) (line : Text) : Option Text :=
  match ofText s line with
  | .ok l => alias? aliases l
  | .error _ => none

theorem applied?_of_ofText {s : Surroundings} (aliases : Text → Option Text) {line : Text} {l : List Token}
    (tokens : ofText s line = .ok l) : applied? s aliases line = alias? aliases l := by
  rw [applied?,tokens]

/-- The tokens that a line is parsed from are its own and those of its alias. -/
theorem mem_of_spliceAlias {s : Surroundings} {aliases : Text → Option Text} {line : Text} {l m : List Token}
    (tokens : ofText s line = .ok l) (spliced : spliceAlias s aliases l = .ok m) {t : Token} (mem : t ∈ m) :
    t ∈ l ∨ ∃ value k, applied? s aliases line = some value ∧ ofText s value = .ok k ∧ t ∈ k := by
  rw [applied?_of_ofText aliases tokens]
  cases named : alias? aliases l with
  | none =>
    rw [spliceAlias,named] at spliced
    cases spliced
    exact .inl mem
  | some value =>
    rw [spliceAlias,named] at spliced
    obtain ⟨k,replacement,rfl⟩ := Lexeme.exists_of_map spliced
    rcases List.mem_append.mp mem with new | old
    · exact .inr ⟨value,k,rfl,replacement,new⟩
    · exact .inl (List.mem_of_mem_tail old)

end Token

/-! ### Pipelines -/

/-- The word that names the file of a redirection. -/
def Redirect.target? : Redirect → Option Word
  | .file _ w => some w
  | .duplicate _ _ => none

/-- The words of a command: its arguments and the targets of its redirections. -/
def Command.words (c : Command) : List Word := c.args ++ c.redirects.filterMap Redirect.target?

theorem Command.mem_words_arg {args : List Word} {redirects : List Redirect} {v w : Word} :
    w ∈ words ⟨args ++ [v],redirects⟩ ↔ w ∈ words ⟨args,redirects⟩ ∨ w = v := by
  simp only [words,List.mem_append,List.mem_singleton]
  exact or_right_comm

theorem Command.mem_words_redirect {args : List Word} {redirects : List Redirect} {x : Redirect} {w : Word} :
    w ∈ words ⟨args,redirects ++ [x]⟩ ↔ w ∈ words ⟨args,redirects⟩ ∨ x.target? = some w := by
  simp [words,or_assoc]

/-- The words of all commands. -/
def Pipeline.words (p : Pipeline) : List Word := p.commands.flatMap Command.words

namespace Pipeline

/-- What holds of the words among the tokens, and of those that were read before, holds of all words of the pipeline. -/
theorem forall_words_of_assemble {P : Word → Prop} {commands : List Command} {args : List Word}
    {redirects : List Redirect} {l : List Token} {p : Pipeline}
    (parsed : assemble commands args redirects l = .ok (some p)) (tokens : ∀ w, .word w ∈ l → P w)
    (before : ∀ w ∈ commands.flatMap Command.words, P w) (here : ∀ w ∈ Command.words ⟨args,redirects⟩, P w) :
    ∀ w ∈ p.words, P w := by
  have complete : ∀ {commands : List Command} {c : Command}, (∀ w ∈ commands.flatMap Command.words, P w) →
      (∀ w ∈ c.words, P w) → ∀ w ∈ (commands ++ [c]).flatMap Command.words, P w := by
    intro commands c before here w mem
    rw [List.flatMap_append,List.flatMap_singleton,List.mem_append] at mem
    exact mem.elim (before w) (here w)
  fun_induction assemble commands args redirects l with
  | case1 commands args redirects some_arg =>
    cases parsed
    exact complete before here
  | case4 commands args redirects v r ih =>
    refine ih parsed (fun w mem => tokens w (.tail _ mem)) before fun w mem => ?_
    rcases Command.mem_words_arg.mp mem with mem | rfl
    · exact here w mem
    · exact tokens w (.head _)
  | case6 commands args redirects r some_arg ih =>
    exact ih parsed (fun w mem => tokens w (.tail _ mem)) (complete before here) (fun w mem => by cases mem)
  | case8 commands args redirects r some_arg last =>
    cases parsed
    exact complete before here
  | case10 commands args redirects m v r ih =>
    refine ih parsed (fun w mem => tokens w (.tail _ (.tail _ mem))) before fun w mem => ?_
    rcases Command.mem_words_redirect.mp mem with mem | target
    · exact here w mem
    · cases target
      exact tokens v (.tail _ (.head _))
  | case12 commands args redirects d v r source number ih =>
    refine ih parsed (fun w mem => tokens w (.tail _ (.tail _ mem))) before fun w mem => ?_
    rcases Command.mem_words_redirect.mp mem with mem | target
    · exact here w mem
    · cases target
  | _ => cases parsed

/-- A line that is parsed has tokens, and they are put together once those of its alias are among them. -/
theorem exists_of_parse {s : Surroundings} {aliases : Text → Option Text} {line : Text} {p : Option Pipeline}
    (parsed : parse s aliases line = .ok p) :
    ∃ l m, Token.ofText s line = .ok l ∧ Token.spliceAlias s aliases l = .ok m ∧ assemble [] [] [] m = .ok p := by
  rw [parse] at parsed
  cases tokens : Token.ofText s line with
  | error e =>
    rw [tokens] at parsed
    cases parsed
  | ok l =>
    rw [tokens] at parsed
    cases spliced : Token.spliceAlias s aliases l with
    | error e =>
      simp only [bind,Except.bind,spliced] at parsed
      cases parsed
    | ok m =>
      simp only [bind,Except.bind,spliced] at parsed
      exact ⟨l,m,rfl,spliced,parsed⟩

/-- The words of a pipeline are written from pieces, and the substitutions among these stand in the line or in the value
    of its alias. -/
theorem written_of_parse {s : Surroundings} {aliases : Text → Option Text} {line : Text} {p : Pipeline}
    (parsed : parse s aliases line = .ok (some p)) {w : Word} (mem : w ∈ p.words) :
    w.Written fun span =>
      StandsIn span line ∨ ∃ value, Token.applied? s aliases line = some value ∧ StandsIn span value := by
  obtain ⟨l,m,tokens,spliced,whole⟩ := exists_of_parse parsed
  refine forall_words_of_assemble whole (fun w mem => ?_) (fun w mem => by cases mem) (fun w mem => by cases mem) w mem
  rcases Token.mem_of_spliceAlias tokens spliced mem with own | ⟨value,k,applied,replacement,new⟩
  · exact (Token.written_of_ofText tokens own).mono fun _ => .inl
  · exact (Token.written_of_ofText replacement new).mono fun _ stands => .inr ⟨value,applied,stands⟩

end Pipeline
end JobShell

import JobShell.Proofs.Session.Continuing
import JobShell.Proofs.Syntax.OpenQuotes

/-!
# Reading on while a quote is open

A command in which a quote is open is read on until a line has that quote. Until
then no line makes a pipeline of it: the quote stays open whatever stands on the
lines, and also where a backslash at the end of a line is dropped.
-/
namespace JobShell

open Lexeme (OpensAt EndsEscaping Endless)

/-! ### Lines -/

theorem Token.ofText_error_iff (s : Surroundings) {t : Text} {e : SyntaxError} :
    ofText s t = .error e ↔ Lexeme.ofLine t = .error e := by
  rw [ofText]
  cases Lexeme.ofLine t <;> simp [Except.map]

theorem Token.ofText_ok_iff (s : Surroundings) {t : Text} :
    (∃ l, ofText s t = .ok l) ↔ ∃ l, Lexeme.ofLine t = .ok l := by
  rw [ofText]
  cases Lexeme.ofLine t <;> simp [Except.map]

namespace Pipeline

/-- A line with an open quote makes no pipeline, and more of it is needed. -/
theorem parse_of_open (s : Surroundings) (aliases : Text → Option Text) {line : Text} {q : Char}
    (refused : Lexeme.ofLine line = .error (.unclosedQuote q)) :
    parse s aliases line = .error (.unclosedQuote q) ∧ needsMore s aliases line = true := by
  have parsed : parse s aliases line = .error (.unclosedQuote q) := by
    rw [parse,(Token.ofText_error_iff s).mpr refused]
    rfl
  exact ⟨parsed,by rw [needsMore,parsed,Bool.or_true]⟩

theorem trimEnd_quote {q : Char} (quote : q = singleQuote ∨ q = doubleQuote) (front : Text) :
    (Text.trimEnd (front ++ [q])).getLast? ≠ some backslash := by
  have visible : Text.trimEnd [q] = [q] := by rcases quote with rfl | rfl <;> rfl
  rw [Text.trimEnd_append,visible,if_neg (by simp),List.getLast?_concat]
  rcases quote with rfl | rfl <;> decide

/-- At the next quote more is needed when a backslash takes the quote along, or when a quote is open in the value of the
    alias of the line. -/
theorem needsMore_closing (s : Surroundings) (aliases : Text → Option Text) {line : Text} {q : Char}
    (refused : Lexeme.ofLine line = .error (.unclosedQuote q)) : ∃ front body, OpensAt line front q body ∧
      (needsMore s aliases (line ++ [q]) = true ↔ (q = doubleQuote ∧ EndsEscaping body) ∨
        ∃ value, Token.applied? s aliases (line ++ [q]) = some value ∧ Lexeme.Open value) := by
  obtain ⟨front,body,opens,escaped,closed⟩ := Lexeme.exists_closing refused
  have again : Lexeme.Open (line ++ [q]) ↔ q = doubleQuote ∧ EndsEscaping body := by
    refine ⟨fun ⟨_,still⟩ => ?_,fun escaping => ⟨q,escaped escaping⟩⟩
    by_contra closes
    obtain ⟨l,lexemes⟩ := closed closes
    rw [lexemes] at still
    cases still
  refine ⟨front,body,opens,?_⟩
  rw [needsMore_iff,again,or_iff_right (trimEnd_quote (Lexeme.isQuote_of_open refused) line)]

end Pipeline

namespace Act

/-- A line and the lines that are read on after it, joined as they are read. -/
def accumulated (line : Text) : List Text → Text
  | [] => line
  | next :: r => accumulated (continued line ++ next) r

/-- A line that goes on leaves its open quote open. -/
theorem open_continued {line : Text} {q : Char} (refused : Lexeme.ofLine line = .error (.unclosedQuote q)) :
    Lexeme.ofLine (continued line) = .error (.unclosedQuote q) := by
  obtain ⟨front,body,opens,endless,goesOn⟩ := Lexeme.exists_opensAt refused
  have split : line = (front ++ [q]) ++ body := by rw [opens.whole,List.append_assoc,List.singleton_append]
  obtain ⟨t,same,kept⟩ := exists_continued (Pipeline.trimEnd_quote endless.isQuote front) body
  have still : Endless q t := by
    rcases kept with cut | rfl
    · exact endless.of_prefix cut
    · exact endless.append (by rcases endless.isQuote with rfl | rfl <;> decide)
  rw [split,same,List.append_assoc,List.singleton_append,goesOn.opened t still]

theorem open_accumulated {line : Text} {q : Char} (refused : Lexeme.ofLine line = .error (.unclosedQuote q))
    {lines : List Text} (free : ∀ next ∈ lines, q ∉ next) :
    Lexeme.ofLine (accumulated line lines) = .error (.unclosedQuote q) := by
  induction lines generalizing line with
  | nil => exact refused
  | cons next r ih =>
    have longer := Lexeme.open_append (open_continued refused) (free next List.mem_cons_self)
    exact ih longer fun next mem => free next (List.mem_cons_of_mem _ mem)

section
variable {σ : Type} [Console σ] [Segmentation]

/-- What is read is the line with lines after it. When the input ends, it is what was to go on. -/
theorem exists_accumulated {v : Vocabulary} {fuel : Nat} {line command : Text} {seen rest : Bytes} {s t : Session σ}
    (read : Yields (readRest v fuel line seen) s (command,rest) t) :
    ∃ lines, command = accumulated line lines ∨ command = continued (accumulated line lines) := by
  induction fuel generalizing line seen s with
  | zero =>
    obtain ⟨same,-⟩ := (yields_pure _ _).unique read
    cases same
    exact ⟨[],.inl rfl⟩
  | succ fuel ih =>
    rcases readRest_cases read with ⟨-,rfl,-⟩ | ⟨-,⟨-,rfl⟩ | ⟨next,after,u,-,later⟩⟩
    · exact ⟨[],.inl rfl⟩
    · exact ⟨[],.inr rfl⟩
    · obtain ⟨lines,joined⟩ := ih later
      exact ⟨next :: lines,joined⟩

/-- **A quote is open until it is closed.** Let a line be refused because the quote `q` is open in it. The line is refused
    in the same way with any text after it that is without `q`. There is a text in front of the open quote that can be
    read, and a text after it; with `q` at its end the line can be read, unless `q` is a double quote and the text after
    the open quote ends in a backslash that takes it along, and then the line is refused as before.

    A command that begins with the line is read on as long as no line has `q`, and makes no pipeline; the same holds when
    the input ends before. At the next `q` it is complete, unless the quote is taken along or a quote is open in the value
    of its alias. -/
theorem open_until_closed {surroundings : Surroundings} {line : Text} {q : Char}
    (refused : Token.ofText surroundings line = .error (.unclosedQuote q)) :
    (∀ t, q ∉ t → Token.ofText surroundings (line ++ t) = .error (.unclosedQuote q)) ∧
    (∃ front body, OpensAt line front q body ∧
      (q = doubleQuote ∧ EndsEscaping body → Token.ofText surroundings (line ++ [q]) = .error (.unclosedQuote q)) ∧
      (¬(q = doubleQuote ∧ EndsEscaping body) → ∃ l, Token.ofText surroundings (line ++ [q]) = .ok l)) ∧
    (∀ lines, (∀ next ∈ lines, q ∉ next) → ∀ s aliases,
      let typed := accumulated line lines
      Pipeline.parse s aliases typed = .error (.unclosedQuote q) ∧ Pipeline.needsMore s aliases typed = true ∧
      ∃ front body, OpensAt typed front q body ∧
        (Pipeline.needsMore s aliases (typed ++ [q]) = true ↔ (q = doubleQuote ∧ EndsEscaping body) ∨
          ∃ value, Token.applied? s aliases (typed ++ [q]) = some value ∧ Lexeme.Open value)) ∧
    ∀ {v fuel command seen rest} {start finish : Session σ},
      Yields (readRest v fuel line seen) start (command,rest) finish →
      ∃ lines, (command = accumulated line lines ∨ command = continued (accumulated line lines)) ∧
        ((∀ next ∈ lines, q ∉ next) → ∀ s aliases, Pipeline.parse s aliases command = .error (.unclosedQuote q)) := by
  rw [Token.ofText_error_iff] at refused
  obtain ⟨front,body,opens,escaped,closed⟩ := Lexeme.exists_closing refused
  refine ⟨fun t free => ?_,⟨front,body,opens,fun escaping => ?_,fun closes => ?_⟩,fun lines free s aliases => ?_,?_⟩
  · rw [Token.ofText_error_iff]
    exact Lexeme.open_append refused free
  · rw [Token.ofText_error_iff]
    exact escaped escaping
  · rw [Token.ofText_ok_iff]
    exact closed closes
  · have still := open_accumulated refused free
    obtain ⟨parsed,more⟩ := Pipeline.parse_of_open s aliases still
    exact ⟨parsed,more,Pipeline.needsMore_closing s aliases still⟩
  · intro v fuel command seen rest start finish read
    obtain ⟨lines,joined⟩ := exists_accumulated read
    refine ⟨lines,joined,fun free s aliases => ?_⟩
    have still := open_accumulated refused free
    rcases joined with rfl | rfl
    · exact (Pipeline.parse_of_open s aliases still).1
    · exact (Pipeline.parse_of_open s aliases (open_continued still)).1

end

/-- A line whose double quotes are closed before its single quote is opened. -/
theorem open_until_closed_apostrophe :
    Token.ofText ⟨0,fun _ => none,fun _ => none⟩ (txt "a \x22b\x22 \x27c") = .error (.unclosedQuote singleQuote) ∧
    Token.ofText ⟨0,fun _ => none,fun _ => none⟩ (txt "a \x22b\x22 \x27c" ++ txt "\x22 $(") =
      .error (.unclosedQuote singleQuote) := by
  have refused : Token.ofText ⟨0,fun _ => none,fun _ => none⟩ (txt "a \x22b\x22 \x27c") =
      .error (.unclosedQuote singleQuote) := rfl
  exact ⟨refused,(open_until_closed (σ := Machine) refused).1 _ (by decide)⟩

/-- The alias with an apostrophe: more is asked for after the quote is closed. -/
theorem needsMore_closed_apostrophe :
    let s := apostropheSession.surroundings
    let typed := accumulated (txt "x \x22a") [[doubleQuote]]
    Token.ofText s (txt "x \x22a") = .error (.unclosedQuote doubleQuote) ∧ (∃ l, Token.ofText s typed = .ok l) ∧
    Pipeline.needsMore s apostropheSession.shell.aliases.get? typed = true :=
  ⟨rfl,⟨_,rfl⟩,rfl⟩

end Act
end JobShell

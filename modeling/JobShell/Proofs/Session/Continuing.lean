import JobShell.Proofs.Session.Acting
import JobShell.Proofs.Syntax.Origins
import JobShell.Session.Interactive
import JobShell.System.Machine.Start
import JobShell.Text.Cluster

/-!
# When a command is complete

A command is read on while a quote is open in it or its last line ends with a
backslash. A quote is open for the reader also when it is the value of an alias
that has it, and the command itself has none.
-/
namespace JobShell

/-- A quote is open at the end of a text. -/
def Lexeme.Open (t : Text) : Prop := ∃ q, ofLine t = .error (.unclosedQuote q)

/-! ### Whether a line is complete -/

/-- A quote is open in a text exactly when it is refused for that as a line of tokens. -/
theorem Token.open_iff_ofText (s : Surroundings) {t : Text} :
    Lexeme.Open t ↔ ∃ q, ofText s t = .error (.unclosedQuote q) := by
  rw [Lexeme.Open,ofText]
  cases Lexeme.ofLine t <;> simp [Except.map]

namespace Pipeline

/-- Tokens have no open quotes: nothing that is wrong with their order is one. -/
theorem assemble_ne_unclosed {commands : List Command} {args : List Word} {redirects : List Redirect} {l : List Token}
    {q : Char} : assemble commands args redirects l ≠ .error (.unclosedQuote q) := by
  fun_induction assemble commands args redirects l <;> simp_all

/-- A line is refused for a quote that is open in it or in the value of its alias. -/
theorem parse_unclosed_iff {s : Surroundings} {aliases : Text → Option Text} {line : Text} :
    (∃ q, parse s aliases line = .error (.unclosedQuote q)) ↔
      Lexeme.Open line ∨ ∃ value, Token.applied? s aliases line = some value ∧ Lexeme.Open value := by
  rw [parse,Token.open_iff_ofText s]
  cases tokens : Token.ofText s line with
  | error e => simp [bind,Except.bind,Token.applied?,tokens]
  | ok l =>
    rw [Token.applied?_of_ofText aliases tokens]
    cases named : Token.alias? aliases l with
    | none => simp [bind,Except.bind,Token.spliceAlias,named,assemble_ne_unclosed]
    | some value =>
      simp only [bind,Except.bind,Token.spliceAlias,named,Option.some.injEq,exists_eq_left',reduceCtorEq,exists_false,
        false_or,Token.open_iff_ofText s]
      cases Token.ofText s value <;> simp [Except.map,assemble_ne_unclosed]

/-- More input is asked for exactly after a backslash, and when a quote is open in the line or in the value of its
    alias. -/
theorem needsMore_iff {s : Surroundings} {aliases : Text → Option Text} {line : Text} :
    needsMore s aliases line = true ↔ (Text.trimEnd line).getLast? = some backslash ∨
      Lexeme.Open line ∨ ∃ value, Token.applied? s aliases line = some value ∧ Lexeme.Open value := by
  rw [needsMore,Bool.or_eq_true,decide_eq_true_eq,← parse_unclosed_iff]
  refine or_congr Iff.rfl ?_
  cases parse s aliases line with
  | ok p => simp
  | error e => cases e <;> simp

end Pipeline

/-! ### Reading on -/

theorem Text.trimEnd_append (a b : Text) :
    trimEnd (a ++ b) = if (trimEnd b).isEmpty then trimEnd a else a ++ trimEnd b := by
  simp only [trimEnd,dropEndWhile,List.reverse_append,List.dropWhile_append,List.isEmpty_reverse]
  split <;> simp

theorem Text.trimEnd_prefix (t : Text) : trimEnd t <+: t := by
  rw [trimEnd,dropEndWhile,← List.reverse_suffix,List.reverse_reverse]
  exact List.dropWhile_suffix _

/-- What words are expanded with in a session. -/
def Session.surroundings {σ : Type} [Kernel σ] (s : Session σ) : Surroundings :=
  ⟨s.shell.lastStatus,(Kernel.environment s.system).get?,Kernel.homeOf s.system⟩

namespace Act
variable {σ : Type}

theorem yields_surroundings [Kernel σ] (s : Session σ) : Yields surroundings s s.surroundings s := rfl

/-- A line that is to go on still begins as it did, unless a backslash ended that beginning. What comes after the
    beginning is cut off, or goes on with a line feed. -/
theorem exists_continued {front : Text} (whole : (Text.trimEnd front).getLast? ≠ some backslash) (tail : Text) :
    ∃ t, continued (front ++ tail) = front ++ t ∧ (t <+: tail ∨ t = tail ++ ['\n']) := by
  rw [continued]
  split_ifs with slash
  · rw [Text.trimEnd_append] at slash ⊢
    split_ifs at slash ⊢ with blank
    · exact absurd slash whole
    · rw [List.dropLast_append_of_ne_nil (by simpa using blank)]
      exact ⟨_,rfl,.inl ((List.dropLast_prefix _).trans (Text.trimEnd_prefix tail))⟩
  · exact ⟨_,List.append_assoc _ _ _,.inr rfl⟩

theorem isPrefix_continued {front line : Text} (whole : (Text.trimEnd front).getLast? ≠ some backslash)
    (begins : front <+: line) : front <+: continued line := by
  obtain ⟨tail,rfl⟩ := begins
  obtain ⟨t,same,_⟩ := exists_continued whole tail
  rw [same]
  exact List.prefix_append _ _

section
variable [Console σ] [Segmentation]

/-- What a round of reading on does: the line is complete, or it goes on until the input ends, or with another line. -/
theorem readRest_cases {v : Vocabulary} {fuel : Nat} {line command : Text} {seen rest : Bytes} {s t : Session σ}
    (read : Yields (readRest v (fuel+1) line seen) s (command,rest) t) :
    (Pipeline.needsMore s.surroundings s.shell.aliases.get? line = false ∧ command = line ∧ rest = seen ∧ t = s) ∨
    Pipeline.needsMore s.surroundings s.shell.aliases.get? line = true ∧
      ((Yields (readLine (txt "> ") v seen) s (none,rest) t ∧ command = continued line) ∨
        ∃ next after u, Yields (readLine (txt "> ") v seen) s (some next,after) u ∧
          Yields (readRest v fuel (continued line ++ next) after) u (command,rest) t) := by
  obtain ⟨_,_,here,read⟩ := read.exists_of_bind
  obtain ⟨rfl,rfl⟩ := (yields_surroundings s).unique here
  obtain ⟨_,_,here,read⟩ := read.exists_of_bind
  obtain ⟨rfl,rfl⟩ := (yields_shell s).unique here
  split_ifs at read with more
  · obtain ⟨⟨next,after⟩,u,input,read⟩ := read.exists_of_bind
    cases next with
    | none =>
      obtain ⟨same,rfl⟩ := (yields_pure _ _).unique read
      cases same
      exact .inr ⟨more,.inl ⟨input,rfl⟩⟩
    | some next => exact .inr ⟨more,.inr ⟨next,after,u,input,read⟩⟩
  · obtain ⟨same,rfl⟩ := (yields_pure _ _).unique read
    cases same
    exact .inl ⟨Bool.eq_false_iff.mpr more,rfl,rfl,rfl⟩

/-- Lines that are read on are added after what was typed. -/
theorem isPrefix_of_readRest {v : Vocabulary} {fuel : Nat} {front line command : Text} {seen rest : Bytes}
    {s t : Session σ} (whole : (Text.trimEnd front).getLast? ≠ some backslash) (begins : front <+: line)
    (read : Yields (readRest v fuel line seen) s (command,rest) t) : front <+: command := by
  -- The induction is on the number of lines that may still be read; what is kept is how the line begins.
  induction fuel generalizing line seen s with
  | zero =>
    obtain ⟨same,-⟩ := (yields_pure _ _).unique read
    cases same
    exact begins
  | succ fuel ih =>
    rcases readRest_cases read with ⟨-,rfl,-⟩ | ⟨-,⟨-,rfl⟩ | ⟨next,after,u,-,later⟩⟩
    · exact begins
    · exact isPrefix_continued whole begins
    · exact ih ((isPrefix_continued whole begins).trans (List.prefix_append _ _)) later

/-- When more of a line is needed, it ends up with a line feed after it. -/
theorem isPrefix_of_needsMore {v : Vocabulary} {fuel : Nat} {line command : Text} {seen rest : Bytes}
    {s t : Session σ} (whole : (Text.trimEnd line).getLast? ≠ some backslash)
    (more : Pipeline.needsMore s.surroundings s.shell.aliases.get? line = true)
    (read : Yields (readRest v (fuel+1) line seen) s (command,rest) t) : line ++ ['\n'] <+: command := by
  have joined : continued line = line ++ ['\n'] := if_neg whole
  -- With its line feed the line is a beginning that no backslash ends, so all that is read on comes after it.
  have whole' : (Text.trimEnd (line ++ ['\n'])).getLast? ≠ some backslash := by
    have blank : (Text.trimEnd ['\n']).isEmpty = true := rfl
    rw [Text.trimEnd_append,if_pos blank]
    exact whole
  rcases readRest_cases read with ⟨enough,-⟩ | ⟨-,⟨-,rfl⟩ | ⟨next,after,u,-,later⟩⟩
  · exact absurd more (Bool.eq_false_iff.mp enough)
  · exact joined ▸ List.prefix_rfl
  · rw [joined] at later
    exact isPrefix_of_readRest whole' (List.prefix_append _ _) later

/-- A line is taken as it is exactly when no more of it is needed. -/
theorem yields_readRest_iff {v : Vocabulary} {fuel : Nat} {line : Text} {seen : Bytes} {s : Session σ}
    (whole : (Text.trimEnd line).getLast? ≠ some backslash) :
    Yields (readRest v (fuel+1) line seen) s (line,seen) s ↔
      Pipeline.needsMore s.surroundings s.shell.aliases.get? line = false := by
  constructor
  · intro read
    rw [Bool.eq_false_iff]
    intro more
    have longer := (isPrefix_of_needsMore whole more read).length_le
    rw [List.length_append,List.length_singleton] at longer
    exact Nat.not_succ_le_self _ longer
  · intro complete
    refine (yields_surroundings s).bind ((yields_shell s).bind ?_)
    rw [if_neg (Bool.eq_false_iff.mp complete)]
    exact yields_pure _ s

/-- A command is its first line with the lines that are read on. -/
theorem yields_readCommand_iff {v : Vocabulary} {line command : Text} {seen left rest : Bytes} {s t u : Session σ}
    (first : Yields (readLine (Prompt.ofSession s) v seen) s (some line,left) t) :
    Yields (readCommand v seen) s (some command,rest) u ↔
      Yields (readRest v (Console.inputLeft t.system + left.length + 1) line left) t (command,rest) u := by
  have current : Yields (get : Act σ (Session σ)) s s s := rfl
  constructor
  · intro read
    obtain ⟨_,_,here,read⟩ := read.exists_of_bind
    obtain ⟨rfl,rfl⟩ := current.unique here
    obtain ⟨_,_,here,read⟩ := read.exists_of_bind
    obtain ⟨same,rfl⟩ := first.unique here
    cases same
    obtain ⟨_,_,here,read⟩ := read.exists_of_bind
    obtain ⟨rfl,rfl⟩ := (yields_system t).unique here
    obtain ⟨⟨command,rest⟩,_,more,done⟩ := read.exists_of_bind
    obtain ⟨same,rfl⟩ := (yields_pure _ _).unique done
    cases same
    exact more
  · intro more
    refine current.bind (first.bind ?_)
    exact (yields_system t).bind (more.bind (yields_pure _ u))

/-- **When a command is complete.** Let no quote be open in a line, and let no backslash end it. Then no more of it is
    needed, and no further line is asked for, exactly when no quote is open in the value of its alias. This holds of what
    has been read after several lines and of the first line of a command. -/
theorem readCommand_complete_iff {s : Session σ} {line : Text} (closed : ¬Lexeme.Open line)
    (whole : (Text.trimEnd line).getLast? ≠ some backslash) :
    let complete := ∀ value, Token.applied? s.surroundings s.shell.aliases.get? line = some value → ¬Lexeme.Open value
    (Pipeline.needsMore s.surroundings s.shell.aliases.get? line = false ↔ complete) ∧
    (∀ v fuel seen, Yields (readRest v (fuel+1) line seen) s (line,seen) s ↔ complete) ∧
    ∀ v seen left start, Yields (readLine (Prompt.ofSession start) v seen) start (some line,left) s →
      (Yields (readCommand v seen) start (some line,left) s ↔ complete) := by
  intro complete
  have needed : Pipeline.needsMore s.surroundings s.shell.aliases.get? line = false ↔ complete := by
    rw [Bool.eq_false_iff,ne_eq,Pipeline.needsMore_iff]
    simp only [whole,closed,false_or,not_exists,not_and,complete]
  have more : ∀ v fuel seen, Yields (readRest v (fuel+1) line seen) s (line,seen) s ↔ complete :=
    fun v fuel seen => (yields_readRest_iff whole).trans needed
  exact ⟨needed,more,fun v seen left start first => (yields_readCommand_iff first).trans (more v _ left)⟩

end

/-- A machine on which two aliases are bound, one to a text with an apostrophe. -/
def apostropheSession : Session Machine :=
  let m := Machine.start ⟨[]⟩ [] [] .empty 0
  ⟨{ Shell.start (.inMemory 10 true) m with aliases := [(txt "ll",txt "ls -l"),(txt "x",txt "it\x27s")] },m⟩

/-- The alias without an apostrophe. -/
theorem readCommand_complete_listing :
    ¬Lexeme.Open (txt "ll a") ∧ Pipeline.needsMore apostropheSession.surroundings
      apostropheSession.shell.aliases.get? (txt "ll a") = false ∧
    Yields (readRest ⟨.empty,[]⟩ 1 (txt "ll a") []) apostropheSession (txt "ll a",[]) apostropheSession := by
  have closed : ¬Lexeme.Open (txt "ll a") := fun ⟨_,error⟩ => nomatch error
  have fine : ∀ value, Token.applied? apostropheSession.surroundings apostropheSession.shell.aliases.get?
      (txt "ll a") = some value → ¬Lexeme.Open value := by
    intro value applied
    obtain rfl : txt "ls -l" = value := Option.some.inj applied
    exact fun ⟨_,error⟩ => nomatch error
  obtain ⟨complete,read,-⟩ := readCommand_complete_iff (s := apostropheSession) closed (by decide)
  exact ⟨closed,complete.mpr fine,(read _ 0 _).mpr fine⟩

/-- The alias with an apostrophe: another line is asked for after a name without quotes. -/
theorem needsMore_apostrophe :
    ¬Lexeme.Open (txt "x") ∧ (Text.trimEnd (txt "x")).getLast? ≠ some backslash ∧
    Pipeline.needsMore apostropheSession.surroundings apostropheSession.shell.aliases.get? (txt "x") = true :=
  ⟨(fun ⟨_,error⟩ => nomatch error),by decide,rfl⟩

end Act
end JobShell

import JobShell.Proofs.Syntax.Expanding
import JobShell.Proofs.Syntax.Spans
import JobShell.Syntax.Pipeline
import Mathlib.Data.List.Forall2
import Mathlib.Tactic.SplitIfs

/-!
# What expansion cannot change

The value of a variable, of the last status or of a tilde is text of one word and
nothing else. Two parses of a line in different surroundings have the same shape:
the same commands, as many words, the same redirections, and in every word the
same substitutions.
-/
namespace JobShell

/-! ## Shapes -/

/-- What is left of a word without its text: whether it is quoted, and its substitutions. -/
structure WordShape where
  quoted : Bool
  substitutions : List (Option Text)
  deriving DecidableEq

/-- What is left of a redirection without the text of its target, or without the descriptor that is duplicated. -/
inductive RedirectShape where
  | file (mode : FileMode) (target : WordShape)
  | duplicate (descriptor : Int)
  deriving DecidableEq

/-- What is left of a command without the texts of its words. -/
structure CommandShape where
  args : List WordShape
  redirects : List RedirectShape
  deriving DecidableEq

/-- What is left of a pipeline without the texts of its words. -/
structure PipelineShape where
  commands : List CommandShape
  background : Bool
  deriving DecidableEq

/-- The shape of a word. Its substitutions are the parts of the text at their byte ranges. -/
def Word.shape (w : Word) : WordShape := ⟨w.quoted,w.slices⟩

/-- The shape of a redirection. -/
def Redirect.shape : Redirect → RedirectShape
  | .file m w => .file m w.shape
  | .duplicate d _ => .duplicate d

/-- The shape of a command. -/
def Command.shape (c : Command) : CommandShape := ⟨c.args.map Word.shape,c.redirects.map Redirect.shape⟩

/-- The shape of a pipeline. -/
def Pipeline.shape (p : Pipeline) : PipelineShape := ⟨p.commands.map Command.shape,p.background⟩

/-- The shape of what a line is parsed as. Errors are kept as they are. -/
def Pipeline.outcome (r : Except SyntaxError (Option Pipeline)) : Except SyntaxError (Option PipelineShape) :=
  r.map (Option.map Pipeline.shape)

/-! ## Words -/

namespace Expansion
variable (s s' : Surroundings)

/-- How much of the text a dollar sign uses does not depend on the values. -/
theorem dollar_length (t : Text) : (dollar s t).2 = (dollar s' t).2 := by
  cases t with
  | nil => rfl
  | cons c r =>
    simp only [dollar]
    split_ifs <;> rfl

/-- The substitutions of a segment are those of its source. -/
theorem commands_body (inDouble : Bool) (skip : Nat) (t : Text) :
    Atom.commands (body s inDouble skip t) = Atom.commands (body s' inDouble skip t) := by
  induction t generalizing skip with
  | nil => rfl
  | cons c r ih =>
    cases skip with
    | succ k => simpa only [body] using ih k
    | zero =>
      simp only [body]
      split_ifs with escape dollarSign opens tick
      · cases r.head? with
        | none => rfl
        | some x =>
          dsimp only
          split_ifs
          · simpa using ih 1
          · simpa using ih 0
      · simpa using ih _
      · rw [Atom.commands_append,Atom.commands_append,Atom.commands_map_char,Atom.commands_map_char,
          dollar_length s s',ih]
      · simpa using ih _
      · simpa using ih 0

/-- A home directory brings no substitution, and takes none away. -/
theorem commands_tilde {last : Bool} {t before home tail : Text} (h : tilde? s last t = some (before,home,tail)) :
    Atom.commands (body s false 0 tail) = Atom.commands (body s false 0 t) := by
  obtain ⟨user,whole,plainBefore,plainUser⟩ := tilde?_eq_some h
  have plain : (before ++ '~' :: user).any isSpecial = false := by
    rw [List.any_append,List.any_cons,plainBefore,plainUser]
    decide
  have split : t = (before ++ '~' :: user) ++ tail := by rw [whole]; simp
  rw [split,body_append s false plain,Atom.commands_append,Atom.commands_map_char,List.nil_append]

/-- A segment without quotes has the substitutions that it would have without any tilde. -/
theorem commands_bare (first : Bool) (t : Text) (r : List Segment) :
    Atom.commands (segments s first (.bare t :: r)) =
      Atom.commands (body s false 0 t) ++ Atom.commands (segments s false r) := by
  rw [segments,Atom.commands_append]
  congr 1
  split
  · rename_i before home tail found
    have tilde : tilde? s r.isEmpty t = some (before,home,tail) := by
      cases first with
      | true => exact found
      | false => cases found
    rw [Atom.commands_append,Atom.commands_map_char,List.nil_append,commands_tilde s tilde]
  · rfl

theorem commands_segments (first : Bool) (l : List Segment) :
    Atom.commands (segments s first l) = Atom.commands (segments s' first l) := by
  induction l generalizing first with
  | nil => rfl
  | cons g r ih =>
    cases g with
    | single t => rw [segments,segments,Atom.commands_append,Atom.commands_append,ih]
    | double t => rw [segments,segments,Atom.commands_append,Atom.commands_append,commands_body s s',ih]
    | bare t => rw [commands_bare,commands_bare,commands_body s s',ih]

theorem shape_word (l : List Segment) : (word s l).shape = (word s' l).shape := by
  rw [Word.shape,Word.shape,word,word,Word.slices_ofAtoms,Word.slices_ofAtoms,commands_segments s s' true l,
    Word.quoted_ofAtoms,Word.quoted_ofAtoms]

end Expansion

/-! ## Pipelines -/

/-- Tokens of the same shape. -/
inductive Token.Alike : Token → Token → Prop
  | word {v w : Word} (same : v.shape = w.shape) : Alike (.word v) (.word w)
  | pipe : Alike .pipe .pipe
  | ampersand : Alike .ampersand .ampersand
  | redirect (m : FileMode) : Alike (.redirect m) (.redirect m)
  | duplicate (d : Int) : Alike (.duplicate d) (.duplicate d)

theorem Token.alike_ofLexeme (s s' : Surroundings) (x : Lexeme) : Token.Alike (ofLexeme s x) (ofLexeme s' x) := by
  cases x with
  | word l => exact .word (Expansion.shape_word s s' l)
  | pipe => exact .pipe
  | ampersand => exact .ampersand
  | redirect m => exact .redirect m
  | duplicate d => exact .duplicate d

theorem Token.forall₂_alike (s s' : Surroundings) (l : List Lexeme) :
    List.Forall₂ Token.Alike (l.map (ofLexeme s)) (l.map (ofLexeme s')) := by
  rw [List.forall₂_map_left_iff,List.forall₂_map_right_iff,List.forall₂_same]
  exact fun x _ => alike_ofLexeme s s' x

namespace Pipeline

/-- Commands, words and redirections that were put together so far, in two parses of the same shape. -/
structure AlikeSoFar (commands commands' : List Command) (args args' : List Word)
    (redirects redirects' : List Redirect) : Prop where
  commands : commands.map Command.shape = commands'.map Command.shape
  args : args.map Word.shape = args'.map Word.shape
  redirects : redirects.map Redirect.shape = redirects'.map Redirect.shape

section
variable {commands commands' : List Command} {args args' : List Word} {redirects redirects' : List Redirect}

theorem AlikeSoFar.word (h : AlikeSoFar commands commands' args args' redirects redirects') {v w : Word}
    (same : v.shape = w.shape) : AlikeSoFar commands commands' (args ++ [v]) (args' ++ [w]) redirects redirects' :=
  ⟨h.commands,by simp [h.args,same],h.redirects⟩

theorem AlikeSoFar.redirect (h : AlikeSoFar commands commands' args args' redirects redirects') {a b : Redirect}
    (same : a.shape = b.shape) : AlikeSoFar commands commands' args args' (redirects ++ [a]) (redirects' ++ [b]) :=
  ⟨h.commands,h.args,by simp [h.redirects,same]⟩

/-- The commands with the one that is complete. -/
theorem AlikeSoFar.complete (h : AlikeSoFar commands commands' args args' redirects redirects') :
    (commands ++ [Command.mk args redirects]).map Command.shape =
      (commands' ++ [Command.mk args' redirects']).map Command.shape := by
  simp [Command.shape,h.commands,h.args,h.redirects]

theorem isEmpty_of_map_eq {α β : Type} {f : α → β} {l m : List α} (h : l.map f = m.map f) : l.isEmpty = m.isEmpty := by
  rw [← List.isEmpty_map (f := f),h,List.isEmpty_map]

/-- Whether the next token is a word. -/
def startsWithWord : List Token → Bool
  | .word _ :: _ => true
  | _ => false

theorem startsWithWord_eq_false {l : List Token} (other : ∀ w r, l = .word w :: r → False) :
    startsWithWord l = false := by
  unfold startsWithWord
  split
  · rename_i w r
    exact (other w r rfl).elim
  · rfl

theorem startsWithWord_alike {l m : List Token} (alike : List.Forall₂ Token.Alike l m) :
    startsWithWord l = startsWithWord m := by
  cases alike with
  | nil => rfl
  | cons first _ => cases first <;> rfl

theorem assemble_redirect {l : List Token} (noWord : startsWithWord l = false) (commands : List Command)
    (args : List Word) (redirects : List Redirect) (m : FileMode) :
    assemble commands args redirects (.redirect m :: l) = .error .missingRedirectTarget := by
  cases l with
  | nil => rfl
  | cons t r => cases t <;> first | rfl | cases noWord

theorem assemble_duplicate {l : List Token} (noWord : startsWithWord l = false) (commands : List Command)
    (args : List Word) (redirects : List Redirect) (d : Int) :
    assemble commands args redirects (.duplicate d :: l) = .error .missingRedirectTarget := by
  cases l with
  | nil => rfl
  | cons t r => cases t <;> first | rfl | cases noWord

/-- Tokens of the same shape are put together to pipelines of the same shape, unless one of them has a bad descriptor. -/
theorem assemble_alike {l m : List Token} (alike : List.Forall₂ Token.Alike l m)
    (h : AlikeSoFar commands commands' args args' redirects redirects')
    (good : assemble commands args redirects l ≠ .error .badDescriptor)
    (good' : assemble commands' args' redirects' m ≠ .error .badDescriptor) :
    outcome (assemble commands args redirects l) = outcome (assemble commands' args' redirects' m) := by
  fun_induction assemble commands args redirects l generalizing commands' args' redirects' m with
  | case1 commands args redirects some_arg =>
    cases alike
    rw [isEmpty_of_map_eq h.args] at some_arg
    rw [assemble,if_pos some_arg]
    simp only [outcome,Except.map,Option.map,shape,h.complete]
  | case2 commands args redirects no_arg nothing =>
    cases alike
    rw [isEmpty_of_map_eq h.args] at no_arg
    rw [isEmpty_of_map_eq h.commands,isEmpty_of_map_eq h.redirects] at nothing
    rw [assemble,if_neg no_arg,if_pos nothing]
  | case3 commands args redirects no_arg something =>
    cases alike
    rw [isEmpty_of_map_eq h.args] at no_arg
    rw [isEmpty_of_map_eq h.commands,isEmpty_of_map_eq h.redirects] at something
    rw [assemble,if_neg no_arg,if_neg something]
  | case4 commands args redirects w r ih =>
    cases alike with
    | cons first rest =>
      cases first with
      | word same =>
        rw [assemble] at good' ⊢
        exact ih rest (h.word same) good good'
  | case5 commands args redirects r no_arg =>
    cases alike with
    | cons first rest =>
      cases first
      rw [isEmpty_of_map_eq h.args] at no_arg
      rw [assemble,if_pos no_arg]
  | case6 commands args redirects r some_arg ih =>
    cases alike with
    | cons first rest =>
      cases first
      rw [isEmpty_of_map_eq h.args] at some_arg
      rw [assemble,if_neg some_arg] at good' ⊢
      exact ih rest ⟨h.complete,rfl,rfl⟩ good good'
  | case7 commands args redirects r no_arg =>
    cases alike with
    | cons first rest =>
      cases first
      rw [isEmpty_of_map_eq h.args] at no_arg
      rw [assemble,if_pos no_arg]
  | case8 commands args redirects r some_arg last =>
    cases alike with
    | cons first rest =>
      cases first
      obtain rfl := List.isEmpty_iff.mp last
      cases rest
      rw [isEmpty_of_map_eq h.args] at some_arg
      rw [assemble,if_neg some_arg]
      simp only [outcome,Except.map,Option.map,shape,h.complete,List.isEmpty_nil,if_true]
  | case9 commands args redirects r some_arg more =>
    cases alike with
    | cons first rest =>
      cases first
      rw [isEmpty_of_map_eq h.args] at some_arg
      cases rest with
      | nil => exact absurd rfl more
      | cons _ _ => rw [assemble,if_neg some_arg]; rfl
  | case10 commands args redirects m w r ih =>
    cases alike with
    | cons first rest =>
      cases first
      cases rest with
      | cons target rest =>
        cases target with
        | word same =>
          rw [assemble] at good' ⊢
          exact ih rest (h.redirect (by simp [Redirect.shape,same])) good good'
  | case11 commands args redirects m r other =>
    cases alike with
    | cons first rest =>
      cases first
      have noWord := startsWithWord_eq_false other
      rw [assemble_redirect ((startsWithWord_alike rest).symm.trans noWord)]
  | case12 commands args redirects d w r source number ih =>
    cases alike with
    | cons first rest =>
      cases first
      cases rest with
      | cons target rest =>
        cases target with
        | @word _ v same =>
          cases number' : Numeral.readInt Numeral.maxInt32 v.text with
          | none => exact absurd (by simp [assemble,number']) good'
          | some source' =>
            simp only [assemble,number'] at good' ⊢
            exact ih rest (h.redirect rfl) good good'
  | case13 commands args redirects d w r number => exact absurd rfl good
  | case14 commands args redirects d r other =>
    cases alike with
    | cons first rest =>
      cases first
      have noWord := startsWithWord_eq_false other
      rw [assemble_duplicate ((startsWithWord_alike rest).symm.trans noWord)]

/-- **No injection.** A line is parsed in two surroundings. When in neither of them its first word names an alias,
    and none of the two parses ends with a bad descriptor, both end with the same error, or with no pipeline, or
    with pipelines of the same shape. -/
theorem outcome_parse (aliases : Text → Option Text) (line : Text) (s s' : Surroundings)
    (unbound : ∀ l, Token.ofText s line = .ok l → Token.alias? aliases l = none)
    (unbound' : ∀ l, Token.ofText s' line = .ok l → Token.alias? aliases l = none)
    (good : parse s aliases line ≠ .error .badDescriptor) (good' : parse s' aliases line ≠ .error .badDescriptor) :
    outcome (parse s aliases line) = outcome (parse s' aliases line) := by
  have unfolded : ∀ s, (∀ l, Token.ofText s line = .ok l → Token.alias? aliases l = none) →
      parse s aliases line = (Lexeme.ofLine line).bind (fun l => assemble [] [] [] (l.map (Token.ofLexeme s))) := by
    intro s unbound
    rw [Token.ofText] at unbound
    rw [parse,Token.ofText]
    cases lexemes : Lexeme.ofLine line with
    | error e => rfl
    | ok l =>
      rw [lexemes] at unbound
      simp only [Except.map,bind,Except.bind,Token.spliceAlias,unbound _ rfl]
  rw [unfolded s unbound] at good ⊢
  rw [unfolded s' unbound'] at good' ⊢
  cases lexemes : Lexeme.ofLine line with
  | error e => rfl
  | ok l =>
    rw [lexemes] at good good'
    exact assemble_alike (Token.forall₂_alike s s' l) ⟨rfl,rfl,rfl⟩ good good'

/-- Surroundings with a value for the variable `A` and a home directory. -/
def surroundingsWith (value home : Text) (status : Int) : Surroundings where
  status := status
  valueOf name := if name = ['A'] then some value else if name = txt "HOME" then some home else none
  homeOf _ := none

/-- A value that looks like operators and one that looks like a substitution, on a line with a substitution of its own. -/
theorem outcome_parse_values :
    let line := txt "echo $A \x22x$(b)$?\x22 >> ~"
    let aliases := fun name => if name = txt "ls" then some (txt "ls -l") else none
    outcome (parse (surroundingsWith (txt "1; 2 | 3") (txt "/root") 0) aliases line) =
      outcome (parse (surroundingsWith (txt "$(id)") (txt "`") 130) aliases line) := by
  intro line aliases
  have unbound : ∀ s, (Token.ofText s line).toOption.all (fun l => Token.alias? aliases l = none) = true →
      ∀ l, Token.ofText s line = .ok l → Token.alias? aliases l = none := by
    intro s all l tokens
    rw [tokens] at all
    exact of_decide_eq_true all
  have good : ∀ s, (parse s aliases line).isOk = true → parse s aliases line ≠ .error .badDescriptor := by
    intro s ok bad
    rw [bad] at ok
    cases ok
  exact outcome_parse aliases line _ _ (unbound _ (by decide)) (unbound _ (by decide)) (good _ (by decide))
    (good _ (by decide))

end
end Pipeline
end JobShell

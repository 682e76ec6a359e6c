import JobShell.Proofs.Syntax.Quotation
import JobShell.Proofs.Syntax.Spans
import JobShell.Proofs.Text.Numerals
import JobShell.Syntax.Pipeline
import Mathlib.Tactic.Choose

/-!
# Pipelines that are written down

A pipeline with any words is written as a line in which every word is quoted
throughout. The line is parsed as that pipeline, whatever the aliases, the
environment and the last status are.
-/
namespace JobShell

/-! ## Pipelines over words of some type -/

/-- A stream that may become a duplicate. -/
inductive OutputStream where
  | output
  | errors
  deriving DecidableEq, Repr

/-- The descriptor of a stream. -/
def OutputStream.descriptor : OutputStream → Int
  | .output => 1
  | .errors => 2

/-- A redirection whose target is a `W`. -/
inductive RedirectOf (W : Type) where
  | file (mode : FileMode) (target : W)
  | duplicate (stream : OutputStream) (source : Int32)

/-- A command whose words are `W`s; there is at least one. -/
structure CommandOf (W : Type) where
  name : W
  args : List W
  redirects : List (RedirectOf W)

/-- A pipeline whose words are `W`s, with at least one command. -/
structure PipelineOf (W : Type) where
  first : CommandOf W
  rest : List (CommandOf W)
  background : Bool

section
variable {V W : Type}

/-- The redirection with another target. -/
def RedirectOf.map (f : V → W) : RedirectOf V → RedirectOf W
  | .file m v => .file m (f v)
  | .duplicate d n => .duplicate d n

/-- The command with other words. -/
def CommandOf.map (f : V → W) (c : CommandOf V) : CommandOf W where
  name := f c.name
  args := c.args.map f
  redirects := c.redirects.map (RedirectOf.map f)

/-- The pipeline with other words. -/
def PipelineOf.map (f : V → W) (p : PipelineOf V) : PipelineOf W where
  first := p.first.map f
  rest := p.rest.map (CommandOf.map f)
  background := p.background

end

/-! ## What is written -/

/-- A word as it is written, in one or more parts. -/
structure QuotedWord where
  first : Quotation
  rest : List Quotation

namespace QuotedWord

/-- The parts. -/
def parts (w : QuotedWord) : List Quotation := w.first :: w.rest

/-- The text that is meant. -/
def text (w : QuotedWord) : Text := w.parts.flatMap Quotation.text

/-- The text as it is written. -/
def source (w : QuotedWord) : Text := w.parts.flatMap Quotation.source

/-- Every text can be written as a quoted word. -/
theorem text_surjective (t : Text) : ∃ w : QuotedWord, w.text = t :=
  ⟨⟨.double t,[]⟩,by simp [text,parts,Quotation.text]⟩

end QuotedWord

/-- The operator of a redirection to a file. -/
def FileMode.sign : FileMode → Text
  | .output => ['>']
  | .append => ['>','>']
  | .input => ['<']
  | .error => ['2','>']

/-- The operator of a duplication. -/
def OutputStream.sign : OutputStream → Text
  | .output => ['>','&']
  | .errors => ['2','>','&']

/-- A redirection as it is written. -/
def RedirectOf.source : RedirectOf QuotedWord → Text
  | .file m w => m.sign ++ ' ' :: w.source
  | .duplicate d n => d.sign ++ Numeral.ofInt n.toInt

/-- A command as it is written: its words, then its redirections, with a blank between any two. -/
def CommandOf.source (c : CommandOf QuotedWord) : Text :=
  c.name.source ++ c.args.flatMap (fun w => ' ' :: w.source) ++ c.redirects.flatMap (fun r => ' ' :: r.source)

/-- A pipeline as it is written. -/
def PipelineOf.source (p : PipelineOf QuotedWord) : Text :=
  p.first.source ++ p.rest.flatMap (fun c => [' ','|',' '] ++ c.source) ++ if p.background then [' ','&'] else []

/-! ## What is meant -/

/-- A word that is just a text. It was quoted, and holds no substitution. -/
def Word.literal (t : Text) : Word := ⟨t,[],true⟩

/-- The redirection to targets that are just texts. -/
def RedirectOf.meant : RedirectOf Text → Redirect
  | .file m t => .file m (.literal t)
  | .duplicate d n => .duplicate d.descriptor n.toInt

/-- The command whose words are just texts. -/
def CommandOf.meant (c : CommandOf Text) : Command := ⟨(c.name :: c.args).map Word.literal,c.redirects.map RedirectOf.meant⟩

/-- The pipeline whose words are just texts. -/
def PipelineOf.meant (p : PipelineOf Text) : Pipeline := ⟨(p.first :: p.rest).map CommandOf.meant,p.background⟩

/-! ## What is read -/

open Lexeme

/-- The lexeme of a quoted word. -/
def QuotedWord.lexeme (w : QuotedWord) : Lexeme := .word (Quotation.segments w.parts)

/-- The lexemes of a redirection. -/
def RedirectOf.lexemes : RedirectOf QuotedWord → List Lexeme
  | .file m w => [.redirect m,w.lexeme]
  | .duplicate d n => [.duplicate d.descriptor,.word [.bare (Numeral.ofInt n.toInt)]]

/-- The lexemes of a command. -/
def CommandOf.lexemes (c : CommandOf QuotedWord) : List Lexeme :=
  (c.name :: c.args).map QuotedWord.lexeme ++ c.redirects.flatMap RedirectOf.lexemes

/-- The lexemes of a pipeline. -/
def PipelineOf.lexemes (p : PipelineOf QuotedWord) : List Lexeme :=
  p.first.lexemes ++ p.rest.flatMap (fun c => .pipe :: c.lexemes) ++ if p.background then [.ampersand] else []

theorem QuotedWord.reads (w : QuotedWord) : Reads w.source [w.lexeme] := by
  have marks : ∃ c r, w.source = c :: r ∧ (c = singleQuote ∨ c = doubleQuote ∨ c = backslash) := by
    obtain ⟨first,rest⟩ := w
    cases first with
    | single t free => exact ⟨_,_,rfl,.inl rfl⟩
    | double t => exact ⟨_,_,rfl,.inr (.inl rfl)⟩
    | escaped c r => exact ⟨_,_,rfl,.inr (.inr rfl)⟩
  obtain ⟨c,r,source,mark⟩ := marks
  refine Reads.word (fun rest _ => ?_) (by rw [source]; exact List.cons_ne_nil c r)
    (fun rest apart => Quotation.segments_source w.parts apart) (Quotation.wordSource_segments w.parts)
  rw [source,List.cons_append,beginsWord]
  rcases mark with rfl | rfl | rfl <;> rfl

theorem FileMode.reads_sign (m : FileMode) : Reads m.sign [.redirect m] := by
  cases m with
  | output => exact reads_output
  | append => exact reads_append
  | input => exact reads_input
  | error => exact reads_error

theorem isPlain_ofInt {n : Int} {c : Char} (h : c ∈ Numeral.ofInt n) : isPlain c = true := by
  rcases Numeral.mem_ofInt h with rfl | digit
  · rfl
  · exact isPlain_of_isDigit digit

theorem reads_numeral (n : Int) : Reads (Numeral.ofInt n) [.word [.bare (Numeral.ofInt n)]] :=
  reads_plain (Numeral.ofInt_ne_nil n) (fun _ h => isPlain_ofInt h)

theorem RedirectOf.reads (r : RedirectOf QuotedWord) : Reads r.source r.lexemes := by
  cases r with
  | file m w => exact m.reads_sign.space w.reads
  | duplicate d n =>
    cases d with
    | output => exact (reads_numeral n.toInt).duplicateOutput
    | errors => exact (reads_numeral n.toInt).duplicateErrors

theorem CommandOf.reads (c : CommandOf QuotedWord) : Reads c.source c.lexemes := by
  have words := Reads.flatMap c.name.reads (fun w (_ : w ∈ c.args) => w.reads)
  have all := Reads.flatMap words (fun r (_ : r ∈ c.redirects) => r.reads)
  simpa [CommandOf.source,CommandOf.lexemes,List.map_eq_flatMap] using all

theorem PipelineOf.reads (p : PipelineOf QuotedWord) : Reads p.source p.lexemes := by
  have commands := Reads.flatMap p.first.reads (fun c (_ : c ∈ p.rest) => reads_pipe.space c.reads)
  unfold PipelineOf.source PipelineOf.lexemes
  cases p.background with
  | false => simpa using commands
  | true => simpa using commands.space reads_ampersand

/-! ## What the lexemes stand for -/

/-- The tokens of a redirection. -/
def RedirectOf.tokens : RedirectOf Text → List Token
  | .file m t => [.redirect m,.word (.literal t)]
  | .duplicate d n => [.duplicate d.descriptor,.word ⟨Numeral.ofInt n.toInt,[],false⟩]

/-- The tokens of a command. -/
def CommandOf.tokens (c : CommandOf Text) : List Token :=
  (c.name :: c.args).map (fun t => .word (.literal t)) ++ c.redirects.flatMap RedirectOf.tokens

/-- The tokens of a pipeline. -/
def PipelineOf.tokens (p : PipelineOf Text) : List Token :=
  p.first.tokens ++ p.rest.flatMap (fun c => .pipe :: c.tokens) ++ if p.background then [.ampersand] else []

theorem QuotedWord.ofLexeme (s : Surroundings) (w : QuotedWord) :
    Token.ofLexeme s w.lexeme = .word (.literal w.text) := by
  have quoting : (Quotation.segments w.parts).any Expansion.isQuoting = true :=
    Quotation.isQuoting_segments (List.cons_ne_nil w.first w.rest)
  rw [QuotedWord.lexeme,Token.ofLexeme,Expansion.word,Quotation.expansion_segments,quoting,Word.ofAtoms_map_char]
  rfl

theorem ofLexeme_numeral (s : Surroundings) (n : Int) :
    Token.ofLexeme s (.word [.bare (Numeral.ofInt n)]) = .word ⟨Numeral.ofInt n,[],false⟩ := by
  have differs : ∀ {d : Char}, d ∈ Numeral.ofInt n → d = '~' ∨ Expansion.isSpecial d = true → False := by
    intro d member other
    rcases Numeral.mem_ofInt member with rfl | digit
    · exact absurd other (by decide)
    · simp only [Expansion.isSpecial,Bool.or_eq_true,decide_eq_true_eq] at other
      rcases other with rfl | ((rfl | rfl) | rfl) <;> exact absurd digit (by decide)
  have noTilde : '~' ∉ Numeral.ofInt n := fun h => differs h (.inl rfl)
  have plain : (Numeral.ofInt n).any Expansion.isSpecial = false :=
    List.any_eq_false.mpr fun d h special => differs h (.inr special)
  have noBackslash : (Numeral.ofInt n).contains backslash = false := by
    rw [← Bool.not_eq_true,List.contains_iff_mem]
    exact fun h => differs h (.inr rfl)
  rw [Token.ofLexeme,Expansion.word,Expansion.segments,if_pos rfl,Expansion.tilde?_eq_none s _ noTilde,
    Expansion.body_plain s false plain,List.any_cons,Expansion.isQuoting,noBackslash]
  simp [Expansion.segments,Word.ofAtoms_map_char]

theorem RedirectOf.ofLexeme (s : Surroundings) (r : RedirectOf QuotedWord) :
    r.lexemes.map (Token.ofLexeme s) = (r.map QuotedWord.text).tokens := by
  cases r with
  | file m w =>
    rw [RedirectOf.lexemes,List.map_cons,List.map_cons,QuotedWord.ofLexeme]
    rfl
  | duplicate d n =>
    rw [RedirectOf.lexemes,List.map_cons,List.map_cons,ofLexeme_numeral]
    rfl

theorem CommandOf.ofLexeme (s : Surroundings) (c : CommandOf QuotedWord) :
    c.lexemes.map (Token.ofLexeme s) = (c.map QuotedWord.text).tokens := by
  simp [CommandOf.lexemes,CommandOf.map,CommandOf.tokens,QuotedWord.ofLexeme,RedirectOf.ofLexeme,List.map_flatMap,
    List.flatMap_map]

theorem PipelineOf.ofLexeme (s : Surroundings) (p : PipelineOf QuotedWord) :
    p.lexemes.map (Token.ofLexeme s) = (p.map QuotedWord.text).tokens := by
  unfold PipelineOf.lexemes PipelineOf.tokens PipelineOf.map
  cases p.background <;>
    simp [CommandOf.ofLexeme,List.map_flatMap,List.flatMap_map,Token.ofLexeme]

/-! ## What is put together -/

theorem assemble_words (commands : List Command) (args : List Word) (redirects : List Redirect) (l : List Text)
    (more : List Token) :
    Pipeline.assemble commands args redirects (l.map (fun t => .word (.literal t)) ++ more) =
      Pipeline.assemble commands (args ++ l.map Word.literal) redirects more := by
  induction l generalizing args with
  | nil => simp
  | cons t r ih =>
    rw [List.map_cons,List.cons_append,Pipeline.assemble,ih]
    simp

theorem assemble_redirects (commands : List Command) (args : List Word) (redirects : List Redirect)
    (l : List (RedirectOf Text)) (more : List Token) :
    Pipeline.assemble commands args redirects (l.flatMap RedirectOf.tokens ++ more) =
      Pipeline.assemble commands args (redirects ++ l.map RedirectOf.meant) more := by
  induction l generalizing redirects with
  | nil => simp
  | cons r rs ih =>
    rw [List.flatMap_cons,List.append_assoc]
    cases r with
    | file m t =>
      rw [RedirectOf.tokens,List.cons_append,List.cons_append,Pipeline.assemble,List.nil_append,ih]
      simp [RedirectOf.meant]
    | duplicate d n =>
      rw [RedirectOf.tokens,List.cons_append,List.cons_append,Pipeline.assemble,Numeral.readInt_int32,List.nil_append]
      simp only [ih]
      simp [RedirectOf.meant]

theorem assemble_command (commands : List Command) (c : CommandOf Text) (more : List Token) :
    Pipeline.assemble commands [] [] (c.tokens ++ more) =
      Pipeline.assemble commands c.meant.args c.meant.redirects more := by
  rw [CommandOf.tokens,List.append_assoc,assemble_words,assemble_redirects]
  rfl

/-- The commands that follow a complete one are added to it. -/
theorem assemble_rest (commands : List Command) (c : CommandOf Text) (rest : List (CommandOf Text)) (background : Bool) :
    Pipeline.assemble commands c.meant.args c.meant.redirects
        (rest.flatMap (fun c => .pipe :: c.tokens) ++ if background then [.ampersand] else []) =
      .ok (some ⟨commands ++ (c :: rest).map CommandOf.meant,background⟩) := by
  have some_arg : c.meant.args.isEmpty = false := rfl
  induction rest generalizing commands c with
  | nil => cases background <;> simp [Pipeline.assemble,some_arg]
  | cons d r ih =>
    rw [List.flatMap_cons,List.cons_append,List.cons_append,List.append_assoc,Pipeline.assemble,some_arg,
      if_neg Bool.false_ne_true,assemble_command,ih _ d rfl]
    simp

theorem assemble_tokens (p : PipelineOf Text) : Pipeline.assemble [] [] [] p.tokens = .ok (some p.meant) := by
  rw [PipelineOf.tokens,List.append_assoc,assemble_command,assemble_rest]
  rfl

/-- Every pipeline can be written. -/
theorem PipelineOf.map_text_surjective (p : PipelineOf Text) :
    ∃ q : PipelineOf QuotedWord, q.map QuotedWord.text = p := by
  choose write text_write using QuotedWord.text_surjective
  have same : QuotedWord.text ∘ write = id := funext text_write
  have redirect : RedirectOf.map QuotedWord.text ∘ RedirectOf.map write = id := by
    funext r
    cases r with
    | file m t => simp [RedirectOf.map,text_write]
    | duplicate d n => rfl
  have command : CommandOf.map QuotedWord.text ∘ CommandOf.map write = id := by
    funext c
    simp [CommandOf.map,text_write,same,redirect]
  refine ⟨p.map write,?_⟩
  have first : CommandOf.map QuotedWord.text (CommandOf.map write p.first) = p.first := congrFun command p.first
  simp [PipelineOf.map,first,command]

/-- **Round trip.** Every pipeline can be written with quoted words, and however it is, the line is parsed as that
    pipeline: the same commands, texts of words, redirections in their order and flag, with every word quoted and
    without substitutions. Aliases, environment and last status have no part in it. -/
theorem parse_source (s : Surroundings) (aliases : Text → Option Text) :
    (∀ p : PipelineOf Text, ∃ q : PipelineOf QuotedWord, q.map QuotedWord.text = p) ∧
    ∀ q : PipelineOf QuotedWord, Pipeline.parse s aliases q.source = .ok (some (q.map QuotedWord.text).meant) := by
  refine ⟨PipelineOf.map_text_surjective,fun q => ?_⟩
  have tokens : Token.ofText s q.source = .ok (q.map QuotedWord.text).tokens := by
    rw [Token.ofText,q.reads.ofLine,Except.map,q.ofLexeme]
  have noAlias : Token.alias? aliases (q.map QuotedWord.text).tokens = none := rfl
  have spliced : Token.spliceAlias s aliases (q.map QuotedWord.text).tokens = .ok (q.map QuotedWord.text).tokens := by
    rw [Token.spliceAlias,noAlias]
  rw [Pipeline.parse,tokens]
  simp only [bind,Except.bind,spliced]
  exact assemble_tokens _

end JobShell

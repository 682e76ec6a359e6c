import JobShell.Proofs.Syntax.Injection

/-!
# The grammar of command lines

A sentence is a sequence of clauses with pipes between them, and perhaps an
ampersand at the end. A clause is made of words and redirections, at least one
word among them. The tokens of a sentence are put together to its pipeline, and
no others are; these are refused for the first token that no sentence has in its
place, and what kind of token is missing there decides the error
(`Grammar.assemble_exact`).
-/
namespace JobShell
namespace Grammar
open Pipeline (assemble startsWithWord)

/-! ### Sentences -/

/-- What a clause is made of. -/
inductive Item where
  | word (w : Word)
  | file (mode : FileMode) (target : Word)
  /-- The word reads as a number. -/
  | duplicate (descriptor source : Int) (w : Word) (number : Numeral.readInt Numeral.maxInt32 w.text = some source)

namespace Item

@[simp] def tokens : Item → List Token
  | .word w => [.word w]
  | .file m w => [.redirect m,.word w]
  | .duplicate d _ w _ => [.duplicate d,.word w]

@[simp] def word? : Item → Option Word
  | .word w => some w
  | _ => none

@[simp] def redirect? : Item → Option Redirect
  | .word _ => none
  | .file m w => some (.file m w)
  | .duplicate d source _ _ => some (.duplicate d source)

end Item

/-- The items of one command, a word among them. -/
structure Clause where
  items : List Item
  worded : ∃ w, Item.word w ∈ items

namespace Clause

def tokens (c : Clause) : List Token := c.items.flatMap Item.tokens

/-- The words and the redirections of a clause, each in their order. -/
def command (c : Clause) : Command := ⟨c.items.filterMap Item.word?,c.items.filterMap Item.redirect?⟩

end Clause

/-- Clauses, each with a pipe after it. -/
def piped (l : List Clause) : List Token := l.flatMap (fun c => c.tokens ++ [.pipe])

/-- Clauses with pipes between them, and perhaps an ampersand at the end. -/
structure Sentence where
  front : List Clause
  last : Clause
  background : Bool

namespace Sentence

def tokens (s : Sentence) : List Token :=
  piped s.front ++ s.last.tokens ++ if s.background then [.ampersand] else []

def pipeline (s : Sentence) : Pipeline := ⟨s.front.map Clause.command ++ [s.last.command],s.background⟩

end Sentence

/-- The tokens can be gone on with to a sentence. -/
def Begins (l : List Token) : Prop := ∃ more, ∃ s : Sentence, s.tokens = l ++ more

/-- The beginning of a sentence up to somewhere between two items of a clause. -/
structure Opening where
  front : List Clause
  items : List Item

namespace Opening

def tokens (o : Opening) : List Token := piped o.front ++ o.items.flatMap Item.tokens

/-- The words of the clause that is not complete. -/
def args (o : Opening) : List Word := o.items.filterMap Item.word?

/-- The redirections of the clause that is not complete. -/
def redirects (o : Opening) : List Redirect := o.items.filterMap Item.redirect?

def add (o : Opening) (i : Item) : Opening := ⟨o.front,o.items ++ [i]⟩

end Opening

/-! ### Faults -/

/-- Tokens that begin a sentence, what follows them, and the error when its first token does not go on with the sentence. -/
inductive Fault : List Token → List Token → SyntaxError → Prop
  /-- A token after the ampersand. -/
  | trailing (s : Sentence) (background : s.background = true) (t : Token) (r : List Token) :
      Fault s.tokens (t :: r) .trailingAmpersand
  /-- A pipe where the clause has no word yet. -/
  | pipe (o : Opening) (wordless : o.args = []) (r : List Token) : Fault o.tokens (.pipe :: r) .emptyCommand
  /-- An ampersand where the clause has no word yet. -/
  | ampersand (o : Opening) (wordless : o.args = []) (r : List Token) : Fault o.tokens (.ampersand :: r) .emptyCommand
  /-- The end where the clause has no word yet. -/
  | ending (o : Opening) (wordless : o.args = []) (nonempty : o.tokens ≠ []) : Fault o.tokens [] .emptyCommand
  /-- No word after the sign of a redirection. -/
  | target (o : Opening) (m : FileMode) {r : List Token} (noWord : startsWithWord r = false) :
      Fault (o.tokens ++ [.redirect m]) r .missingRedirectTarget
  /-- No word after the sign of a duplication. -/
  | source (o : Opening) (d : Int) {r : List Token} (noWord : startsWithWord r = false) :
      Fault (o.tokens ++ [.duplicate d]) r .missingRedirectTarget
  /-- A word after the sign of a duplication that is no number. -/
  | number (o : Opening) (d : Int) {w : Word} (other : Numeral.readInt Numeral.maxInt32 w.text = none)
      (r : List Token) : Fault (o.tokens ++ [.duplicate d]) (.word w :: r) .badDescriptor

/-- What tokens are put together to. -/
inductive Outcome : List Token → Except SyntaxError (Option Pipeline) → Prop
  | blank : Outcome [] (.ok none)
  | sentence (s : Sentence) : Outcome s.tokens (.ok (some s.pipeline))
  | fault {before after : List Token} {e : SyntaxError} (fault : Fault before after e) :
      Outcome (before ++ after) (.error e)

/-! ### Items -/

theorem exists_word_iff (l : List Item) : (∃ w, Item.word w ∈ l) ↔ l.filterMap Item.word? ≠ [] := by
  constructor
  · rintro ⟨w,mem⟩
    exact List.ne_nil_of_mem (List.mem_filterMap.mpr ⟨_,mem,rfl⟩)
  · intro some
    obtain ⟨w,mem⟩ := List.exists_mem_of_ne_nil _ some
    obtain ⟨i,inside,same⟩ := List.mem_filterMap.mp mem
    cases i <;> cases same
    exact ⟨w,inside⟩

/-- An item is a word or a redirection. -/
theorem items_eq_nil {l : List Item} (wordless : l.filterMap Item.word? = []) (plain : l.filterMap Item.redirect? = []) :
    l = [] := by
  rw [List.eq_nil_iff_forall_not_mem]
  intro i mem
  rw [List.filterMap_eq_nil_iff] at wordless plain
  cases i with
  | word w => cases wordless _ mem
  | file m w => cases plain _ mem
  | duplicate d n w number => cases plain _ mem

namespace Opening

section
variable (o : Opening)

theorem tokens_add (i : Item) : (o.add i).tokens = o.tokens ++ i.tokens := by
  simp [tokens,add]

theorem args_add (i : Item) : (o.add i).args = o.args ++ i.word?.toList := by
  rw [args,add,List.filterMap_append]
  cases i <;> rfl

theorem redirects_add (i : Item) : (o.add i).redirects = o.redirects ++ i.redirect?.toList := by
  rw [redirects,add,List.filterMap_append]
  cases i <;> rfl

theorem tokens_eq_nil_iff : o.tokens = [] ↔ o.front = [] ∧ o.items = [] := by
  constructor
  · intro empty
    obtain ⟨front,items⟩ := List.append_eq_nil_iff.mp empty
    rw [piped,List.flatMap_eq_nil_iff] at front
    rw [List.flatMap_eq_nil_iff] at items
    constructor
    · rw [List.eq_nil_iff_forall_not_mem]
      intro c mem
      simpa using front c mem
    · rw [List.eq_nil_iff_forall_not_mem]
      intro i mem
      have := items i mem
      cases i <;> cases this
  · rintro ⟨front,items⟩
    rw [tokens,front,items]
    rfl

/-- A beginning without a word in its last clause is empty, or has commands or redirections. -/
theorem exists_something (wordless : o.args = []) (nonempty : o.tokens ≠ []) :
    ¬ ((o.front.map Clause.command).isEmpty && o.redirects.isEmpty) = true := by
  intro nothing
  simp only [Bool.and_eq_true,List.isEmpty_iff,List.map_eq_nil_iff] at nothing
  exact nonempty (o.tokens_eq_nil_iff.mpr ⟨nothing.1,items_eq_nil wordless nothing.2⟩)

/-- The clause that a pipe, an ampersand or the end completes. -/
def clause (worded : o.args ≠ []) : Clause := ⟨o.items,(exists_word_iff _).mpr worded⟩

/-- The sentence that the end or an ampersand completes. -/
def sentence (worded : o.args ≠ []) (background : Bool) : Sentence := ⟨o.front,o.clause worded,background⟩

/-- The beginning after a pipe. -/
def next (worded : o.args ≠ []) : Opening := ⟨o.front ++ [o.clause worded],[]⟩

theorem tokens_sentence (worded : o.args ≠ []) (background : Bool) :
    (o.sentence worded background).tokens = o.tokens ++ if background then [.ampersand] else [] := rfl

theorem pipeline_sentence (worded : o.args ≠ []) (background : Bool) :
    (o.sentence worded background).pipeline =
      ⟨o.front.map Clause.command ++ [⟨o.args,o.redirects⟩],background⟩ := rfl

theorem tokens_next (worded : o.args ≠ []) : (o.next worded).tokens = o.tokens ++ [.pipe] := by
  simp [tokens,next,piped,clause,Clause.tokens]

theorem commands_next (worded : o.args ≠ []) :
    (o.next worded).front.map Clause.command = o.front.map Clause.command ++ [⟨o.args,o.redirects⟩] := by
  simp [next]
  rfl

/-- A word completes a beginning to a sentence. -/
theorem begins : Begins o.tokens := by
  let longer := o.add (.word ⟨[],[],false⟩)
  have worded : longer.args ≠ [] := by simp [longer,args_add]
  refine ⟨[.word ⟨[],[],false⟩],longer.sentence worded false,?_⟩
  rw [tokens_sentence,o.tokens_add,if_neg Bool.false_ne_true,List.append_nil,Item.tokens]

end

end Opening

/-- A sentence without its ampersand. -/
def Sentence.opening (s : Sentence) : Opening := ⟨s.front,s.last.items⟩

theorem Sentence.args_opening (s : Sentence) : s.opening.args ≠ [] := (exists_word_iff _).mp s.last.worded

theorem Sentence.tokens_eq (s : Sentence) :
    s.tokens = s.opening.tokens ++ if s.background then [.ampersand] else [] := rfl

theorem Sentence.pipeline_eq (s : Sentence) : s.pipeline =
    ⟨s.opening.front.map Clause.command ++ [⟨s.opening.args,s.opening.redirects⟩],s.background⟩ := rfl

theorem Begins.front {a b : List Token} (begins : Begins (a ++ b)) : Begins a := by
  obtain ⟨more,s,whole⟩ := begins
  exact ⟨b ++ more,s,whole.trans (List.append_assoc ..)⟩

/-- Within an item the sentence goes on. -/
theorem Opening.begins_item (o : Opening) {i : Item} {a b : List Token} (item : i.tokens = a ++ b) :
    Begins (o.tokens ++ a) := by
  have longer := (o.add i).begins
  rw [o.tokens_add,item,← List.append_assoc] at longer
  exact longer.front

theorem Opening.begins_redirect (o : Opening) (m : FileMode) : Begins (o.tokens ++ [.redirect m]) :=
  o.begins_item (i := .file m ⟨[],[],false⟩) rfl

theorem Opening.begins_duplicate (o : Opening) (d : Int) : Begins (o.tokens ++ [.duplicate d]) :=
  o.begins_item (i := .duplicate d 0 ⟨['0'],[],false⟩ (by decide)) rfl

/-! ### What is put together -/

/-- The items of a clause, one after the other. -/
theorem assemble_items (commands : List Command) (args : List Word) (redirects : List Redirect) (l : List Item)
    (r : List Token) :
    assemble commands args redirects (l.flatMap Item.tokens ++ r) =
      assemble commands (args ++ l.filterMap Item.word?) (redirects ++ l.filterMap Item.redirect?) r := by
  induction l generalizing args redirects with
  | nil => simp
  | cons i rest ih =>
    rw [List.flatMap_cons,List.append_assoc]
    cases i with
    | word w =>
      rw [Item.tokens,List.singleton_append,assemble,ih]
      simp [List.filterMap_cons]
    | file m w =>
      rw [Item.tokens,List.cons_append,List.singleton_append,assemble,ih]
      simp [List.filterMap_cons]
    | duplicate d n w number =>
      rw [Item.tokens,List.cons_append,List.singleton_append,assemble,number]
      simp only [ih]
      simp [List.filterMap_cons]

/-- The beginning of a sentence is put together to the commands of its clauses. -/
theorem assemble_opening (o : Opening) (r : List Token) :
    assemble [] [] [] (o.tokens ++ r) = assemble (o.front.map Clause.command) o.args o.redirects r := by
  have pipes : ∀ (l : List Clause) (commands : List Command) (r : List Token),
      assemble commands [] [] (piped l ++ r) = assemble (commands ++ l.map Clause.command) [] [] r := by
    intro l
    induction l with
    | nil => simp [piped]
    | cons c rest ih =>
      intro commands r
      have worded : ¬ (c.items.filterMap Item.word?).isEmpty = true := by
        rw [List.isEmpty_iff]
        exact (exists_word_iff _).mp c.worded
      rw [piped,List.flatMap_cons,Clause.tokens,List.append_assoc,List.append_assoc,assemble_items,List.singleton_append,
        assemble,List.nil_append,List.nil_append,if_neg worded]
      exact (ih _ r).trans (by simp [Clause.command])
  rw [Opening.tokens,List.append_assoc,pipes,assemble_items]
  rfl

/-- An item makes the beginning longer, and what follows comes after that. -/
theorem outcome_add (o : Opening) {i : Item} {r : List Token}
    (later : Outcome ((o.add i).tokens ++ r)
      (assemble ((o.add i).front.map Clause.command) (o.add i).args (o.add i).redirects r)) :
    Outcome (o.tokens ++ (i.tokens ++ r))
      (assemble (o.front.map Clause.command) (o.args ++ i.word?.toList) (o.redirects ++ i.redirect?.toList) r) := by
  rwa [o.tokens_add,o.args_add,o.redirects_add,List.append_assoc] at later

theorem outcome_end (o : Opening) :
    Outcome o.tokens (assemble (o.front.map Clause.command) o.args o.redirects []) := by
  rw [assemble]
  by_cases wordless : o.args = []
  · rw [wordless,List.isEmpty_nil,Bool.not_true,if_neg Bool.false_ne_true]
    by_cases empty : o.tokens = []
    · obtain ⟨front,items⟩ := o.tokens_eq_nil_iff.mp empty
      rw [front,Opening.redirects,items,empty]
      exact .blank
    · rw [if_neg (o.exists_something wordless empty)]
      exact List.append_nil o.tokens ▸ .fault (.ending o wordless empty)
  · have complete := Outcome.sentence (o.sentence wordless false)
    rw [o.tokens_sentence,o.pipeline_sentence] at complete
    simpa [wordless] using complete

/-- A redirection without a word after it. -/
theorem outcome_redirect (o : Opening) (m : FileMode) {r : List Token} (noWord : startsWithWord r = false) :
    Outcome (o.tokens ++ .redirect m :: r)
      (assemble (o.front.map Clause.command) o.args o.redirects (.redirect m :: r)) := by
  have fault := Outcome.fault (Fault.target o m noWord)
  rw [List.append_assoc] at fault
  rwa [Pipeline.assemble_redirect noWord]

theorem outcome_duplicate (o : Opening) (d : Int) {r : List Token} (noWord : startsWithWord r = false) :
    Outcome (o.tokens ++ .duplicate d :: r)
      (assemble (o.front.map Clause.command) o.args o.redirects (.duplicate d :: r)) := by
  have fault := Outcome.fault (Fault.source o d noWord)
  rw [List.append_assoc] at fault
  rwa [Pipeline.assemble_duplicate noWord]

/-- What is put together after the beginning of a sentence: each token goes on with it, or is a fault. -/
theorem outcome_assemble (o : Opening) (l : List Token) :
    Outcome (o.tokens ++ l) (assemble (o.front.map Clause.command) o.args o.redirects l) := by
  match l with
  | [] =>
    rw [List.append_nil]
    exact outcome_end o
  | .word w :: r =>
    have longer := outcome_add o (i := .word w) (outcome_assemble _ r)
    rw [assemble]
    simpa using longer
  | .pipe :: r =>
    rw [assemble]
    by_cases wordless : o.args = []
    · rw [wordless,List.isEmpty_nil,if_pos rfl]
      exact .fault (.pipe o wordless r)
    · have later := outcome_assemble (o.next wordless) r
      rw [o.tokens_next,List.append_assoc,o.commands_next] at later
      have worded : ¬ o.args.isEmpty = true := by simpa using wordless
      rwa [if_neg worded]
  | .ampersand :: r =>
    rw [assemble]
    by_cases wordless : o.args = []
    · rw [wordless,List.isEmpty_nil,if_pos rfl]
      exact .fault (.ampersand o wordless r)
    · cases r with
      | nil =>
        have complete := Outcome.sentence (o.sentence wordless true)
        rw [o.tokens_sentence,o.pipeline_sentence] at complete
        simpa [wordless] using complete
      | cons t r =>
        have fault := Outcome.fault (Fault.trailing (o.sentence wordless true) rfl t r)
        rw [o.tokens_sentence,List.append_assoc] at fault
        simpa [wordless] using fault
  | .redirect m :: r =>
    cases r with
    | nil => exact outcome_redirect o m rfl
    | cons t r =>
      cases t with
      | word w =>
        have longer := outcome_add o (i := .file m w) (outcome_assemble _ r)
        rw [assemble]
        simpa using longer
      | pipe | ampersand | redirect | duplicate => exact outcome_redirect o m rfl
  | .duplicate d :: r =>
    cases r with
    | nil => exact outcome_duplicate o d rfl
    | cons t r =>
      cases t with
      | word w =>
        rw [assemble]
        cases number : Numeral.readInt Numeral.maxInt32 w.text with
        | none =>
          have fault := Outcome.fault (Fault.number o d number r)
          rwa [List.append_assoc] at fault
        | some n =>
          have longer := outcome_add o (i := .duplicate d n w number) (outcome_assemble _ r)
          simpa using longer
      | pipe | ampersand | redirect | duplicate => exact outcome_duplicate o d rfl

/-- A sentence is put together to its pipeline. -/
theorem assemble_sentence (s : Sentence) : assemble [] [] [] s.tokens = .ok (some s.pipeline) := by
  have worded := s.args_opening
  rw [s.tokens_eq,s.pipeline_eq,assemble_opening]
  cases s.background with
  | false =>
    rw [if_neg Bool.false_ne_true,assemble]
    simp [worded]
  | true =>
    rw [if_pos rfl,assemble]
    simp [worded]

/-- Nothing that follows makes up for a fault. -/
theorem assemble_fault {before after : List Token} {e : SyntaxError} (fault : Fault before after e) :
    assemble [] [] [] (before ++ after) = .error e := by
  cases fault with
  | trailing s background t r =>
    have worded := s.args_opening
    rw [s.tokens_eq,background,if_pos rfl,List.append_assoc,assemble_opening,List.singleton_append,assemble]
    simp [worded]
  | pipe o wordless r => rw [assemble_opening,assemble,wordless]; rfl
  | ampersand o wordless r => rw [assemble_opening,assemble,wordless]; rfl
  | ending o wordless nonempty =>
    rw [assemble_opening,assemble,if_neg (o.exists_something wordless nonempty),wordless]
    rfl
  | target o m noWord => rw [List.append_assoc,assemble_opening]; exact Pipeline.assemble_redirect noWord ..
  | source o d noWord => rw [List.append_assoc,assemble_opening]; exact Pipeline.assemble_duplicate noWord ..
  | number o d other r => rw [List.append_assoc,assemble_opening,List.singleton_append,assemble,other]

/-- What stands before a fault begins a sentence. -/
theorem Fault.begins {before after : List Token} {e : SyntaxError} (fault : Fault before after e) : Begins before := by
  cases fault with
  | trailing s background t r => exact ⟨[],s,(List.append_nil _).symm⟩
  | pipe o | ampersand o | ending o => exact o.begins
  | target o m => exact o.begins_redirect m
  | source o d => exact o.begins_duplicate d
  | number o d => exact o.begins_duplicate d

/-- A fault stays one whatever comes after its token. -/
theorem Fault.stays {before r : List Token} {t : Token} {e : SyntaxError} (fault : Fault before (t :: r) e)
    (more : List Token) : Fault before (t :: more) e := by
  cases fault with
  | trailing s background => exact .trailing s background t more
  | pipe o wordless => exact .pipe o wordless more
  | ampersand o wordless => exact .ampersand o wordless more
  | target o m noWord => exact .target o m (by cases t <;> first | rfl | cases noWord)
  | source o d noWord => exact .source o d (by cases t <;> first | rfl | cases noWord)
  | number o d other => exact .number o d other more

/-- **The grammar of command lines.** Tokens are put together to a pipeline exactly when they are a sentence that means it;
    each of its commands has a word. There is nothing to put together exactly when there are no tokens. In every other case
    the error is that of a fault, which begins with the first token that no sentence has after the tokens before it. -/
theorem assemble_exact (l : List Token) :
    (∀ p, assemble [] [] [] l = .ok (some p) ↔ ∃ s : Sentence, s.tokens = l ∧ s.pipeline = p) ∧
      (∀ s : Sentence, ∀ c ∈ s.pipeline.commands, c.args ≠ []) ∧
      (assemble [] [] [] l = .ok none ↔ l = []) ∧
      (∀ e, assemble [] [] [] l = .error e ↔ ∃ before after, l = before ++ after ∧ Fault before after e) ∧
      ∀ before after e, Fault before after e → Begins before ∧ ∀ t ∈ after.head?, ¬ Begins (before ++ [t]) := by
  have outcome : Outcome l (assemble [] [] [] l) := outcome_assemble ⟨[],[]⟩ l
  refine ⟨?_,?_,?_,?_,?_⟩
  · intro p
    constructor
    · intro whole
      rw [whole] at outcome
      cases outcome with
      | sentence s => exact ⟨s,rfl,rfl⟩
    · rintro ⟨s,rfl,rfl⟩
      exact assemble_sentence s
  · intro s c mem
    rw [Sentence.pipeline,← List.map_singleton,← List.map_append] at mem
    obtain ⟨clause,-,rfl⟩ := List.mem_map.mp mem
    exact (exists_word_iff _).mp clause.worded
  · constructor
    · intro nothing
      rw [nothing] at outcome
      cases outcome with
      | blank => rfl
    · rintro rfl
      rfl
  · intro e
    constructor
    · intro refused
      rw [refused] at outcome
      cases outcome with
      | fault fault => exact ⟨_,_,rfl,fault⟩
    · rintro ⟨before,after,rfl,fault⟩
      exact assemble_fault fault
  · intro before after e fault
    refine ⟨fault.begins,?_⟩
    rintro t first ⟨more,s,whole⟩
    cases after with
    | nil => cases first
    | cons u r =>
      cases first
      have refused := assemble_fault (fault.stays more)
      rw [List.append_assoc] at whole
      rw [← List.singleton_append,← whole,assemble_sentence] at refused
      cases refused

end Grammar
end JobShell

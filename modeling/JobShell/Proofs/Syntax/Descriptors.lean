import JobShell.Proofs.Syntax.Aliases
import JobShell.Proofs.Syntax.Grammar
import JobShell.Proofs.Syntax.Tildes

/-!
# Numbers before an operator

A number that stands by itself right before `>&` names the descriptor that
becomes a duplicate. The reader of lexemes knows one such number only, a single
digit two; with any other one it takes the number for a word, and the
duplication for one of the output (`Pipeline.parse_descriptor_iff`). Digits at
the end of a longer word belong to the word in any case.
-/
namespace JobShell

/-- A word without anything that stands for something else, apart from a tilde. -/
structure IsPlainWord (t : Text) : Prop where
  filled : t ≠ []
  plain : ∀ c ∈ t, Lexeme.isPlain c = true

/-- The word that is meant by a plain one. -/
def Word.plain (s : Surroundings) (t : Text) : Word := ⟨Expansion.ofTilde s t,[],false⟩

/-- Words, each with a blank after it. -/
def spaced (words : List Text) : Text := words.flatMap (· ++ [' '])

theorem IsPlainWord.append {u d : Text} (word : IsPlainWord u) (plain : ∀ c ∈ d, Lexeme.isPlain c = true) :
    IsPlainWord (u ++ d) := by
  refine ⟨?_,?_⟩
  · simp [word.filled]
  · intro c mem
    rcases List.mem_append.mp mem with front | behind
    · exact word.plain c front
    · exact plain c behind

theorem IsPlainWord.ofLexeme {t : Text} (word : IsPlainWord t) (s : Surroundings) :
    Token.ofLexeme s (.word [.bare t]) = .word (.plain s t) := by
  rw [Token.ofLexeme,Expansion.word_plain s (Pipeline.any_isSpecial_of_isPlain word.plain)]
  rfl

theorem IsPlainWord.text_plain {t : Text} (word : IsPlainWord t) (noTilde : '~' ∉ t) (s : Surroundings) :
    (Word.plain s t).text = t := by
  have same : Expansion.ofTilde s t = t := by
    rw [Expansion.ofTilde_plain s (Pipeline.any_isSpecial_of_isPlain word.plain),Expansion.tilde?_eq_none s true noTilde]
    rfl
  rw [Word.plain,same]

namespace Numeral

theorem readDigits_eq_some {t : Text} {n : Nat} (number : readDigits t = some n) :
    t ≠ [] ∧ ∀ c ∈ t, c.isDigit = true := by
  unfold readDigits at number
  split at number
  · cases number
  · rename_i filled
    split at number
    · rename_i digits
      exact ⟨filled,List.all_eq_true.mp digits⟩
    · cases number

/-- A number is written with digits, and perhaps a sign before them. -/
theorem exists_digits_of_readInt {limit : Nat} {t : Text} {n : Int} (number : readInt limit t = some n) :
    ∃ r, (t = r ∨ t = '-' :: r ∨ t = '+' :: r) ∧ r ≠ [] ∧ ∀ c ∈ r, c.isDigit = true := by
  have read : ∃ r k, (t = r ∨ t = '-' :: r ∨ t = '+' :: r) ∧ readDigits r = some k := by
    unfold readInt at number
    split at number
    case h_1 r =>
      cases digits : readDigits r with
      | none => rw [digits] at number; cases number
      | some k => exact ⟨r,k,.inr (.inl rfl),digits⟩
    case h_2 r =>
      cases digits : readDigits r with
      | none => rw [digits] at number; cases number
      | some k => exact ⟨r,k,.inr (.inr rfl),digits⟩
    case h_3 =>
      cases digits : readDigits t with
      | none => rw [digits] at number; cases number
      | some k => exact ⟨t,k,.inl rfl,digits⟩
  obtain ⟨r,k,written,digits⟩ := read
  exact ⟨r,written,readDigits_eq_some digits⟩

theorem isPlainWord_of_readInt {limit : Nat} {t : Text} {n : Int} (number : readInt limit t = some n) :
    IsPlainWord t := by
  obtain ⟨r,written,filled,digits⟩ := exists_digits_of_readInt number
  have word : IsPlainWord r := ⟨filled,fun c mem => Lexeme.isPlain_of_isDigit (digits c mem)⟩
  have signed : ∀ {c : Char}, Lexeme.isPlain c = true → IsPlainWord (c :: r) := by
    intro c plain
    exact ⟨List.cons_ne_nil c r,List.forall_mem_cons.mpr ⟨plain,word.plain⟩⟩
  rcases written with rfl | rfl | rfl
  · exact word
  · exact signed (by decide)
  · exact signed (by decide)

theorem tilde_notMem_of_readInt {limit : Nat} {t : Text} {n : Int} (number : readInt limit t = some n) : '~' ∉ t := by
  obtain ⟨r,written,-,digits⟩ := exists_digits_of_readInt number
  have free : '~' ∉ r := by
    intro mem
    exact absurd (digits '~' mem) (by decide)
  rcases written with rfl | rfl | rfl
  · exact free
  · simp [free]
  · simp [free]

end Numeral

namespace Lexeme

/-! ### Plain words before an operator -/

theorem complete_plain {t : Text} (plain : ∀ c ∈ t, isPlain c = true) : Complete t := by
  induction t with
  | nil => exact .nil
  | cons c r ih =>
    obtain ⟨-,noBreak,noSingle,noDouble,noBackslash,noDollar,noTick⟩ := isPlain_iff.mp (plain c (by simp))
    refine .char ?_ ⟨noBackslash,noTick⟩ ?_ (ih fun d mem => plain d (by simp [mem]))
    · simp [isBareStart,noSingle,noDouble,noBreak]
    · intro dollar
      exact absurd dollar noDollar

/-- A plain word ends at a blank or an operator. It is read as a word, unless it is the digit before a redirection of the
    errors. -/
theorem read_plainWord {w x : Text} (word : IsPlainWord w) (breaks : ∀ c ∈ x.head?, isWordBreak c = true)
    (other : w = ['2'] → x.head? ≠ some '>') : read 0 (w ++ x) = (read 0 x).map (.word [.bare w] :: ·) := by
  have stops : Stops x := by
    intro c mem
    simp [isBareStart,breaks c mem]
  have segs : segments 0 (w ++ x) = .ok [.bare w] := by
    rw [segments_complete (complete_plain word.plain) word.filled stops,segments_of_break breaks]
    rfl
  refine read_word ?_ word.filled segs (by simp [wordSource,Segment.source])
  obtain ⟨c,r,rfl⟩ := List.exists_cons_of_ne_nil word.filled
  obtain ⟨noBlank,noBreak,-⟩ := isPlain_iff.mp (word.plain c (by simp))
  have noErrors : c = '2' → (r ++ x).head? ≠ some '>' := by
    rintro rfl
    cases r with
    | nil => exact other rfl
    | cons d r =>
      intro arrow
      have plain := word.plain '>' (by simp_all)
      exact absurd plain (by decide)
  rw [List.cons_append,beginsWord]
  simp only [noBlank,noBreak,Bool.or_false,Bool.false_or,Bool.not_eq_true',Bool.and_eq_false_imp,decide_eq_true_eq,
    decide_eq_false_iff_not]
  exact noErrors

theorem read_spaced {words : List Text} (plain : ∀ w ∈ words, IsPlainWord w) (x : Text) :
    read 0 (spaced words ++ x) = (read 0 x).map (words.map (fun w => .word [.bare w]) ++ ·) := by
  induction words with
  | nil =>
    rw [spaced,List.flatMap_nil,List.nil_append]
    cases read 0 x <;> rfl
  | cons w r ih =>
    have split : spaced (w :: r) ++ x = w ++ ' ' :: (spaced r ++ x) := by simp [spaced]
    have later := ih fun v mem => plain v (List.mem_cons_of_mem w mem)
    rw [split,read_plainWord (plain w (by simp)) (by simp [isWordBreak]) (by simp),read_space,later]
    cases read 0 x <;> rfl

theorem read_last {w : Text} (word : IsPlainWord w) : read 0 w = .ok [.word [.bare w]] :=
  (reads_plain word.filled word.plain).ofLine

/-- A number before the operator of a duplication is a part of the operator when it is the digit two, and a word
    otherwise. -/
theorem read_descriptor {d e : Text} (word : IsPlainWord d) (word' : IsPlainWord e) :
    read 0 (d ++ '>' :: '&' :: e) =
      .ok (if d = ['2'] then [.duplicate 2,.word [.bare e]] else [.word [.bare d],.duplicate 1,.word [.bare e]]) := by
  by_cases two : d = ['2']
  · subst two
    rw [if_pos rfl,List.singleton_append,read_duplicateErrors,read_last word']
    rfl
  · rw [if_neg two,read_plainWord word (by simp [isWordBreak]) (fun same => absurd same two),read_duplicateOutput,
      read_last word']
    rfl

/-- Digits at the end of a longer word belong to the word. -/
theorem read_output_behind {w f : Text} (word : IsPlainWord w) (long : 1 < w.length) (target : IsPlainWord f) :
    read 0 (w ++ '>' :: f) = .ok [.word [.bare w],.redirect .output,.word [.bare f]] := by
  have short : w = ['2'] → ('>' :: f).head? ≠ some '>' := by
    rintro rfl
    simp at long
  have first : ∀ c, isPlain c = false → f.head? ≠ some c := by
    intro c special start
    rw [target.plain c (List.mem_of_mem_head? start)] at special
    cases special
  rw [read_plainWord word (by simp [isWordBreak]) short,read_output (first _ (by decide)) (first _ (by decide)),
    read_last target]
  rfl

end Lexeme

namespace Pipeline
open Grammar (Item Clause)

theorem parse_clause (s : Surroundings) {line : Text} {l : List Lexeme} (lexemes : Lexeme.ofLine line = .ok l)
    (c : Clause) (tokens : l.map (Token.ofLexeme s) = c.tokens) :
    parse s (fun _ => none) line = .ok (some ⟨[c.command],false⟩) := by
  have whole := Grammar.assemble_sentence ⟨[],c,false⟩
  rw [parse,Token.ofText,lexemes]
  simp only [Except.map,tokens,bind,Except.bind,Token.spliceAlias_none]
  simpa [Grammar.Sentence.tokens,Grammar.Sentence.pipeline,Grammar.piped] using whole

/-- A line that begins with plain words, and the items after them. -/
theorem parse_spaced (s : Surroundings) {words : List Text} (some_word : words ≠ [])
    (plain : ∀ w ∈ words, IsPlainWord w) {x : Text} {l : List Lexeme} (lexemes : Lexeme.read 0 x = .ok l)
    (items : List Item) (tokens : l.map (Token.ofLexeme s) = items.flatMap Item.tokens) :
    parse s (fun _ => none) (spaced words ++ x) =
      .ok (some ⟨[⟨words.map (Word.plain s) ++ items.filterMap Item.word?,items.filterMap Item.redirect?⟩],false⟩) := by
  have worded : ∃ w, Item.word w ∈ words.map (fun w => Item.word (.plain s w)) ++ items := by
    obtain ⟨w,r,rfl⟩ := List.exists_cons_of_ne_nil some_word
    exact ⟨.plain s w,by simp⟩
  have spelled : (words.map fun w => Lexeme.word [.bare w]).map (Token.ofLexeme s) =
      (words.map fun w => Item.word (.plain s w)).flatMap Item.tokens := by
    rw [List.map_map,List.flatMap_map,List.map_eq_flatMap]
    exact List.flatMap_congr fun w mem => by simp [(plain w mem).ofLexeme s]
  have line : Lexeme.ofLine (spaced words ++ x) = .ok (words.map (fun w => .word [.bare w]) ++ l) := by
    rw [Lexeme.ofLine,Lexeme.read_spaced plain,lexemes]
    rfl
  have parsed := parse_clause s line ⟨_,worded⟩ (by rw [List.map_append,spelled,tokens,Clause.tokens,List.flatMap_append])
  rw [parsed]
  simp [Clause.command,List.filterMap_append,Function.comp_def]

/-- **Which descriptors are recognised.** Plain words are followed by a number, the operator of a duplication and another
    number. The line is one command with these words as its arguments and the duplication of the two numbers exactly when
    the first of them is written as the digit two. With any other number the command has one more argument, the number,
    and a duplication of the output. Digits that end a longer word stay a part of it before a redirection. -/
theorem parse_descriptor_iff (s : Surroundings) {words : List Text} (some_word : words ≠ [])
    (plain : ∀ w ∈ words, IsPlainWord w) {d e : Text} {n m : Int}
    (descriptor : Numeral.readInt Numeral.maxInt32 d = some n) (source : Numeral.readInt Numeral.maxInt32 e = some m) :
    let args := words.map (Word.plain s)
    let line := spaced words ++ (d ++ '>' :: '&' :: e)
    (parse s (fun _ => none) line = .ok (some ⟨[⟨args,[.duplicate n m]⟩],false⟩) ↔ d = ['2']) ∧
    (d ≠ ['2'] →
      parse s (fun _ => none) line = .ok (some ⟨[⟨args ++ [Word.plain s d],[.duplicate 1 m]⟩],false⟩)) ∧
    ∀ u f, IsPlainWord u → IsPlainWord f → parse s (fun _ => none) (spaced words ++ (u ++ d ++ '>' :: f)) =
      .ok (some ⟨[⟨args ++ [Word.plain s (u ++ d)],[.file .output (Word.plain s f)]⟩],false⟩) := by
  intro args line
  have word := Numeral.isPlainWord_of_readInt descriptor
  have word' := Numeral.isPlainWord_of_readInt source
  have lexemes := Lexeme.read_descriptor word word'
  have number : Numeral.readInt Numeral.maxInt32 (Word.plain s e).text = some m := by
    rw [word'.text_plain (Numeral.tilde_notMem_of_readInt source),source]
  have otherwise : d ≠ ['2'] →
      parse s (fun _ => none) line = .ok (some ⟨[⟨args ++ [Word.plain s d],[.duplicate 1 m]⟩],false⟩) := by
    intro two
    rw [if_neg two] at lexemes
    refine parse_spaced s some_word plain lexemes [.word (.plain s d),.duplicate 1 m (.plain s e) number] ?_
    simp only [List.map_cons,List.map_nil,word.ofLexeme,word'.ofLexeme]
    rfl
  refine ⟨⟨?_,?_⟩,otherwise,?_⟩
  · intro claimed
    by_contra two
    rw [otherwise two] at claimed
    simp at claimed
  · intro two
    rw [if_pos two] at lexemes
    have two : n = 2 := by
      rw [two] at descriptor
      exact (Option.some.inj descriptor).symm
    have parsed := parse_spaced s some_word plain lexemes [.duplicate 2 m (.plain s e) number] (by
      simp only [List.map_cons,List.map_nil,word'.ofLexeme]
      rfl)
    rw [parsed,two]
    simp [args]
  · intro u f first target
    have longer := first.append word.plain
    have long : 1 < (u ++ d).length := by
      have left := List.length_pos_of_ne_nil first.filled
      have right := List.length_pos_of_ne_nil word.filled
      rw [List.length_append]
      omega
    refine parse_spaced s some_word plain (Lexeme.read_output_behind longer long target)
      [.word (.plain s (u ++ d)),.file .output (.plain s f)] ?_
    simp only [List.map_cons,List.map_nil,longer.ofLexeme,target.ofLexeme]
    rfl

/-- A number of two digits, a target with zeros in front, and words that end with a digit. -/
theorem parse_descriptor_iff_ten :
    let s : Surroundings := ⟨0,fun name => if name = txt "HOME" then some (txt "/home/me") else none,fun _ => none⟩
    let words := [txt "tee",txt "~/a2"]
    let args := words.map (Word.plain s)
    words ≠ [] ∧ (∀ w ∈ words, IsPlainWord w) ∧ Numeral.readInt Numeral.maxInt32 (txt "10") = some 10 ∧
      Numeral.readInt Numeral.maxInt32 (txt "007") = some 7 ∧ IsPlainWord (txt "file") ∧
      args.map Word.text = [txt "tee",txt "/home/me/a2"] ∧
      parse s (fun _ => none) (spaced words ++ (txt "10" ++ '>' :: '&' :: txt "007")) =
        .ok (some ⟨[⟨args ++ [Word.plain s (txt "10")],[.duplicate 1 7]⟩],false⟩) ∧
      parse s (fun _ => none) (spaced words ++ (txt "file" ++ txt "10" ++ '>' :: txt "file")) =
        .ok (some ⟨[⟨args ++ [Word.plain s (txt "file" ++ txt "10")],[.file .output (Word.plain s (txt "file"))]⟩],
          false⟩) := by
  intro s words args
  have some_word : words ≠ [] := by decide
  have plain : ∀ w ∈ words, IsPlainWord w := by
    intro w mem
    simp only [words,List.mem_cons,List.not_mem_nil,or_false] at mem
    rcases mem with rfl | rfl
    · exact ⟨by decide,List.all_eq_true.mp (by decide)⟩
    · exact ⟨by decide,List.all_eq_true.mp (by decide)⟩
  have file : IsPlainWord (txt "file") := ⟨by decide,List.all_eq_true.mp (by decide)⟩
  have ten : Numeral.readInt Numeral.maxInt32 (txt "10") = some 10 := by decide
  have seven : Numeral.readInt Numeral.maxInt32 (txt "007") = some 7 := by decide
  obtain ⟨-,word,longer⟩ := parse_descriptor_iff s some_word plain ten seven
  exact ⟨some_word,plain,ten,seven,file,by decide,word (by decide),longer _ _ file file⟩

/-- The number one before the operator becomes an argument. -/
theorem parse_descriptor_one :
    let s : Surroundings := ⟨0,fun _ => none,fun _ => none⟩
    let word := fun t => (⟨t,[],false⟩ : Word)
    let args := [word (txt "echo"),word (txt "x")]
    parse s (fun _ => none) (txt "echo x 1>&2") = .ok (some ⟨[⟨args ++ [word ['1']],[.duplicate 1 2]⟩],false⟩) ∧
      parse s (fun _ => none) (txt "echo x 1>&2") ≠ .ok (some ⟨[⟨args,[.duplicate 1 2]⟩],false⟩) := by
  intro s word args
  have parsed : parse s (fun _ => none) (txt "echo x 1>&2") =
      .ok (some ⟨[⟨args ++ [word ['1']],[.duplicate 1 2]⟩],false⟩) := rfl
  refine ⟨parsed,?_⟩
  rw [parsed]
  simp

end Pipeline
end JobShell

import JobShell.Proofs.Syntax.Extent
import JobShell.Proofs.Syntax.Reading

/-!
# Lines that are put together

The lexemes of a text are the same whatever else stands on the line after a
blank, provided that nothing at the end of the text is still open: no backslash
without a character to take along, and no substitution that is not closed
(`Lexeme.reads_of_finished`).
-/
namespace JobShell

namespace Substitution

theorem tickLength_append {q : Text} (free : backQuote ∉ q) (t : Text) :
    tickLength (q ++ backQuote :: t) = q.length + 1 := by
  induction q with
  | nil => rfl
  | cons c r ih =>
    have other : c ≠ backQuote := fun e => free (by simp [e])
    have tail := ih (fun h => free (List.mem_cons_of_mem _ h))
    rw [List.cons_append,tickLength,if_neg other,tail,List.length_cons]

/-- What begins with a back quote that has no counterpart goes on to the end. -/
theorem tickLength_eq_length {t : Text} (free : backQuote ∉ t) : tickLength t = t.length := by
  induction t with
  | nil => rfl
  | cons c r ih =>
    have other : c ≠ backQuote := fun e => free (by simp [e])
    rw [tickLength,if_neg other,ih (fun h => free (List.mem_cons_of_mem _ h)),List.length_cons]

end Substitution

namespace Lexeme
open Substitution (Enclosed)

/-! ### Text without quotes -/

/-- Text outside quotes in which nothing is left open: every backslash has its character, every substitution its end. -/
inductive Complete : Text → Prop where
  | nil : Complete []
  | char {c : Char} {t : Text} (starts : isBareStart c = true) (plain : c ≠ backslash ∧ c ≠ backQuote)
    (dollar : c = '$' → t.head? ≠ some '(') (rest : Complete t) : Complete (c :: t)
  | escape (c : Char) {t : Text} (rest : Complete t) : Complete (backslash :: c :: t)
  | parens {a t : Text} (inner : Enclosed a) (rest : Complete t) : Complete ('$' :: '(' :: (a ++ ')' :: t))
  | ticks {q t : Text} (free : backQuote ∉ q) (rest : Complete t) : Complete (backQuote :: (q ++ backQuote :: t))

/-- Text without quotes that is left open from its first character on: a backslash without a character to take
    along, or a substitution that is not closed. -/
inductive Unclosed : Text → Prop where
  | escape : Unclosed [backslash]
  | parens {q : Text} (endless : Substitution.closing? 0 false q = none) : Unclosed ('$' :: '(' :: q)
  | ticks {q : Text} (free : backQuote ∉ q) : Unclosed (backQuote :: q)

/-- Text without quotes that is left open at its end. -/
def LeftOpen (t : Text) : Prop := ∃ a r, t = a ++ r ∧ Complete a ∧ Unclosed r

/-- No segment without quotes goes on here. -/
def Stops (r : Text) : Prop := ∀ c ∈ r.head?, isBareStart c = false

theorem stops_of_apart {r : Text} (apart : Apart r) : Stops r := by
  intro c mem
  rw [apart c mem]
  decide

theorem Stops.append {a b : Text} (first : Stops a) (second : Stops b) : Stops (a ++ b) := by
  cases a with
  | nil => exact second
  | cons c r => exact first

theorem Stops.head?_ne {r : Text} (stops : Stops r) : r.head? ≠ some '(' :=
  fun opens => absurd (stops '(' opens) (by decide)

theorem Unclosed.head?_ne {r : Text} (unclosed : Unclosed r) : r.head? ≠ some '(' := by
  cases unclosed with
  | escape => decide
  | parens endless => simp
  | ticks free => rw [List.head?_cons]; decide

theorem bareLength_of_stops {r : Text} (stops : Stops r) : bareLength 0 r = 0 := by
  cases r with
  | nil => rfl
  | cons c r => exact bareLength_eq_zero (stops c (by simp)) r

theorem bareLength_char {c : Char} {t : Text} (starts : isBareStart c = true) (plain : c ≠ backslash ∧ c ≠ backQuote)
    (dollar : c = '$' → t.head? ≠ some '(') : bareLength 0 (c :: t) = bareLength 0 t + 1 := by
  have goesOn : (c = singleQuote || c = doubleQuote || isWordBreak c) = false := by
    rwa [isBareStart,Bool.not_eq_true'] at starts
  have noParens : (c = '$' && t.head? = some '(') = false := by
    simpa using dollar
  rw [bareLength]
  simp only [goesOn,noParens,plain.1,plain.2,Bool.false_eq_true,if_false]

theorem bareLength_escape (c : Char) (t : Text) : bareLength 0 (backslash :: c :: t) = bareLength 0 t + 2 := by
  have goesOn : (backslash = singleQuote || backslash = doubleQuote || isWordBreak backslash) = false := by decide
  rw [bareLength]
  simp only [goesOn,Bool.false_eq_true,if_false,if_true]
  rw [bareLength]

theorem bareLength_tick (t : Text) :
    bareLength 0 (backQuote :: t) = bareLength (Substitution.tickLength t) t + 1 := by
  have goesOn : (backQuote = singleQuote || backQuote = doubleQuote || isWordBreak backQuote) = false := by decide
  have noBackslash : backQuote ≠ backslash := by decide
  have noDollar : backQuote ≠ '$' := by decide
  rw [bareLength]
  simp only [goesOn,noBackslash,noDollar,decide_false,Bool.false_and,Bool.false_eq_true,if_false,if_true]

theorem bareLength_ticks {q : Text} (free : backQuote ∉ q) (t : Text) :
    bareLength 0 (backQuote :: (q ++ backQuote :: t)) = q.length + 2 + bareLength 0 t := by
  have fits : q.length + 1 ≤ (q ++ backQuote :: t).length := by simp
  have whole : q ++ backQuote :: t = (q ++ [backQuote]) ++ t := by simp
  have size : q.length + 1 = (q ++ [backQuote]).length := by simp
  have skipped : (q ++ backQuote :: t).drop (q.length + 1) = t := by rw [whole,size,List.drop_left]
  rw [bareLength_tick,Substitution.tickLength_append free,bareLength_eq_drop fits,skipped]
  omega

theorem bareLength_parens {a : Text} (enclosed : Enclosed a) (t : Text) :
    bareLength 0 ('$' :: '(' :: (a ++ ')' :: t)) = a.length + 3 + bareLength 0 t := by
  have whole : a ++ ')' :: t = (a ++ [')']) ++ t := by simp
  have size : a.length + 1 = (a ++ [')']).length := by simp
  have skipped : (a ++ ')' :: t).drop (a.length + 1) = t := by rw [whole,size,List.drop_left]
  rw [bareLength_opened,enclosed.opened,enclosed.parenLength,skipped]
  simp

theorem Unclosed.bareLength_eq {r : Text} (unclosed : Unclosed r) : bareLength 0 r = r.length := by
  cases unclosed with
  | escape => decide
  | @parens q endless =>
    have all : Substitution.parenLength q = q.length := by rw [Substitution.parenLength,endless]; rfl
    rw [bareLength_opened,Substitution.opened,all,List.take_length,List.drop_length]
    rfl
  | @ticks q free =>
    rw [bareLength_tick,Substitution.tickLength_eq_length free,bareLength_eq_drop (Nat.le_refl _),List.drop_length]
    rfl

/-- Complete text belongs to a segment as a whole. -/
theorem Complete.bareLength_append {t : Text} (complete : Complete t) {r : Text} (apart : r.head? ≠ some '(') :
    bareLength 0 (t ++ r) = t.length + bareLength 0 r := by
  induction complete with
  | nil => simp
  | @char c t starts plain dollar rest ih =>
    have noParens : c = '$' → (t ++ r).head? ≠ some '(' := by
      intro isDollar
      cases t with
      | nil => exact apart
      | cons d t => exact dollar isDollar
    rw [List.cons_append,bareLength_char starts plain noParens,ih,List.length_cons]
    omega
  | escape c rest ih =>
    rw [List.cons_append,List.cons_append,bareLength_escape,ih,List.length_cons,List.length_cons]
    omega
  | @parens a t inner rest ih =>
    have whole : '$' :: '(' :: (a ++ ')' :: t) ++ r = '$' :: '(' :: (a ++ ')' :: (t ++ r)) := by simp
    rw [whole,bareLength_parens inner,ih]
    simp only [List.length_cons,List.length_append]
    omega
  | @ticks q t free rest ih =>
    have whole : backQuote :: (q ++ backQuote :: t) ++ r = backQuote :: (q ++ backQuote :: (t ++ r)) := by simp
    rw [whole,bareLength_ticks free,ih]
    simp only [List.length_cons,List.length_append]
    omega

/-- A blank at the end closes nothing, and the backslash at the end takes it along. -/
theorem Unclosed.bareLength_space {r : Text} (unclosed : Unclosed r) : bareLength 0 (r ++ [' ']) = r.length + 1 := by
  cases unclosed with
  | escape => decide
  | @parens q endless =>
    have still : Substitution.closing? 0 false (q ++ [' ']) = none := by
      cases found : Substitution.closing? 0 false (q ++ [' ']) with
      | none => rfl
      | some k =>
        obtain ⟨a,t,whole,enclosed,_⟩ := Substitution.closing?_eq_some_iff.mp found
        rcases List.eq_nil_or_concat t with rfl | ⟨t,c,rfl⟩
        · simp at whole
        · have inner : q = a ++ ')' :: t := by
            rw [List.concat_eq_append,← List.cons_append,← List.append_assoc] at whole
            exact List.append_inj_left' whole rfl
          rw [Substitution.closing?_eq_some_iff.mpr ⟨a,t,inner,enclosed,rfl⟩] at endless
          cases endless
    simpa using (Unclosed.parens still).bareLength_eq
  | @ticks q free =>
    have still : backQuote ∉ q ++ [' '] := by simp [free]; decide
    simpa using (Unclosed.ticks still).bareLength_eq

/-- Nothing is left open in complete text. -/
theorem Complete.not_leftOpen {t : Text} (complete : Complete t) : ¬ LeftOpen t := by
  rintro ⟨a,r,rfl,front,unclosed⟩
  have apart : (r ++ [' ']).head? ≠ some '(' := by
    cases r with
    | nil => simp
    | cons c r => exact unclosed.head?_ne
  have all := complete.bareLength_append (r := [' ']) (by simp)
  have more := front.bareLength_append apart
  have space : bareLength 0 [' '] = 0 := by decide
  rw [space,List.append_assoc,more,unclosed.bareLength_space,List.length_append] at all
  omega

/-- Text is complete up to where no segment goes on, or up to something that is left open. -/
theorem exists_complete (u : Text) : ∃ t r, u = t ++ r ∧ Complete t ∧ (Stops r ∨ Unclosed r) := by
  -- An escape and a substitution take several characters, so the induction is on the length.
  induction size : u.length using Nat.strongRecOn generalizing u with
  | _ n ih =>
    subst size
    cases u with
    | nil => exact ⟨[],[],rfl,.nil,.inl (by simp [Stops])⟩
    | cons c r =>
      by_cases starts : isBareStart c = true
      · by_cases escape : c = backslash
        · subst escape
          cases r with
          | nil => exact ⟨[],[backslash],rfl,.nil,.inr .escape⟩
          | cons d r =>
            obtain ⟨t,r',rfl,complete,ends⟩ := ih r.length (by simp only [List.length_cons]; omega) r rfl
            exact ⟨backslash :: d :: t,r',rfl,.escape d complete,ends⟩
        by_cases tick : c = backQuote
        · subst tick
          by_cases closed : backQuote ∈ r
          · obtain ⟨q,r,rfl,free⟩ := List.eq_append_cons_of_mem closed
            obtain ⟨t,r',rfl,complete,ends⟩ := ih r.length (by simp; omega) r rfl
            exact ⟨backQuote :: (q ++ backQuote :: t),r',by simp,.ticks free complete,ends⟩
          · exact ⟨[],backQuote :: r,rfl,.nil,.inr (.ticks closed)⟩
        by_cases parens : c = '$' ∧ r.head? = some '('
        · obtain ⟨rfl,opens⟩ := parens
          obtain ⟨r,rfl⟩ := List.head?_eq_some_iff.mp opens
          cases found : Substitution.closing? 0 false r with
          | none => exact ⟨[],'$' :: '(' :: r,rfl,.nil,.inr (.parens found)⟩
          | some k =>
            obtain ⟨a,r,rfl,enclosed,_⟩ := Substitution.closing?_eq_some_iff.mp found
            obtain ⟨t,r',rfl,complete,ends⟩ := ih r.length (by simp; omega) r rfl
            exact ⟨'$' :: '(' :: (a ++ ')' :: t),r',by simp,.parens enclosed complete,ends⟩
        obtain ⟨t,r',rfl,complete,ends⟩ := ih r.length (by simp) r rfl
        have dollar : c = '$' → t.head? ≠ some '(' := by
          intro isDollar opens
          exact parens ⟨isDollar,by rw [List.head?_append,opens]; rfl⟩
        exact ⟨c :: t,r',rfl,.char starts ⟨escape,tick⟩ dollar complete,ends⟩
      · have stops : Stops (c :: r) := by simpa [Stops] using starts
        exact ⟨[],c :: r,rfl,.nil,.inl stops⟩

/-! ### Words -/

theorem exists_single {r : Text} {n : Nat} (found : singleLength? r = some n) :
    ∃ q u, r = q ++ singleQuote :: u ∧ singleQuote ∉ q := by
  have closed : singleQuote ∈ r := by
    induction r generalizing n with
    | nil => cases found
    | cons c r ih =>
      rw [singleLength?] at found
      split_ifs at found with quote
      · rw [quote]; exact List.mem_cons_self
      · obtain ⟨m,later,_⟩ := Option.map_eq_some_iff.mp found
        exact List.mem_cons_of_mem _ (ih later)
  obtain ⟨q,u,rfl,free⟩ := List.eq_append_cons_of_mem closed
  exact ⟨q,u,rfl,free⟩

theorem exists_double {escaped : Bool} {r : Text} {n : Nat} (found : doubleLength? escaped r = some n) :
    ∃ q u, r = q ++ doubleQuote :: u ∧ ∀ x, doubleLength? escaped (q ++ doubleQuote :: x) = some q.length := by
  induction r generalizing escaped n with
  | nil => cases found
  | cons c r ih =>
    rw [doubleLength?] at found
    split_ifs at found with taken quote
    · obtain ⟨m,later,_⟩ := Option.map_eq_some_iff.mp found
      obtain ⟨q,u,rfl,ends⟩ := ih later
      refine ⟨c :: q,u,rfl,fun x => ?_⟩
      rw [List.cons_append,doubleLength?,if_pos taken,ends]
      rfl
    · subst quote
      refine ⟨[],r,rfl,fun x => ?_⟩
      rw [List.nil_append,doubleLength?,if_neg taken,if_pos rfl]
      rfl
    · obtain ⟨m,later,_⟩ := Option.map_eq_some_iff.mp found
      obtain ⟨q,u,rfl,ends⟩ := ih later
      refine ⟨c :: q,u,rfl,fun x => ?_⟩
      rw [List.cons_append,doubleLength?,if_neg taken,if_neg quote,ends]
      rfl

theorem exists_of_map {α β : Type} {f : α → β} {a : Except SyntaxError α} {b : β} (done : a.map f = .ok b) :
    ∃ x, a = .ok x ∧ b = f x := by
  cases a with
  | error e => cases done
  | ok x => cases done; exact ⟨x,rfl,rfl⟩

theorem segments_of_break {u : Text} (breaks : ∀ c ∈ u.head?, isWordBreak c = true) : segments 0 u = .ok [] := by
  cases u with
  | nil => rfl
  | cons c r =>
    have breaks := breaks c rfl
    have noSingle : c ≠ singleQuote := by rintro rfl; exact absurd breaks (by decide)
    have noDouble : c ≠ doubleQuote := by rintro rfl; exact absurd breaks (by decide)
    rw [segments,if_neg noSingle,if_neg noDouble,if_pos breaks]

/-- A text that begins with a segment, and what comes after the segment. -/
structure Leads (u : Text) (g : Segment) (rest : Text) : Prop where
  whole : u = g.source ++ rest
  nonempty : g.source ≠ []
  alone : segments 0 u = (segments 0 rest).map (g :: ·)
  /-- What follows the text does not change the segment, unless the segment is the end of the text and left open. -/
  before : ∀ x, Apart x → (rest = [] → ∀ t, g = .bare t → ¬ LeftOpen t) →
    segments 0 (u ++ x) = (segments 0 (rest ++ x)).map (g :: ·)

theorem leads_single {q : Text} (free : singleQuote ∉ q) (rest : Text) :
    Leads (singleQuote :: (q ++ singleQuote :: rest)) (.single q) rest := by
  have whole : singleQuote :: (q ++ singleQuote :: rest) = Segment.source (.single q) ++ rest := by
    simp [Segment.source]
  rw [whole]
  refine ⟨rfl,by simp [Segment.source],segments_single free rest,fun x _ _ => ?_⟩
  rw [List.append_assoc,segments_single free]

theorem leads_double {q : Text} (ends : ∀ x, doubleLength? false (q ++ doubleQuote :: x) = some q.length) (rest : Text) :
    Leads (doubleQuote :: (q ++ doubleQuote :: rest)) (.double q) rest := by
  have whole : doubleQuote :: (q ++ doubleQuote :: rest) = Segment.source (.double q) ++ rest := by
    simp [Segment.source]
  rw [whole]
  refine ⟨rfl,by simp [Segment.source],segments_double (ends rest),fun x _ _ => ?_⟩
  rw [List.append_assoc,segments_double (ends (rest ++ x))]

theorem Complete.isBareStart {c : Char} {t : Text} (complete : Complete (c :: t)) : isBareStart c = true := by
  cases complete with
  | char starts => exact starts
  | escape | parens | ticks => decide

/-- Complete text is a segment wherever none goes on after it. -/
theorem segments_complete {t : Text} (complete : Complete t) (nonempty : t ≠ []) {x : Text} (stops : Stops x) :
    segments 0 (t ++ x) = (segments 0 x).map (.bare t :: ·) := by
  obtain ⟨c,r,rfl⟩ := List.exists_cons_of_ne_nil nonempty
  have length : bareLength 0 (c :: r ++ x) = (c :: r).length := by
    rw [complete.bareLength_append stops.head?_ne,bareLength_of_stops stops,Nat.add_zero]
  rw [List.cons_append,segments_bare complete.isBareStart,← List.cons_append,length,List.drop_left,List.take_left]

/-- Text that is left open is a segment as a whole. -/
theorem segments_leftOpen {t : Text} (leftOpen : LeftOpen t) : segments 0 t = .ok [.bare t] := by
  obtain ⟨a,u,rfl,complete,unclosed⟩ := leftOpen
  have length : bareLength 0 (a ++ u) = (a ++ u).length := by
    rw [complete.bareLength_append unclosed.head?_ne,unclosed.bareLength_eq,List.length_append]
  obtain ⟨c,r,whole,starts⟩ : ∃ c r, a ++ u = c :: r ∧ Lexeme.isBareStart c = true := by
    cases a with
    | nil =>
      cases unclosed with
      | escape | parens | ticks => exact ⟨_,_,rfl,by decide⟩
    | cons c r => exact ⟨c,r ++ u,rfl,complete.isBareStart⟩
  rw [whole] at length ⊢
  rw [segments_bare starts,length,List.drop_length,List.take_length]
  rfl

theorem exists_leads_bare {c : Char} (starts : isBareStart c = true) (r : Text) :
    ∃ t rest, Leads (c :: r) (.bare t) rest := by
  obtain ⟨t,rest,whole,complete,ends⟩ := exists_complete (c :: r)
  rcases ends with stops | unclosed
  · -- The segment ends inside the text, so what follows the text is not looked at.
    have nonempty : t ≠ [] := by
      rintro rfl
      rw [List.nil_append] at whole
      subst whole
      exact absurd (stops c rfl) (by simp [starts])
    have before : ∀ x, Apart x → segments 0 ((c :: r) ++ x) = (segments 0 (rest ++ x)).map (.bare t :: ·) := by
      intro x apart
      rw [whole,List.append_assoc]
      exact segments_complete complete nonempty (stops.append (stops_of_apart apart))
    exact ⟨t,rest,whole,nonempty,by simpa using before [] apart_nil,fun x apart _ => before x apart⟩
  · have leftOpen : LeftOpen (c :: r) := ⟨t,rest,whole,complete,unclosed⟩
    refine ⟨c :: r,[],by simp [Segment.source],by simp [Segment.source],segments_leftOpen leftOpen,fun x _ closed => ?_⟩
    exact absurd leftOpen (closed rfl _ rfl)

/-- A word is nothing, or a segment and what the word goes on with. -/
theorem exists_leads {u : Text} {segs : List Segment} (word : segments 0 u = .ok segs) :
    (segs = [] ∧ ∀ c ∈ u.head?, isWordBreak c = true) ∨
    ∃ g rest more, Leads u g rest ∧ segs = g :: more ∧ segments 0 rest = .ok more := by
  have goOn : ∀ {g rest}, Leads u g rest →
      ∃ g rest more, Leads u g rest ∧ segs = g :: more ∧ segments 0 rest = .ok more := by
    intro g rest leads
    rw [leads.alone] at word
    obtain ⟨more,later,rfl⟩ := exists_of_map word
    exact ⟨g,rest,more,leads,rfl,later⟩
  cases u with
  | nil =>
    cases word
    exact .inl ⟨rfl,by simp⟩
  | cons c r =>
    by_cases single : c = singleQuote
    · subst single
      cases found : singleLength? r with
      | none =>
        rw [segments] at word
        simp only [if_true,found] at word
        cases word
      | some n =>
        obtain ⟨q,rest,rfl,free⟩ := exists_single found
        exact .inr (goOn (leads_single free rest))
    by_cases double : c = doubleQuote
    · subst double
      cases found : doubleLength? false r with
      | none =>
        rw [segments] at word
        simp only [single,if_false,if_true,found] at word
        cases word
      | some n =>
        obtain ⟨q,rest,rfl,ends⟩ := exists_double found
        exact .inr (goOn (leads_double ends rest))
    by_cases breaks : isWordBreak c = true
    · have ends : ∀ d ∈ (c :: r).head?, isWordBreak d = true := by simpa using breaks
      rw [segments_of_break ends] at word
      cases word
      exact .inl ⟨rfl,ends⟩
    · have starts : isBareStart c = true := by simp [isBareStart,single,double,breaks]
      obtain ⟨t,rest,leads⟩ := exists_leads_bare starts r
      exact .inr (goOn leads)

/-- The last segment of a word is left open. -/
def EndsOpen (segs : List Segment) : Prop := ∃ t, segs.getLast? = some (.bare t) ∧ LeftOpen t

theorem EndsOpen.cons {segs : List Segment} (ends : EndsOpen segs) (g : Segment) : EndsOpen (g :: segs) := by
  obtain ⟨t,last,opened⟩ := ends
  exact ⟨t,by rw [List.getLast?_cons,last]; rfl,opened⟩

theorem wordSource_cons (g : Segment) (l : List Segment) : wordSource (g :: l) = g.source ++ wordSource l :=
  List.flatMap_cons

/-- The text begins with a word as it is written. -/
theorem exists_wordSource {u : Text} {segs : List Segment} (word : segments 0 u = .ok segs) :
    ∃ r, u = wordSource segs ++ r := by
  induction segs generalizing u with
  | nil => exact ⟨u,rfl⟩
  | cons g more ih =>
    obtain ⟨none,_⟩ | ⟨g,rest,more,leads,same,later⟩ := exists_leads word
    · cases none
    · cases same
      obtain ⟨r,split⟩ := ih later
      exact ⟨r,by rw [leads.whole,split,wordSource_cons,List.append_assoc]⟩

theorem wordSource_ne_nil {u : Text} {segs : List Segment} (begins : beginsWord u = true)
    (word : segments 0 u = .ok segs) : wordSource segs ≠ [] := by
  obtain ⟨_,ends⟩ | ⟨g,rest,more,leads,rfl,_⟩ := exists_leads word
  · cases u with
    | nil => cases begins
    | cons c r => simp [beginsWord,ends c rfl] at begins
  · rw [wordSource_cons]
    exact List.append_ne_nil_of_left_ne_nil leads.nonempty _

/-- What follows a text does not change the word that it begins with, unless the word is the whole text and left open. -/
theorem segments_append {u : Text} {segs : List Segment} (word : segments 0 u = .ok segs) {x : Text} (apart : Apart x)
    (closed : u = wordSource segs → ¬ EndsOpen segs) : segments 0 (u ++ x) = .ok segs := by
  induction segs generalizing u with
  | nil =>
    obtain ⟨_,ends⟩ | ⟨g,rest,more,leads,same,later⟩ := exists_leads word
    · refine segments_of_break fun c begins => ?_
      cases u with
      | nil => rw [apart c begins]; decide
      | cons d u => exact ends c begins
    · cases same
  | cons g more ih =>
    obtain ⟨none,_⟩ | ⟨g,rest,more,leads,same,later⟩ := exists_leads word
    · cases none
    · cases same
      have inside : rest = wordSource more → ¬ EndsOpen more := by
        intro all opened
        exact closed (by rw [leads.whole,all,wordSource_cons]) (opened.cons g)
      have outside : rest = [] → ∀ t, g = .bare t → ¬ LeftOpen t := by
        rintro rfl t rfl opened
        cases later
        exact closed (by rw [leads.whole,wordSource_cons]; rfl) ⟨t,rfl,opened⟩
      rw [leads.before x apart outside,ih later inside]
      rfl

/-! ### Lexemes -/

theorem beginsWord_append {u : Text} (begins : beginsWord u = true) {x : Text} (apart : Apart x) :
    beginsWord (u ++ x) = true := by
  cases u with
  | nil => cases begins
  | cons c r =>
    simp only [beginsWord,Bool.not_eq_true',Bool.or_eq_false_iff,Bool.and_eq_false_iff,decide_eq_false_iff_not] at begins
    obtain ⟨⟨blank,breaks⟩,errors⟩ := begins
    rw [List.cons_append]
    simp only [beginsWord,Bool.not_eq_true',Bool.or_eq_false_iff,Bool.and_eq_false_iff,decide_eq_false_iff_not]
    exact ⟨⟨blank,breaks⟩,errors.imp_right fun noArrow => head?_append_ne noArrow (by decide) apart⟩

/-- The last of the lexemes is a word that is left open. -/
def Unfinished (l : List Lexeme) : Prop := ∃ segs, l.getLast? = some (.word segs) ∧ EndsOpen segs

theorem Unfinished.append {l : List Lexeme} (unfinished : Unfinished l) (new : List Lexeme) : Unfinished (new ++ l) := by
  obtain ⟨segs,last,opened⟩ := unfinished
  exact ⟨segs,by rw [List.getLast?_append,last]; rfl,opened⟩

/-- A text that begins with these lexemes, and what comes after them. -/
structure Opens (u : Text) (l : List Lexeme) (rest : Text) : Prop where
  shorter : rest.length < u.length
  alone : read 0 u = (read 0 rest).map (l ++ ·)
  /-- What follows the text does not change the lexemes, unless they are the end of the text and left open. -/
  before : ∀ x, Apart x → (rest = [] → ¬ Unfinished l) → read 0 (u ++ x) = (read 0 (rest ++ x)).map (l ++ ·)

theorem opens_of_before {u rest : Text} {l : List Lexeme} (shorter : rest.length < u.length)
    (before : ∀ x, Apart x → read 0 (u ++ x) = (read 0 (rest ++ x)).map (l ++ ·)) : Opens u l rest where
  shorter := shorter
  alone := by simpa using before [] apart_nil
  before x apart _ := before x apart

theorem opens_word {u : Text} {segs : List Segment} (begins : beginsWord u = true) (word : segments 0 u = .ok segs) :
    ∃ rest, Opens u [.word segs] rest := by
  obtain ⟨rest,whole⟩ := exists_wordSource word
  have nonempty : wordSource segs ≠ [] := wordSource_ne_nil begins word
  refine ⟨rest,Text.length_lt_of_append whole nonempty,?_,fun x apart closed => ?_⟩
  · rw [whole] at begins word ⊢
    exact read_word begins nonempty word rfl
  · have begins := beginsWord_append begins apart
    have word := segments_append word apart (by
      intro all opened
      rw [all] at whole
      exact closed (List.self_eq_append_right.mp whole) ⟨segs,rfl,opened⟩)
    rw [whole,List.append_assoc] at begins word ⊢
    exact read_word begins nonempty word rfl

/-- Where no word begins there is a blank or an operator. It is read as such in front of every other text, unless the
    operator would go on there. -/
theorem exists_operator {c : Char} {r : Text} (noWord : beginsWord (c :: r) = false)
    (supported : ∀ op, read 0 (c :: r) ≠ .error (.unsupportedOperator op)) :
    ∃ op rest l, c :: r = op ++ rest ∧ op ≠ [] ∧ ∀ y : Text,
      (∀ d ∈ ['|','&','>'], y.head? = some d → rest.head? = some d) → read 0 (op ++ y) = (read 0 y).map (l ++ ·) := by
  have other : ∀ {y r : Text} {d : Char}, (∀ d ∈ ['|','&','>'], y.head? = some d → r.head? = some d) →
      d ∈ ['|','&','>'] → r.head? ≠ some d → y.head? ≠ some d := fun same mem none found => none (same _ mem found)
  by_cases blank : isAsciiBlank c = true
  · refine ⟨[c],r,[],rfl,by simp,fun y _ => ?_⟩
    rw [List.singleton_append,read_blank blank]
    cases read 0 y <;> rfl
  by_cases pipe : c = '|'
  · subst pipe
    by_cases double : r.head? = some '|'
    · exact absurd (by simp [read,isAsciiBlank,double]) (supported (txt "||"))
    · exact ⟨['|'],r,[.pipe],rfl,by simp,fun y same => read_pipe (other same (by simp) double)⟩
  by_cases ampersand : c = '&'
  · subst ampersand
    by_cases double : r.head? = some '&'
    · exact absurd (by simp [read,isAsciiBlank,double]) (supported (txt "&&"))
    · exact ⟨['&'],r,[.ampersand],rfl,by simp,fun y same => read_ampersand (other same (by simp) double)⟩
  by_cases semicolon : c = ';'
  · subst semicolon
    exact absurd (by simp [read,isAsciiBlank]) (supported (txt ";"))
  by_cases output : c = '>'
  · subst output
    by_cases double : r.head? = some '>'
    · obtain ⟨r,rfl⟩ := List.head?_eq_some_iff.mp double
      exact ⟨['>','>'],r,[.redirect .append],rfl,by simp,fun y _ => read_append y⟩
    by_cases duplicate : r.head? = some '&'
    · obtain ⟨r,rfl⟩ := List.head?_eq_some_iff.mp duplicate
      exact ⟨['>','&'],r,[.duplicate 1],rfl,by simp,fun y _ => read_duplicateOutput y⟩
    exact ⟨['>'],r,[.redirect .output],rfl,by simp,fun y same =>
      read_output (other same (by simp) double) (other same (by simp) duplicate)⟩
  by_cases input : c = '<'
  · subst input
    exact ⟨['<'],r,[.redirect .input],rfl,by simp,fun y _ => read_input y⟩
  by_cases errors : c = '2' ∧ r.head? = some '>'
  · obtain ⟨rfl,arrow⟩ := errors
    obtain ⟨r,rfl⟩ := List.head?_eq_some_iff.mp arrow
    by_cases duplicate : r.head? = some '&'
    · obtain ⟨r,rfl⟩ := List.head?_eq_some_iff.mp duplicate
      exact ⟨['2','>','&'],r,[.duplicate 2],rfl,by simp,fun y _ => read_duplicateErrors y⟩
    exact ⟨['2','>'],r,[.redirect .error],rfl,by simp,fun y same => read_error (other same (by simp) duplicate)⟩
  refine absurd noWord (Bool.not_eq_false _ ▸ ?_)
  simp only [isAsciiBlank,Bool.or_eq_true,decide_eq_true_eq,not_or] at blank
  simp [beginsWord,isAsciiBlank,isWordBreak,blank,pipe,ampersand,semicolon,output,input]
  exact Decidable.not_and_iff_not_or_not.mp errors

/-- A text that can be read is nothing, or a lexeme or a blank and what comes after it. -/
theorem exists_opens {c : Char} {r : Text} {l : List Lexeme} (lexemes : read 0 (c :: r) = .ok l) :
    ∃ new rest, Opens (c :: r) new rest := by
  cases begins : beginsWord (c :: r) with
  | false =>
    obtain ⟨op,rest,new,whole,nonempty,before⟩ := exists_operator begins (by simp [lexemes])
    refine ⟨new,rest,opens_of_before (Text.length_lt_of_append whole nonempty) fun x apart => ?_⟩
    rw [whole,List.append_assoc]
    refine before (rest ++ x) fun d mem found => ?_
    have visible : d ≠ ' ' := by
      rintro rfl
      simp at mem
    exact Decidable.byContradiction fun none => head?_append_ne none visible apart found
  | true =>
    cases word : segments 0 (c :: r) with
    | error e =>
      rw [read_of_beginsWord begins,word] at lexemes
      cases lexemes
    | ok segs =>
      obtain ⟨rest,opens⟩ := opens_word begins word
      exact ⟨[.word segs],rest,opens⟩

/-- **Reading goes on after a blank.** A text that is not left open is read in the same way whatever else stands on the
    line after a blank. -/
theorem reads_of_finished {u : Text} {l : List Lexeme} (lexemes : ofLine u = .ok l) (finished : ¬ Unfinished l) :
    Reads u l := by
  -- A lexeme takes several characters, so the induction is on the length.
  induction size : u.length using Nat.strongRecOn generalizing u l with
  | _ n ih =>
    subst size
    intro x apart
    cases u with
    | nil =>
      cases lexemes
      rw [List.nil_append]
      cases read 0 x <;> rfl
    | cons c r =>
      obtain ⟨new,rest,opens⟩ := exists_opens lexemes
      rw [ofLine,opens.alone] at lexemes
      obtain ⟨more,later,rfl⟩ := exists_of_map lexemes
      have inside : ¬ Unfinished more := fun opened => finished (opened.append new)
      have outside : rest = [] → ¬ Unfinished new := by
        rintro rfl
        cases later
        rwa [List.append_nil] at finished
      rw [opens.before x apart outside,ih _ opens.shorter later inside rfl x apart]
      cases read 0 x with
      | error e => rfl
      | ok k => simp [Except.map]

end Lexeme
end JobShell

import JobShell.Proofs.Syntax.ByteExpansion
import JobShell.Proofs.Syntax.OpenQuotes

/-!
# Segments by byte positions

The text of quotes and of a segment without quotes is cut out of a line at the
byte positions where it ends. A backslash takes two bytes along, and so may lead
into a character; the bytes of that character are passed over, so all cuts are on
boundaries and within the line (`Lexeme.bareEnd?_eq`, `Lexeme.bare?_eq`).
-/
namespace JobShell

/-- What the text of a segment stands for is written; only special characters are looked at more closely. -/
noncomputable def Expansion.content? (s : Surroundings) (inDouble : Bool) (t : Text) (d : Draft) : Option Draft :=
  if t.any isSpecial then expand? s inDouble t 0 d else some (d.pushText t)

/-- The text that stands for a tilde with what is before it, and the text behind the tilde. -/
def Expansion.withoutTilde? (t : Text) : Option (Nat × Nat × Text) → Option (Text × Text)
  | none => some ([],t)
  | some (tilde,stop,home) => do
    let (before,_) ← Text.cut? tilde t
    let (_,tail) ← Text.cut? stop t
    return (before ++ home,tail)

namespace Lexeme

/-- The word with the text of the single quotes that begin at `pos`, and the position behind them. -/
def single? (t : Text) (pos : Nat) (d : Draft) : Option (Except SyntaxError (Nat × Draft)) := do
  let (_,rest) ← Text.cut? (pos+1) t
  match Text.firstPlace? (· == singleQuote) rest with
  | none => return .error (.unclosedQuote singleQuote)
  | some n =>
    let body ← t.between? (pos+1) (pos+1+n)
    return .ok (pos+1+n+1,Draft.pushText { d with quoted := true } body)

/-- A byte in double quotes is passed over. A backslash takes the next byte along. -/
def doubleEndRound (t : Text) (pos : Nat) : Option (Nat ⊕ Option Nat) :=
  match (Text.octets t)[pos]? with
  | none => some (.inr none)
  | some b =>
    if b = doubleQuote then some (.inr (some pos))
    else if b = backslash then some (.inl (pos+2))
    else some (.inl (pos+1))

/-- The position of the double quote that ends the segment, looked for from `pos` on. -/
noncomputable def doubleEnd? (t : Text) : Nat → Option (Option Nat) := loop? (doubleEndRound t)

/-- The word with what the double quotes that begin at `pos` stand for, and the position behind them. -/
noncomputable def double? (s : Surroundings) (t : Text) (pos : Nat) (d : Draft) :
    Option (Except SyntaxError (Nat × Draft)) := do
  match ← doubleEnd? t (pos+1) with
  | none => return .error (.unclosedQuote doubleQuote)
  | some stop =>
    let body ← t.between? (pos+1) stop
    return .ok (stop+1,← Expansion.content? s true body { d with quoted := true })

/-- What begins at a byte outside quotes is passed over. A backslash takes the next byte along, but not more than there
    are, and a substitution is passed over as a whole. -/
noncomputable def bareEndRound (t : Text) (pos : Nat) : Option (Nat ⊕ Nat) :=
  if pos < (Text.octets t).length then do
    let b ← (Text.octets t)[pos]?
    if b = singleQuote || b = doubleQuote then return .inr pos
    else if isWordBreak b then return .inr pos
    else if b = backslash then return .inl (min (pos+2) (Text.octets t).length)
    else if b = '$' && (Text.octets t)[pos+1]? = some '(' then (Substitution.skip? t (pos+1)).map .inl
    else if b = backQuote then (Substitution.behindTick? t pos).map .inl
    else return .inl (pos+1)
  else return .inr pos

/-- The position where a segment without quotes ends, looked for from `pos` on. -/
noncomputable def bareEnd? (t : Text) : Nat → Option Nat := loop? (bareEndRound t)

/-- The next character boundary. -/
noncomputable def align? (t : Text) : Nat → Option Nat :=
  loop? fun pos => if (Text.cut? pos t).isSome then some (.inr pos) else some (.inl (pos+1))

/-- The word with what the segment without quotes that begins at `pos` stands for, and the position behind it. -/
noncomputable def bare? (s : Surroundings) (t : Text) (pos : Nat) (d : Draft) : Option (Nat × Draft) := do
  let stop ← align? t (← bareEnd? t pos)
  let body ← t.between? pos stop
  let last := (Text.octets t)[stop]?.all isWordBreak
  let tilde ← Expansion.tildePrefix? s (d.reversed.isEmpty && !d.quoted) last body
  let (front,body) ← Expansion.withoutTilde? body tilde
  let d := d.pushText front
  return (stop,← Expansion.content? s false body { d with quoted := d.quoted || body.contains backslash })

end Lexeme

/-! ### Quotes -/

theorem Expansion.content?_eq (s : Surroundings) (inDouble : Bool) {t : Text} (fits : Substitution.Fits t) {d : Draft}
    (sized : d.Sized) : content? s inDouble t d = some ((body s inDouble 0 t).foldl .push d) := by
  rw [content?]
  split_ifs with special
  · exact expand?_eq s inDouble [] fits sized
  · rw [body_plain s inDouble (Bool.eq_false_iff.mpr special),sized.foldl_push_chars]

/-- What a segment stands for may be written after its word has become a quoted one. -/
theorem Expansion.content?_quoted (s : Surroundings) (inDouble : Bool) {t : Text} (fits : Substitution.Fits t) {d : Draft}
    (sized : d.Sized) (quoted : Bool) :
    content? s inDouble t { d with quoted := d.quoted || quoted } = some (d.extend (body s inDouble 0 t) quoted) := by
  have sized' : Draft.Sized { d with quoted := d.quoted || quoted } := sized
  rw [content?_eq s inDouble fits sized',sized.foldl_push_quoted]

namespace Lexeme

theorem single?_closed (a : Text) {q : Text} (free : singleQuote ∉ q) (u : Text) {d : Draft} (sized : d.Sized) :
    single? (a ++ singleQuote :: (q ++ singleQuote :: u)) (Text.width a) d =
      some (.ok (Text.width (a ++ Segment.source (.single q)),d.extend (q.map .char) true)) := by
  have one : Text.Low singleQuote := by decide
  have written : Draft.pushText { d with quoted := true } q = d.extend (q.map .char) true := by
    have sized' : Draft.Sized { d with quoted := true } := sized
    rw [← sized'.foldl_push_chars,sized.foldl_push_true]
  have place : Text.width a + 1 = Text.width (a ++ [singleQuote]) := (Text.width_low one a).symm
  have whole : a ++ singleQuote :: (q ++ singleQuote :: u) = a ++ [singleQuote] ++ (q ++ singleQuote :: u) := by simp
  have part := Text.between?_append (a ++ [singleQuote]) q (singleQuote :: u)
  rw [List.append_assoc (a ++ [singleQuote]),Text.width_append (a ++ [singleQuote])] at part
  have stop : Text.width (a ++ Segment.source (.single q)) = Text.width (a ++ [singleQuote]) + Text.width q + 1 := by
    rw [← Text.width_append,← Text.width_low one]
    simp [Segment.source]
  rw [single?,place,whole,Text.cut?_append,stop]
  simp only [Option.bind_eq_bind,Option.bind_some,Text.firstPlace?_eq_splitAt?,Text.splitAt?_append free,Option.map_some,
    part]
  rw [written]
  rfl

theorem single?_open (a : Text) {r : Text} (free : singleQuote ∉ r) (d : Draft) :
    single? (a ++ singleQuote :: r) (Text.width a) d = some (.error (.unclosedQuote singleQuote)) := by
  rw [single?,Text.cut?_low (by decide)]
  simp only [Option.bind_eq_bind,Option.bind_some,Text.firstPlace?_eq_splitAt?,Text.splitAt?_free free,Option.map_none]
  rfl

theorem doubleEndRound_octet {t : Text} {pos : Nat} {x : Char} (octet : (Text.octets t)[pos]? = some x) :
    doubleEndRound t pos =
      if x = doubleQuote then some (.inr (some pos))
      else if x = backslash then some (.inl (pos+2))
      else some (.inl (pos+1)) := by
  rw [doubleEndRound,octet]

theorem doubleEnd?_beyond {t : Text} {pos : Nat} (beyond : Text.width t ≤ pos) : doubleEnd? t pos = some none := by
  have none : (Text.octets t)[pos]? = none := by rwa [List.getElem?_eq_none_iff,Text.length_octets]
  refine loop?_done ?_
  rw [doubleEndRound,none]

theorem doubleEnd?_backslash (a r : Text) :
    doubleEnd? (a ++ backslash :: r) (Text.width a) = doubleEnd? (a ++ backslash :: r) (Text.width a + 2) := by
  refine loop?_next ?_
  rw [doubleEndRound_octet (Text.octet_low (by decide) a r),if_neg (by decide),if_pos rfl]

theorem doubleEnd?_other {t : Text} {pos : Nat} {x : Char} (octet : (Text.octets t)[pos]? = some x)
    (other : x ≠ doubleQuote ∧ x ≠ backslash) : doubleEnd? t pos = doubleEnd? t (pos+1) := by
  refine loop?_next ?_
  rw [doubleEndRound_octet octet,if_neg other.1,if_neg other.2]

theorem other_of_high {x : Char} (high : ¬Text.Low x) : x ≠ doubleQuote ∧ x ≠ backslash := by
  refine ⟨?_,?_⟩ <;> rintro rfl <;> exact high (by decide)

/-- A backslash takes two bytes along, and those that are left of the character after it are passed over. -/
theorem doubleEnd?_escape (a : Text) (x : Char) (u : Text) :
    doubleEnd? (a ++ backslash :: x :: u) (Text.width a) =
      doubleEnd? (a ++ backslash :: x :: u) (Text.width (a ++ [backslash,x])) := by
  rw [doubleEnd?_backslash]
  exact Text.passes_second (r := u) (by decide) fun pos y octet high => doubleEnd?_other octet (other_of_high high)

theorem doubleEnd?_char (a : Text) {c : Char} (other : c ≠ doubleQuote ∧ c ≠ backslash) (r : Text) :
    doubleEnd? (a ++ c :: r) (Text.width a) = doubleEnd? (a ++ c :: r) (Text.width (a ++ [c])) := by
  rw [Text.width_concat]
  exact Text.passes (r := r) (fun pos x octet other => doubleEnd?_other octet other) other fun _ x high => other_of_high high

theorem doubleEnd?_eq (a b : Text) :
    doubleEnd? (a ++ b) (Text.width a) = some ((doubleLength? false b).map fun n => Text.width (a ++ b.take n)) := by
  -- An escape is two characters, so the induction is on the length.
  induction size : b.length using Nat.strongRecOn generalizing a b with
  | _ n ih =>
    subst size
    cases b with
    | nil => rw [List.append_nil,doubleEnd?_beyond (Nat.le_refl _)]; rfl
    | cons c r =>
      by_cases quote : c = doubleQuote
      · subst quote
        have round := doubleEndRound_octet (Text.octet_low (show Text.Low doubleQuote by decide) a r)
        rw [if_pos rfl] at round
        exact (loop?_done round).trans (by simp [doubleLength?])
      by_cases escape : c = backslash
      · subst escape
        have differs : backslash ≠ doubleQuote := by decide
        cases r with
        | nil =>
          have beyond : Text.width (a ++ [backslash]) ≤ Text.width a + 2 := by
            rw [Text.width_low (by decide)]
            exact Nat.le_succ _
          rw [doubleEnd?_backslash,doubleEnd?_beyond beyond]
          simp [doubleLength?,differs]
        | cons x u =>
          have next := ih u.length (by simp only [List.length_cons]; omega) (a ++ [backslash,x]) u rfl
          rw [List.append_assoc,List.cons_append,List.singleton_append] at next
          rw [doubleEnd?_escape,next]
          simp [doubleLength?,differs,Function.comp_def]
      have next := ih r.length (by simp) (a ++ [c]) r rfl
      rw [List.append_assoc,List.singleton_append] at next
      rw [doubleEnd?_char a ⟨quote,escape⟩,next,doubleLength?]
      simp [quote,escape,Function.comp_def]

theorem double?_closed (s : Surroundings) (a : Text) {q : Text} {u : Text} (fits : Substitution.Fits q)
    (ends : doubleLength? false (q ++ doubleQuote :: u) = some q.length) {d : Draft} (sized : d.Sized) :
    double? s (a ++ doubleQuote :: (q ++ doubleQuote :: u)) (Text.width a) d =
      some (.ok (Text.width (a ++ Segment.source (.double q)),d.extend (Expansion.body s true 0 q) true)) := by
  have one : Text.Low doubleQuote := by decide
  have content := Expansion.content?_quoted s true fits sized true
  rw [Bool.or_true] at content
  have place : Text.width a + 1 = Text.width (a ++ [doubleQuote]) := (Text.width_low one a).symm
  have whole : a ++ doubleQuote :: (q ++ doubleQuote :: u) = a ++ [doubleQuote] ++ (q ++ doubleQuote :: u) := by simp
  have part := Text.between?_append (a ++ [doubleQuote]) q (doubleQuote :: u)
  rw [List.append_assoc (a ++ [doubleQuote])] at part
  have stop : Text.width (a ++ Segment.source (.double q)) = Text.width (a ++ [doubleQuote] ++ q) + 1 := by
    rw [← Text.width_low one]
    simp [Segment.source]
  rw [double?,place,whole,doubleEnd?_eq,ends,stop]
  simp only [Option.bind_eq_bind,Option.bind_some,Option.map_some,List.take_left,part,content]
  rfl

theorem double?_open (s : Surroundings) (a : Text) {r : Text} (none : doubleLength? false r = none) (d : Draft) :
    double? s (a ++ doubleQuote :: r) (Text.width a) d = some (.error (.unclosedQuote doubleQuote)) := by
  have one : Text.Low doubleQuote := by decide
  have place : Text.width a + 1 = Text.width (a ++ [doubleQuote]) := (Text.width_low one a).symm
  have whole : a ++ doubleQuote :: r = a ++ [doubleQuote] ++ r := by simp
  rw [double?,place,whole,doubleEnd?_eq,none]
  rfl

/-! ### Segments without quotes -/

theorem low_of_isWordBreak {c : Char} (breaks : isWordBreak c = true) : Text.Low c := by
  simp only [isWordBreak,Bool.or_eq_true,decide_eq_true_eq] at breaks
  rcases breaks with (((((((rfl | rfl) | rfl) | rfl) | rfl) | rfl) | rfl) | rfl) | rfl <;> decide

theorem bareEndRound_octet {t : Text} {pos : Nat} {x : Char} (octet : (Text.octets t)[pos]? = some x) :
    bareEndRound t pos =
      if isBareStart x = false then some (.inr pos)
      else if x = backslash then some (.inl (min (pos+2) (Text.width t)))
      else if x = '$' && (Text.octets t)[pos+1]? = some '(' then (Substitution.skip? t (pos+1)).map .inl
      else if x = backQuote then (Substitution.behindTick? t pos).map .inl
      else some (.inl (pos+1)) := by
  rw [bareEndRound,if_pos (List.getElem?_eq_some_iff.mp octet).1,octet,Text.length_octets,isBareStart]
  cases quotes : x = singleQuote || x = doubleQuote <;> cases breaks : isWordBreak x <;>
    simp only [Option.bind_eq_bind,Option.bind_some,quotes,breaks,Bool.or_false,Bool.or_true,Bool.not_true,Bool.not_false,
      Bool.true_eq_false,Bool.false_eq_true,if_true,if_false] <;> rfl

theorem bareEnd?_plain {t : Text} {pos : Nat} {x : Char} (octet : (Text.octets t)[pos]? = some x)
    (starts : isBareStart x = true) (plain : x ≠ backslash ∧ x ≠ backQuote)
    (dollar : x = '$' → (Text.octets t)[pos+1]? ≠ some '(') : bareEnd? t pos = bareEnd? t (pos+1) := by
  have noParens : (x = '$' && (Text.octets t)[pos+1]? = some '(') = false := by simpa using dollar
  refine loop?_next ?_
  rw [bareEndRound_octet octet,if_neg (by simp [starts]),if_neg plain.1,noParens,if_neg Bool.false_ne_true,if_neg plain.2]

theorem isBareStart_high {x : Char} (high : ¬Text.Low x) :
    isBareStart x = true ∧ x ≠ backslash ∧ x ≠ backQuote ∧ x ≠ '$' := by
  have other : ∀ {d : Char}, Text.Low d → x ≠ d := fun low same => high (same ▸ low)
  have breaks : isWordBreak x = false := Bool.eq_false_iff.mpr fun breaks => high (low_of_isWordBreak breaks)
  have starts : isBareStart x = true := by
    simp [isBareStart,breaks,other (d := singleQuote) (by decide),other (d := doubleQuote) (by decide)]
  exact ⟨starts,other (by decide),other (by decide),other (by decide)⟩

theorem bareEnd?_end (t : Text) : bareEnd? t (Text.width t) = some (Text.width t) := by
  refine loop?_done ?_
  rw [bareEndRound,Text.length_octets,if_neg (Nat.lt_irrefl _)]
  rfl

theorem bareEnd?_stops (a : Text) {r : Text} (stops : Stops r) : bareEnd? (a ++ r) (Text.width a) = some (Text.width a) := by
  cases r with
  | nil =>
    rw [List.append_nil]
    exact bareEnd?_end a
  | cons c r =>
    have ends : isBareStart c = false := stops c rfl
    have low : Text.Low c := by
      by_contra high
      exact Bool.false_ne_true (ends.symm.trans (isBareStart_high high).1)
    refine loop?_done ?_
    rw [bareEndRound_octet (Text.octet_low low a r),if_pos ends]

theorem bareEnd?_backslash (a r : Text) :
    bareEnd? (a ++ backslash :: r) (Text.width a) =
      bareEnd? (a ++ backslash :: r) (min (Text.width a + 2) (Text.width (a ++ backslash :: r))) := by
  refine loop?_next ?_
  rw [bareEndRound_octet (Text.octet_low (by decide) a r),if_neg (by decide),if_pos rfl]

/-- The bytes that are left of the character after a backslash are passed over. -/
theorem bareEnd?_escape (a : Text) (x : Char) (u : Text) :
    bareEnd? (a ++ backslash :: x :: u) (Text.width a) =
      bareEnd? (a ++ backslash :: x :: u) (Text.width (a ++ [backslash,x])) := by
  have one : Text.Low backslash := by decide
  have fits : Text.width a + 2 ≤ Text.width (a ++ backslash :: x :: u) := by
    have positive := x.utf8Size_pos
    rw [Text.width_append,Text.width_cons,Text.width_cons,Text.size_low one]
    omega
  rw [bareEnd?_backslash,Nat.min_eq_left fits]
  refine Text.passes_second (r := u) one fun pos y octet high => ?_
  obtain ⟨starts,noEscape,noTick,noDollar⟩ := isBareStart_high high
  exact bareEnd?_plain octet starts ⟨noEscape,noTick⟩ fun same => absurd same noDollar

theorem bareEnd?_tick (a r : Text) :
    bareEnd? (a ++ backQuote :: r) (Text.width a) =
      bareEnd? (a ++ backQuote :: r) (Text.width (a ++ backQuote :: r.take (Substitution.tickLength r))) := by
  have noDollar : (backQuote = '$' && (Text.octets (a ++ backQuote :: r))[Text.width a + 1]? = some '(') = false := by
    rw [decide_eq_false (by decide),Bool.false_and]
  refine loop?_next ?_
  rw [bareEndRound_octet (Text.octet_low (by decide) a r),if_neg (by decide),if_neg (by decide),noDollar,
    if_neg Bool.false_ne_true,if_pos rfl,Substitution.behindTick?_eq]
  rfl

theorem bareEnd?_opened (a : Text) {u : Text} (fits : Substitution.Fits ('(' :: u)) :
    bareEnd? (a ++ '$' :: '(' :: u) (Text.width a) =
      bareEnd? (a ++ '$' :: '(' :: u) (Text.width (a ++ Substitution.opened u)) := by
  have low : Text.Low '$' := by decide
  have parens : (Text.octets (a ++ '$' :: '(' :: u))[Text.width a + 1]? = some '(' :=
    (Text.octet_second low (by decide) a _).mpr rfl
  have stop : Substitution.skip? (a ++ '$' :: '(' :: u) (Text.width a + 1) =
      some (Text.width (a ++ Substitution.opened u)) := by
    have whole : a ++ '$' :: '(' :: u = a ++ ['$'] ++ '(' :: u := by simp
    rw [whole,← Text.width_low low,Substitution.skip?_eq _ fits,List.append_assoc]
    rfl
  refine loop?_next ?_
  rw [bareEndRound_octet (Text.octet_low low a _),if_neg (by decide),if_neg (by decide),if_pos (by simp [parens]),stop]
  rfl

theorem bareEnd?_char (a : Text) {c : Char} {r : Text} (starts : isBareStart c = true)
    (plain : c ≠ backslash ∧ c ≠ backQuote) (dollar : c = '$' → r.head? ≠ some '(') :
    bareEnd? (a ++ c :: r) (Text.width a) = bareEnd? (a ++ c :: r) (Text.width (a ++ [c])) := by
  by_cases dollarSign : c = '$'
  · subst dollarSign
    have low : Text.Low '$' := by decide
    have noParens : (Text.octets (a ++ '$' :: r))[Text.width a + 1]? ≠ some '(' := by
      rw [ne_eq,Text.octet_second low (by decide)]
      exact dollar rfl
    rw [bareEnd?_plain (Text.octet_low low a r) starts plain fun _ => noParens,Text.width_low low]
  · rw [Text.width_concat]
    refine Text.passes (P := fun x => isBareStart x = true ∧ x ≠ backslash ∧ x ≠ backQuote ∧ x ≠ '$') (r := r) ?_
      ⟨starts,plain.1,plain.2,dollarSign⟩ fun _ x high => isBareStart_high high
    rintro pos x octet ⟨starts,noEscape,noTick,noDollar⟩
    exact bareEnd?_plain octet starts ⟨noEscape,noTick⟩ fun same => absurd same noDollar

/-- Complete text is passed over as a whole. -/
theorem bareEnd?_complete {t : Text} (complete : Complete t) (a : Text) {r : Text} (apart : r.head? ≠ some '(')
    (fits : Substitution.Fits (t ++ r)) :
    bareEnd? (a ++ (t ++ r)) (Text.width a) = bareEnd? (a ++ (t ++ r)) (Text.width (a ++ t)) := by
  induction complete generalizing a with
  | nil => rw [List.append_nil]
  | @char c t starts plain dollar rest ih =>
    have noParens : c = '$' → (t ++ r).head? ≠ some '(' := by
      intro isDollar
      cases t with
      | nil => exact apart
      | cons d t => exact dollar isDollar
    have later := ih (a ++ [c]) (fits.rest [c] rfl)
    simp only [List.append_assoc,List.singleton_append] at later
    exact (bareEnd?_char a starts plain noParens).trans later
  | @escape c t rest ih =>
    have later := ih (a ++ [backslash,c]) (fits.rest [backslash,c] rfl)
    simp only [List.append_assoc,List.cons_append,List.nil_append] at later
    exact (bareEnd?_escape a c _).trans later
  | @parens x t inner rest ih =>
    have later := ih (a ++ '$' :: '(' :: (x ++ [')'])) (fits.rest ('$' :: '(' :: (x ++ [')'])) (by simp))
    simp only [List.append_assoc,List.cons_append] at fits
    have here := bareEnd?_opened a (fits.rest ['$'] rfl)
    rw [inner.opened] at here
    simp only [List.append_assoc,List.cons_append,List.nil_append] at later here ⊢
    exact here.trans later
  | @ticks q t free rest ih =>
    have later := ih (a ++ backQuote :: (q ++ [backQuote])) (fits.rest (backQuote :: (q ++ [backQuote])) (by simp))
    have here := bareEnd?_tick a (q ++ backQuote :: (t ++ r))
    rw [Substitution.tickLength_append free,List.take_length_add_append] at here
    simp only [List.append_assoc,List.cons_append,List.nil_append,List.take_succ_cons,List.take_zero] at later here ⊢
    exact here.trans later

/-- What is left open goes up to the end. -/
theorem bareEnd?_unclosed (a : Text) {r : Text} (unclosed : Unclosed r) (fits : Substitution.Fits r) :
    bareEnd? (a ++ r) (Text.width a) = some (Text.width (a ++ r)) := by
  cases unclosed with
  | escape =>
    have beyond : Text.width (a ++ [backslash]) ≤ Text.width a + 2 := by
      rw [Text.width_low (by decide)]
      exact Nat.le_succ _
    rw [bareEnd?_backslash,Nat.min_eq_right beyond]
    exact bareEnd?_end _
  | @parens q endless =>
    have all : Substitution.opened q = '$' :: '(' :: q := by
      rw [Substitution.opened,Substitution.parenLength,endless]
      exact congrArg _ (congrArg _ List.take_length)
    rw [bareEnd?_opened a (fits.rest ['$'] rfl),all]
    exact bareEnd?_end _
  | @ticks q free =>
    rw [bareEnd?_tick,Substitution.tickLength_eq_length free,List.take_length]
    exact bareEnd?_end _

theorem bareEnd?_eq (a : Text) {b : Text} (fits : Substitution.Fits b) :
    bareEnd? (a ++ b) (Text.width a) = some (Text.width (a ++ b.take (bareLength 0 b))) := by
  obtain ⟨t,r,rfl,complete,stops | unclosed⟩ := exists_complete b
  · rw [bareEnd?_complete complete a stops.head?_ne fits,complete.bareLength_append stops.head?_ne,bareLength_of_stops stops,
      Nat.add_zero,List.take_left,← List.append_assoc,bareEnd?_stops (a ++ t) stops]
  · rw [bareEnd?_complete complete a unclosed.head?_ne fits,complete.bareLength_append unclosed.head?_ne,
      unclosed.bareLength_eq,← List.length_append,List.take_length,← List.append_assoc,bareEnd?_unclosed (a ++ t) unclosed (fits.rest t rfl)]

theorem align?_eq (a b : Text) : align? (a ++ b) (Text.width a) = some (Text.width a) := by
  refine loop?_done ?_
  rw [Text.cut?_append]
  rfl

end Lexeme

/-- What a segment without quotes stands for; `first` tells whether the word begins here. -/
def Expansion.bareAtoms (s : Surroundings) (first last : Bool) (t : Text) : List Atom :=
  match if first then tilde? s last t else none with
  | some (before,home,tail) => (before ++ home).map .char ++ body s false 0 tail
  | none => body s false 0 t

theorem Expansion.segments_cons_bare (s : Surroundings) (first : Bool) (t : Text) (r : List Segment) :
    segments s first (.bare t :: r) = bareAtoms s first r.isEmpty t ++ segments s false r := rfl

/-- A tilde and what it stands for are cut out of a segment, and hold no backslash. What is left is its end. -/
theorem Expansion.withoutTilde?_eq (s : Surroundings) (first last : Bool) (t : Text) :
    ∃ tilde front rest, tildePrefix? s first last t = some tilde ∧ withoutTilde? t tilde = some (front,rest) ∧
      front.map .char ++ body s false 0 rest = bareAtoms s first last t ∧
      rest.contains backslash = t.contains backslash ∧ rest <:+ t := by
  obtain ⟨none,none'⟩ | ⟨before,user,home,tail,whole,found,place⟩ := tildePrefix?_eq s first last t
  · refine ⟨_,[],t,none',rfl,?_,rfl,List.suffix_refl t⟩
    rw [bareAtoms,none]
    rfl
  · have cut := Text.cut?_append before ('~' :: (user ++ tail))
    have cut' := Text.cut?_append (before ++ '~' :: user) tail
    rw [List.append_assoc,List.cons_append] at cut'
    rw [← whole] at cut cut'
    refine ⟨_,before ++ home,tail,place,?_,?_,?_,⟨before ++ '~' :: user,by simp [whole]⟩⟩
    · rw [withoutTilde?,cut,cut']
      rfl
    · rw [bareAtoms,found]
    · obtain ⟨-,found⟩ := Option.ite_none_right_eq_some.mp found
      obtain ⟨user,split,plainBefore,plainUser⟩ := tilde?_eq_some found
      have free : ∀ {u : Text}, u.any isSpecial = false → backslash ∉ u := by
        intro u plain mem
        exact absurd (List.any_eq_false.mp plain _ mem) (by decide)
      have other : backslash ≠ '~' := by decide
      rw [Bool.eq_iff_iff,List.contains_iff_mem,List.contains_iff_mem,split]
      simp [free plainBefore,free plainUser,other]

namespace Lexeme

theorem bare?_eq (s : Surroundings) (a : Text) {t rest : Text} (fits : Substitution.Fits (t ++ rest)) {last : Bool}
    (length : bareLength 0 (t ++ rest) = t.length)
    (ends : ((Text.octets rest)[0]?.all isWordBreak) = last) {d : Draft} (sized : d.Sized) :
    bare? s (a ++ (t ++ rest)) (Text.width a) d =
      some (Text.width (a ++ t),d.extend (Expansion.bareAtoms s (d.reversed.isEmpty && !d.quoted) last t)
        (t.contains backslash)) := by
  have stop : bareEnd? (a ++ (t ++ rest)) (Text.width a) = some (Text.width (a ++ t)) := by
    rw [bareEnd?_eq a fits,length,List.take_left]
  have aligned := align?_eq (a ++ t) rest
  have part := Text.between?_append a t rest
  have octet := Text.getElem?_octets (a ++ t) rest 0
  rw [List.append_assoc] at aligned part octet
  obtain ⟨tilde,front,body,found,without,atoms,slash,ending⟩ :=
    Expansion.withoutTilde?_eq s (d.reversed.isEmpty && !d.quoted) last t
  rw [bare?,stop]
  simp only [Option.bind_eq_bind,Option.bind_some,aligned,part]
  rw [Nat.add_zero] at octet
  rw [octet,ends,found]
  have fits' : Substitution.Fits body := fits.sublist (ending.sublist.trans (List.sublist_append_left t rest))
  have content := Expansion.content?_quoted s false fits' (sized.pushText front) (t.contains backslash)
  have written : (d.pushText front).extend (Expansion.body s false 0 body) (t.contains backslash) =
      d.extend (Expansion.bareAtoms s (d.reversed.isEmpty && !d.quoted) last t) (t.contains backslash) := by
    rw [sized.pushText_eq_extend,sized.extend_extend,Bool.false_or,atoms]
  simp only [Option.bind_some,without,slash,content,written]
  rfl

end Lexeme
end JobShell

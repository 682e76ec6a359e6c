import JobShell.Proofs.Syntax.Expanding
import JobShell.Proofs.Syntax.Joining
import JobShell.Proofs.Text.Octets

/-!
# Expansion by byte positions

The end of a substitution is found by looking at bytes, and a segment is expanded
from byte position to byte position: its text is cut at these positions. No cut is
inside a character or beyond the text, and every loop ends, since otherwise there
were no result. The parentheses that are open are counted by a number of 32 bits;
where it can count those of the text, what is found is what the characters tell
(`Substitution.matching?_eq`, `Expansion.expand?_eq`).
-/
namespace JobShell

namespace Substitution

/-- A number of open parentheses, when it is a signed number of 32 bits. -/
def depth? (n : Int) : Option Int := if -(Numeral.maxInt32 + 1 : Int) ≤ n ∧ n ≤ Numeral.maxInt32 then some n else none

/-- The opening parentheses of a text can be counted. -/
def Fits (t : Text) : Prop := t.count '(' ≤ Numeral.maxInt32

instance (t : Text) : Decidable (Fits t) := inferInstanceAs (Decidable (t.count '(' ≤ Numeral.maxInt32))

/-- A byte is looked at, with the number of parentheses that are open before it. A quote is passed over up to its end. -/
noncomputable def matchingRound (t : Text) : Nat × Int → Option ((Nat × Int) ⊕ Option Nat)
  | (pos,depth) =>
    if pos < (Text.octets t).length then do
      let b ← (Text.octets t)[pos]?
      if b = '(' then return .inl (pos+1,← depth? (depth+1))
      else if b = ')' then
        let left ← depth? (depth-1)
        return if left = 0 then .inr (some (pos+1)) else .inl (pos+1,left)
      else if b = singleQuote then (Text.passOver? (· != singleQuote) t (pos+1)).map fun quote => .inl (quote+1,depth)
      else return .inl (pos+1,depth)
    else return .inr none

/-- The position behind the parenthesis that closes the first one from `pos` on, when `depth` are open before it. -/
noncomputable def matching? (t : Text) (pos : Nat) (depth : Int) : Option (Option Nat) :=
  loop? (matchingRound t) (pos,depth)

/-- The position behind the parentheses that begin at `pos`: the end of the text when they are not closed. -/
noncomputable def skip? (t : Text) (pos : Nat) : Option Nat := (matching? t pos 0).map (·.getD (Text.width t))

/-- The position behind the back quote after the one at `pos`, or the end. -/
def behindTick? (t : Text) (pos : Nat) : Option Nat := do
  let (_,after) ← Text.cut? (pos+1) t
  return ((Text.firstPlace? (· == backQuote) after).map (pos + 1 + · + 1)).getD (Text.width t)

/-- The command of a substitution, cut out of it. -/
noncomputable def command? (span : Text) : Option Text :=
  if (txt "$(").isPrefixOf span then do
    match ← matching? span 1 0 with
    | some 0 => none
    | some (stop+1) => span.between? 2 stop
    | none => return (← Text.cut? 2 span).2
  else
    let inner := if span.head? = some backQuote then span.tail else span
    return if inner.getLast? = some backQuote then inner.dropLast else inner

theorem depth?_of_le {n : Nat} (fits : n ≤ Numeral.maxInt32) : depth? n = some (n : Int) := by
  rw [depth?,if_pos]
  omega

theorem Fits.sublist {t u : Text} (fits : Fits t) (part : u.Sublist t) : Fits u := (part.count_le '(').trans fits

/-- What is left of a text behind its beginning. -/
theorem Fits.rest {t u : Text} (fits : Fits t) (front : Text) (whole : t = front ++ u) : Fits u :=
  fits.sublist (whole ▸ List.sublist_append_right front u)

theorem matchingRound_octet {t : Text} {pos : Nat} {x : Char} (octet : (Text.octets t)[pos]? = some x) (d : Int) :
    matchingRound t (pos,d) =
      if x = '(' then (depth? (d+1)).map fun depth => .inl (pos+1,depth)
      else if x = ')' then (depth? (d-1)).map fun left => if left = 0 then .inr (some (pos+1)) else .inl (pos+1,left)
      else if x = singleQuote then (Text.passOver? (· != singleQuote) t (pos+1)).map fun quote => .inl (quote+1,d)
      else some (.inl (pos+1,d)) := by
  rw [matchingRound,if_pos (List.getElem?_eq_some_iff.mp octet).1,octet]
  simp only [Option.bind_eq_bind,Option.bind_some,Option.map_eq_bind]
  rfl

theorem matching?_beyond {t : Text} {pos : Nat} (beyond : Text.width t ≤ pos) (d : Int) : matching? t pos d = some none := by
  refine loop?_done ?_
  rw [matchingRound,Text.length_octets,if_neg (Nat.not_lt.mpr beyond)]
  rfl

theorem matching?_open (a r : Text) {d : Nat} (fits : d + 1 ≤ Numeral.maxInt32) :
    matching? (a ++ '(' :: r) (Text.width a) d = matching? (a ++ '(' :: r) (Text.width (a ++ ['('])) (d+1) := by
  have low : Text.Low '(' := by decide
  have counted : depth? ((d : Int) + 1) = some ((d : Int) + 1) := depth?_of_le fits
  refine loop?_next ?_
  rw [matchingRound_octet (Text.octet_low low a r),if_pos rfl,Text.width_low low,counted]
  rfl

theorem matchingRound_close (a r : Text) {d : Nat} (fits : d ≤ Numeral.maxInt32) :
    matchingRound (a ++ ')' :: r) (Text.width a,(d+1 : Int)) =
      some (if d = 0 then .inr (some (Text.width (a ++ [')']))) else .inl (Text.width (a ++ [')']),(d : Int))) := by
  have low : Text.Low ')' := by decide
  have depth : (d : Int) + 1 - 1 = d := by omega
  rw [matchingRound_octet (Text.octet_low low a r),if_neg (by decide),if_pos rfl,Text.width_low low,depth,
    depth?_of_le fits]
  simp only [Option.map_some,Int.natCast_eq_zero]

theorem matchingRound_single (a r : Text) (d : Int) :
    matchingRound (a ++ singleQuote :: r) (Text.width a,d) =
      (Text.passOver? (· != singleQuote) (a ++ singleQuote :: r) (Text.width (a ++ [singleQuote]))).map fun quote =>
        .inl (quote+1,d) := by
  have low : Text.Low singleQuote := by decide
  rw [matchingRound_octet (Text.octet_low low a r),if_neg (by decide),if_neg (by decide),if_pos rfl,Text.width_low low]

theorem matching?_quoted (a : Text) {q : Text} (free : singleQuote ∉ q) (u : Text) (d : Int) :
    matching? (a ++ singleQuote :: (q ++ singleQuote :: u)) (Text.width a) d =
      matching? (a ++ singleQuote :: (q ++ singleQuote :: u)) (Text.width (a ++ singleQuote :: (q ++ [singleQuote]))) d := by
  have low : Text.Low singleQuote := by decide
  have whole : a ++ singleQuote :: (q ++ singleQuote :: u) = a ++ [singleQuote] ++ (q ++ singleQuote :: u) := by simp
  have last : a ++ singleQuote :: (q ++ [singleQuote]) = a ++ [singleQuote] ++ q ++ [singleQuote] := by simp
  refine loop?_next ?_
  rw [matchingRound_single,whole,Text.passOver?_until low _ free,last,Text.width_low low]
  rfl

/-- A quote that is not closed goes up to the end. -/
theorem matching?_endless (a : Text) {r : Text} (free : singleQuote ∉ r) (d : Int) :
    matching? (a ++ singleQuote :: r) (Text.width a) d = some none := by
  have whole : a ++ singleQuote :: r = a ++ [singleQuote] ++ r := by simp
  have behind : matchingRound (a ++ singleQuote :: r) (Text.width a,d) =
      some (.inl (Text.width (a ++ singleQuote :: r) + 1,d)) := by
    rw [matchingRound_single,whole,Text.passOver?_free (by decide) _ free]
    rfl
  exact (loop?_next behind).trans (matching?_beyond (Nat.le_succ _) d)

theorem matching?_char (a : Text) {c : Char} (other : c ≠ singleQuote ∧ c ≠ '(' ∧ c ≠ ')') (r : Text) (d : Int) :
    matching? (a ++ c :: r) (Text.width a) d = matching? (a ++ c :: r) (Text.width (a ++ [c])) d := by
  rw [Text.width_concat]
  refine Text.passes (f := fun pos => matching? (a ++ c :: r) pos d) (r := r)
    (P := fun x => x ≠ singleQuote ∧ x ≠ '(' ∧ x ≠ ')') ?_ other ?_
  · rintro pos x octet ⟨noQuote,noOpen,noClose⟩
    exact loop?_next ((matchingRound_octet octet d).trans (by rw [if_neg noOpen,if_neg noClose,if_neg noQuote]))
  · intro _ x high
    refine ⟨?_,?_,?_⟩ <;> rintro rfl <;> exact high (by decide)

theorem matching?_eq (a b : Text) {d : Nat} (fits : d + 1 + b.count '(' ≤ Numeral.maxInt32) :
    matching? (a ++ b) (Text.width a) (d+1) =
      some ((closing? d false b).map fun n => Text.width (a ++ b.take n)) := by
  -- Quoted text is passed over as a whole, so the induction is on the length.
  induction size : b.length using Nat.strongRecOn generalizing a b d with
  | _ n ih =>
    subst size
    have goOn : ∀ (front u : Text) {e : Nat}, b = front ++ u → front ≠ [] → e + u.count '(' ≤ d + b.count '(' →
        closing? d false b = (closing? e false u).map (· + front.length) →
        matching? (a ++ b) (Text.width a) (d+1) = matching? (a ++ b) (Text.width (a ++ front)) (e+1) →
        matching? (a ++ b) (Text.width a) (d+1) = some ((closing? d false b).map fun n => Text.width (a ++ b.take n)) := by
      intro front u e whole nonempty fewer extent step
      have later := ih u.length (Text.length_lt_of_append whole nonempty) (a ++ front) u (d := e) (by omega) rfl
      rw [List.append_assoc,← whole] at later
      rw [step,later,extent,Option.map_map]
      refine congrArg some (Option.map_congr fun n _ => ?_)
      rw [Function.comp_apply,whole,Nat.add_comm,List.take_length_add_append,List.append_assoc]
    cases b with
    | nil => rw [List.append_nil,matching?_beyond (Nat.le_refl _)]; rfl
    | cons c r =>
      by_cases opens : c = '('
      · subst opens
        rw [List.count_cons_self] at fits
        refine goOn ['('] r rfl (by simp) ?_ (closing?_open d r) (matching?_open a r (d := d + 1) (by omega))
        rw [List.count_cons_self]
        omega
      by_cases ends : c = ')'
      · subst ends
        have round := matchingRound_close a r (show d ≤ Numeral.maxInt32 by omega)
        cases d with
        | zero => exact (loop?_done round).trans (by rw [closing?_end]; rfl)
        | succ d => exact goOn [')'] r rfl (by simp) (by simp) (closing?_close d r) (loop?_next round)
      by_cases quote : c = singleQuote
      · subst quote
        by_cases closed : singleQuote ∈ r
        · obtain ⟨q,u,rfl,free⟩ := List.eq_append_cons_of_mem closed
          have last : u.Sublist (singleQuote :: (q ++ singleQuote :: u)) :=
            ((List.sublist_cons_self singleQuote u).trans (List.sublist_append_right q _)).cons singleQuote
          have fewer := last.count_le '('
          refine goOn (singleQuote :: (q ++ [singleQuote])) u (by simp) (by simp) (by omega) ?_ (matching?_quoted a free u _)
          rw [closing?_single,closing?_quoted d free,Option.map_map]
          simp [Function.comp_def,Nat.add_assoc]
        · have none : closing? d true r = none := by
            by_contra closes
            obtain ⟨q,u,rfl,_⟩ := exists_quoted (Option.isSome_iff_ne_none.mpr closes)
            exact closed (by simp)
          rw [matching?_endless a closed,closing?_single,none]
          rfl
      have other : c ≠ singleQuote ∧ c ≠ '(' ∧ c ≠ ')' := ⟨quote,opens,ends⟩
      exact goOn [c] r rfl (by simp) (by simp [opens]) (closing?_char d other r) (matching?_char a other r _)

theorem matching?_opened (a : Text) {u : Text} (fits : Fits ('(' :: u)) :
    matching? (a ++ '(' :: u) (Text.width a) 0 =
      some ((closing? 0 false u).map fun n => Text.width (a ++ '(' :: u.take n)) := by
  rw [Fits,List.count_cons_self] at fits
  have later := matching?_eq (a ++ ['(']) u (show 0 + 1 + u.count '(' ≤ Numeral.maxInt32 by omega)
  simp only [List.append_assoc,List.singleton_append] at later
  exact (matching?_open a u (d := 0) (by omega)).trans later

/-- Closed parentheses are skipped, and what is not closed is skipped as a whole. -/
theorem skip?_eq (a : Text) {u : Text} (fits : Fits ('(' :: u)) :
    skip? (a ++ '(' :: u) (Text.width a) = some (Text.width (a ++ '(' :: u.take (parenLength u))) := by
  rw [skip?,matching?_opened a fits,parenLength]
  cases closing? 0 false u <;> simp

/-- Parentheses that are opened more often than can be counted. -/
theorem matching?_deep (a : Text) {n d : Nat} (counted : d ≤ Numeral.maxInt32) (deep : Numeral.maxInt32 < d + n) :
    matching? (a ++ List.replicate n '(') (Text.width a) d = none := by
  induction n generalizing a d with
  | zero => omega
  | succ n ih =>
    rw [List.replicate_succ]
    by_cases fits : d + 1 ≤ Numeral.maxInt32
    · have later := ih (a ++ ['(']) fits (by omega)
      rw [List.append_assoc] at later
      exact (matching?_open a _ fits).trans later
    · have uncounted : depth? ((d : Int) + 1) = none := by
        rw [depth?,if_neg]
        omega
      refine loop?_breaks ?_
      rw [matchingRound_octet (Text.octet_low (by decide) a _),if_pos rfl,uncounted]
      rfl

theorem skip?_deep (a : Text) {n : Nat} (deep : Numeral.maxInt32 < n) :
    skip? (a ++ List.replicate n '(') (Text.width a) = none := by
  have broken := matching?_deep a (Nat.zero_le _) (show Numeral.maxInt32 < 0 + n by omega)
  rw [skip?]
  exact congrArg (Option.map _) broken

theorem behindTick?_eq (a r : Text) :
    behindTick? (a ++ backQuote :: r) (Text.width a) = some (Text.width (a ++ backQuote :: r.take (tickLength r))) := by
  have tick : Text.Low backQuote := by decide
  rw [behindTick?,Text.cut?_low tick]
  simp only [Option.bind_eq_bind,Option.bind_some,Text.firstPlace?_eq_splitAt?]
  by_cases closed : backQuote ∈ r
  · obtain ⟨q,u,rfl,free⟩ := List.eq_append_cons_of_mem closed
    have taken : backQuote :: (q ++ backQuote :: u).take (q.length + 1) = backQuote :: q ++ [backQuote] := by
      rw [List.take_length_add_append]
      rfl
    have stop : Text.width (a ++ backQuote :: q ++ [backQuote]) = Text.width a + 1 + Text.width q + 1 := by
      rw [Text.width_low tick,Text.width_append,Text.width_cons,Text.size_low tick,← Nat.add_assoc]
    rw [Text.splitAt?_append free,tickLength_append free,taken,← List.append_assoc,stop]
    rfl
  · rw [Text.splitAt?_free closed,tickLength_eq_length closed,List.take_length]
    rfl

end Substitution

namespace Expansion

/-! ### The tilde -/

/-- The position of the tilde of a segment: at its beginning, or after its first equals sign. -/
def tildeAt? (t : Text) : Option (Option Nat) :=
  if t.head? = some '~' then some (some 0)
  else match Text.firstPlace? (· == '=') t with
    | none => some none
    | some equals => do
      let (front,_) ← Text.cut? equals t
      if front.any isSpecial then return none
      else
        let (_,rest) ← Text.cut? (equals+1) t
        return if rest.head? = some '~' then some (equals+1) else none

/-- The position of the tilde and of the end of what it stands for, and the home directory. -/
def tildePrefix? (s : Surroundings) (first last : Bool) (t : Text) : Option (Option (Nat × Nat × Text)) := do
  if !first then return none
  else match ← tildeAt? t with
    | none => return none
    | some tilde =>
      let (_,rest) ← Text.cut? tilde t
      let slash := (Text.firstPlace? (· == '/') rest).map (tilde + ·)
      match slash.or (if last then some (Text.width t) else none) with
      | none => return none
      | some stop =>
        let user ← t.between? (tilde+1) stop
        if user.any isSpecial then return none else return (home? s user).map fun home => (tilde,stop,home)

/-- The text before a tilde that may be expanded, and the text from it on. -/
def tildeStart? (t : Text) : Option (Text × Text) :=
  if t.head? = some '~' then some ([],t)
  else (afterEquals? t).filter (fun p => !p.1.any isSpecial && p.2.head? = some '~')

theorem tilde?_eq_bind (s : Surroundings) (last : Bool) (t : Text) :
    tilde? s last t = (tildeStart? t).bind fun (before,rest) =>
      let user := rest.tail.takeWhile (· != '/')
      let tail := rest.tail.dropWhile (· != '/')
      if tail.isEmpty && !last then none
      else if user.any isSpecial then none
      else (home? s user).map (fun home => (before,home,tail)) := rfl

theorem tildeAt?_eq (t : Text) : (tildeStart? t = none ∧ tildeAt? t = some none) ∨
    ∃ before r, t = before ++ '~' :: r ∧ tildeStart? t = some (before,'~' :: r) ∧
      tildeAt? t = some (some (Text.width before)) := by
  rw [tildeStart?,tildeAt?]
  by_cases first : t.head? = some '~'
  · obtain ⟨r,rfl⟩ := List.head?_eq_some_iff.mp first
    exact .inr ⟨[],r,rfl,if_pos first,if_pos first⟩
  rw [if_neg first,if_neg first,Text.firstPlace?_eq_splitAt?,afterEquals?]
  cases found : Text.splitAt? '=' t with
  | none => exact .inl ⟨rfl,rfl⟩
  | some p =>
    obtain ⟨a,b⟩ := p
    obtain ⟨rfl,-⟩ := Text.splitAt?_eq_some_iff.mp found
    have front : Text.cut? (Text.width a) (a ++ '=' :: b) = some (a,'=' :: b) := Text.cut?_append a ('=' :: b)
    have after : Text.cut? (Text.width a + 1) (a ++ '=' :: b) = some (a ++ ['='],b) := Text.cut?_low (by decide) a b
    have plain : (a ++ ['=']).any isSpecial = a.any isSpecial := by
      rw [List.any_append]
      exact Bool.or_false _
    cases special : a.any isSpecial with
    | true =>
      refine .inl ⟨?_,?_⟩
      · simp only [Option.map_some,Option.filter,plain,special,Bool.not_true,Bool.false_and,Bool.false_eq_true,if_false]
      · simp only [Option.map_some,front,Option.bind_eq_bind,Option.bind_some,special,if_true]
        rfl
    | false =>
      by_cases tilde : b.head? = some '~'
      · obtain ⟨r,rfl⟩ := List.head?_eq_some_iff.mp tilde
        refine .inr ⟨a ++ ['='],r,by simp,?_,?_⟩
        · simp only [Option.map_some,Option.filter,plain,special,tilde,decide_true,Bool.not_false,Bool.and_true,if_true]
        · rw [Text.width_low (by decide)]
          simp only [Option.map_some,front,Option.bind_eq_bind,Option.bind_some,special,after,tilde,if_true,
            Bool.false_eq_true,if_false]
          rfl
      · refine .inl ⟨?_,?_⟩
        · simp only [Option.map_some,Option.filter,tilde,decide_false,Bool.and_false,Bool.false_eq_true,if_false]
        · simp only [Option.map_some,front,Option.bind_eq_bind,Option.bind_some,special,after,tilde,Bool.false_eq_true,
            if_false]
          rfl

/-- The name of the user ends at the next slash, or at the end of the word. -/
theorem slash_place (before r : Text) (last : Bool) :
    ((Text.firstPlace? (· == '/') ('~' :: r)).map (Text.width before + ·)).or
        (if last then some (Text.width (before ++ '~' :: r)) else none) =
      if (r.dropWhile (· != '/')).isEmpty && !last then none
      else some (Text.width (before ++ '~' :: r.takeWhile (· != '/'))) := by
  rw [Text.firstPlace?_eq_splitAt?]
  by_cases slash : '/' ∈ r
  · obtain ⟨q,u,rfl,free⟩ := List.eq_append_cons_of_mem slash
    have other : ∀ x ∈ q, (x != '/') = true := fun x mem => bne_iff_ne.mpr (ne_of_mem_of_not_mem mem free)
    have found : Text.splitAt? '/' ('~' :: (q ++ '/' :: u)) = some ('~' :: q,u) :=
      Text.splitAt?_append (a := '~' :: q) (by simp [free]) u
    rw [found,List.takeWhile_append_of_pos other,List.takeWhile_cons_of_neg (by simp),List.append_nil,
      List.dropWhile_append_of_pos other,List.dropWhile_cons_of_neg (by simp)]
    simp
  · have other : ∀ x ∈ r, (x != '/') = true := fun x mem => bne_iff_ne.mpr (ne_of_mem_of_not_mem mem slash)
    have none : Text.splitAt? '/' ('~' :: r) = none := Text.splitAt?_free (by simp [slash])
    rw [none,List.takeWhile_eq_self_iff.mpr other,List.dropWhile_eq_nil_iff.mpr other]
    cases last <;> simp

theorem tildePrefix?_eq (s : Surroundings) (first last : Bool) (t : Text) :
    ((if first then tilde? s last t else none) = none ∧ tildePrefix? s first last t = some none) ∨
    ∃ before user home tail, t = before ++ '~' :: (user ++ tail) ∧
      (if first then tilde? s last t else none) = some (before,home,tail) ∧
      tildePrefix? s first last t = some (some (Text.width before,Text.width (before ++ '~' :: user),home)) := by
  cases first with
  | false => exact .inl ⟨rfl,rfl⟩
  | true =>
    obtain ⟨none,none'⟩ | ⟨before,r,rfl,start,place⟩ := tildeAt?_eq t
    · exact .inl ⟨by rw [if_pos rfl,tilde?_eq_bind,none]; rfl,by rw [tildePrefix?,none']; rfl⟩
    have rule : tilde? s last (before ++ '~' :: r) =
        if (r.dropWhile (· != '/')).isEmpty && !last then none
        else if (r.takeWhile (· != '/')).any isSpecial then none
        else (home? s (r.takeWhile (· != '/'))).map fun home => (before,home,r.dropWhile (· != '/')) := by
      rw [tilde?_eq_bind,start]
      rfl
    rw [if_pos rfl,rule,tildePrefix?,place]
    simp only [Bool.not_true,Bool.false_eq_true,if_false,Option.bind_eq_bind,Option.bind_some,Text.cut?_append,
      slash_place]
    have split : r = r.takeWhile (· != '/') ++ r.dropWhile (· != '/') := List.takeWhile_append_dropWhile.symm
    have part : (before ++ '~' :: r).between? (Text.width before + 1)
        (Text.width (before ++ '~' :: r.takeWhile (· != '/'))) = some (r.takeWhile (· != '/')) := by
      have cut := Text.between?_append (before ++ ['~']) (r.takeWhile (· != '/')) (r.dropWhile (· != '/'))
      rw [List.append_assoc,← split,Text.width_low (by decide)] at cut
      simpa using cut
    by_cases ends : ((r.dropWhile (· != '/')).isEmpty && !last) = true
    · rw [if_pos ends,if_pos ends]
      exact .inl ⟨rfl,rfl⟩
    rw [if_neg ends,if_neg ends]
    simp only [part,Option.bind_some]
    by_cases special : (r.takeWhile (· != '/')).any isSpecial = true
    · exact .inl ⟨if_pos special,if_pos special⟩
    rw [if_neg special,if_neg special]
    cases known : home? s (r.takeWhile (· != '/')) with
    | none => exact .inl ⟨rfl,rfl⟩
    | some home => exact .inr ⟨before,r.takeWhile (· != '/'),home,r.dropWhile (· != '/'),by rw [← split],rfl,rfl⟩

/-! ### Variables -/

/-- What a dollar sign stands for, and the position behind what is used after it. -/
def dollar? (s : Surroundings) (t : Text) (pos : Nat) : Option (Text × Nat) :=
  match (Text.octets t)[pos]? with
  | none => some (['$'],pos)
  | some b =>
    if b = '?' then some (Numeral.ofInt s.status,pos+1)
    else if b = '\x7b' then do
      let rest ← Text.octetsFrom? t (pos+1)
      let stop := pos + 1 + (rest.takeWhile isNameChar).length
      if pos + 1 < stop && (Text.octets t)[stop]? = some '\x7d' then
        let name ← t.between? (pos+1) stop
        return ((s.valueOf name).getD [],stop+1)
      else return (['$'],pos)
    else if isNameStart b then do
      let rest ← Text.octetsFrom? t pos
      let stop := pos + (rest.takeWhile isNameChar).length
      let name ← t.between? pos stop
      return ((s.valueOf name).getD [],stop)
    else some (['$'],pos)

theorem low_of_isNameChar {c : Char} (name : isNameChar c = true) : Text.Low c := by
  have ranges : (decide ('A'.val ≤ c.val ∧ c.val ≤ 'Z'.val) || (decide ('a'.val ≤ c.val) && decide (c.val ≤ 'z'.val)) ||
      (decide ('0'.val ≤ c.val) && decide (c.val ≤ '9'.val)) || decide (c = '_')) = true := name
  simp only [Bool.or_eq_true,Bool.and_eq_true,decide_eq_true_eq,UInt32.le_iff_toNat_le] at ranges
  rcases ranges with ((⟨-,upper⟩ | ⟨-,lower⟩) | ⟨-,digit⟩) | rfl
  · exact Nat.lt_of_le_of_lt upper (by decide)
  · exact Nat.lt_of_le_of_lt lower (by decide)
  · exact Nat.lt_of_le_of_lt digit (by decide)
  · decide

theorem isNameChar_of_isNameStart {c : Char} (start : isNameStart c = true) : isNameChar c = true := by
  have either : (c.isAlpha || decide (c = '_')) = true := start
  show (c.isAlpha || c.isDigit || decide (c = '_')) = true
  rw [Bool.or_eq_true] at either
  rw [Bool.or_eq_true,Bool.or_eq_true]
  exact either.imp_left .inl

theorem width_name (t : Text) : Text.width (t.takeWhile isNameChar) = (t.takeWhile isNameChar).length := by
  induction t with
  | nil => rfl
  | cons c r ih =>
    by_cases name : isNameChar c = true
    · rw [List.takeWhile_cons_of_pos name,Text.width_cons,Text.size_low (low_of_isNameChar name),ih,List.length_cons,
        Nat.add_comm]
    · rw [List.takeWhile_cons_of_neg name]
      rfl

/-- The name of a variable at a place, cut out by the number of its bytes. -/
theorem name_places (a u : Text) :
    let name := u.takeWhile isNameChar
    ∃ rest, Text.octetsFrom? (a ++ u) (Text.width a) = some rest ∧
      Text.width a + (rest.takeWhile isNameChar).length = Text.width (a ++ name) ∧
      (a ++ u).between? (Text.width a) (Text.width (a ++ name)) = some name ∧
      ((Text.octets (a ++ u))[Text.width (a ++ name)]? = some '\x7d' ↔ (u.drop name.length).head? = some '\x7d') ∧
      u.take name.length = name := by
  intro name
  have split : u = name ++ u.dropWhile isNameChar := List.takeWhile_append_dropWhile.symm
  have after : u.drop name.length = u.dropWhile isNameChar := by
    conv_lhs => rw [split]
    exact List.drop_left
  have part : (a ++ u).between? (Text.width a) (Text.width (a ++ name)) = some name := by
    conv_lhs => rw [split,← List.append_assoc]
    exact Text.between?_append a name _
  have octet : (Text.octets (a ++ u))[Text.width (a ++ name)]? = (Text.octets (u.dropWhile isNameChar))[0]? := by
    conv_lhs => rw [split,← List.append_assoc]
    exact Text.getElem?_octets _ _ 0
  refine ⟨Text.octets u,Text.octetsFrom?_append a u,?_,part,?_,?_⟩
  · rw [Text.takeWhile_octets (fun _ => low_of_isNameChar),Text.width_append,width_name]
  · rw [octet,after,Text.octet_eq_iff (by decide)]
  · conv_lhs => rw [split]
    exact List.take_left

theorem dollar?_braced (s : Surroundings) (a u : Text) :
    let found := dollar s ('\x7b' :: u)
    dollar? s (a ++ '\x7b' :: u) (Text.width a) = some (found.1,Text.width (a ++ ('\x7b' :: u).take found.2)) := by
  have low : Text.Low '\x7b' := by decide
  have noStatus : '\x7b' ≠ '?' := by decide
  obtain ⟨rest,from',stop,part,closed,taken⟩ := name_places (a ++ ['\x7b']) u
  simp only [List.append_assoc,List.singleton_append,Text.width_low low] at from' stop part closed
  rw [dollar?,Text.octet_low low,dollar,if_neg noStatus,if_pos rfl]
  simp only [noStatus,if_true,if_false,Option.bind_eq_bind,from',Option.bind_some,stop,part]
  generalize u.takeWhile isNameChar = name at stop part closed taken ⊢
  have same : (decide (Text.width a + 1 < Text.width (a ++ '\x7b' :: name)) &&
      decide ((Text.octets (a ++ '\x7b' :: u))[Text.width (a ++ '\x7b' :: name)]? = some '\x7d')) =
      (!name.isEmpty && decide ((u.drop name.length).head? = some '\x7d')) := by
    have nonempty : Text.width a + 1 < Text.width (a ++ '\x7b' :: name) ↔ (!name.isEmpty) = true := by
      rw [Text.width_append,Text.width_cons,Text.size_low low]
      cases name with
      | nil => simp
      | cons d r =>
        have positive := d.utf8Size_pos
        simp only [Text.width_cons,List.isEmpty_cons,Bool.not_false,iff_true]
        omega
    rw [Bool.eq_iff_iff,Bool.and_eq_true,Bool.and_eq_true,decide_eq_true_eq,decide_eq_true_eq,decide_eq_true_eq]
    exact and_congr nonempty closed
  rw [same]
  split_ifs with ends
  · obtain ⟨-,brace⟩ := (Bool.and_eq_true ..).mp ends
    obtain ⟨r,after⟩ := List.head?_eq_some_iff.mp (of_decide_eq_true brace)
    have whole : ('\x7b' :: u).take (name.length + 2) = '\x7b' :: name ++ ['\x7d'] := by
      rw [List.take_succ_cons,List.take_add_one,taken,← List.head?_drop,after]
      rfl
    rw [whole,← List.append_assoc,Text.width_low (by decide)]
    rfl
  · simp

theorem dollar?_eq (s : Surroundings) (a r : Text) :
    dollar? s (a ++ r) (Text.width a) = some ((dollar s r).1,Text.width (a ++ r.take (dollar s r).2)) := by
  cases r with
  | nil =>
    rw [dollar?,List.append_nil,Text.octet_end]
    simp [dollar]
  | cons c u =>
    by_cases status : c = '?'
    · subst status
      rw [dollar?,Text.octet_low (by decide)]
      simp [dollar,Text.size_low (show Text.Low '?' by decide)]
    by_cases brace : c = '\x7b'
    · subst brace
      exact dollar?_braced s a u
    by_cases start : isNameStart c = true
    · obtain ⟨rest,from',stop,part,-,taken⟩ := name_places a (c :: u)
      have low := low_of_isNameChar (isNameChar_of_isNameStart start)
      rw [dollar?,Text.octet_low low,dollar,if_neg status,if_neg brace,if_pos start]
      simp only [status,brace,start,if_true,if_false,Option.bind_eq_bind,from',Option.bind_some,stop,part,taken]
      rfl
    obtain ⟨x,octet,same⟩ := Text.exists_octet c u
    have here : (Text.octets (a ++ c :: u))[Text.width a]? = some x := (Text.getElem?_octets a _ 0).trans octet
    have other : x ≠ '?' ∧ x ≠ '\x7b' ∧ ¬isNameStart x = true := by
      rcases same with rfl | ⟨-,high⟩
      · exact ⟨status,brace,start⟩
      · refine ⟨?_,?_,fun start => high (low_of_isNameChar (isNameChar_of_isNameStart start))⟩
        all_goals rintro rfl; exact high (by decide)
    rw [dollar?,here,dollar,if_neg status,if_neg brace,if_neg start]
    simp only [other,if_false]
    simp

/-! ### Segments -/

/-- What begins at a byte position of the text of a segment is written. -/
noncomputable def expandRound (s : Surroundings) (inDouble : Bool) (t : Text) :
    Nat × Draft → Option ((Nat × Draft) ⊕ Draft)
  | (pos,d) => do
    let (_,rest) ← Text.cut? pos t
    match rest.head? with
    | none => return .inr d
    | some c =>
      if c = backslash then
        let (_,after) ← Text.cut? (pos+1) t
        match after.head?.filter (isEscape inDouble) with
        | some x => return .inl (pos + 1 + x.utf8Size,d.pushText [x])
        | none => return .inl (pos+1,d.pushText [backslash])
      else if c = '$' then
        let (_,after) ← Text.cut? (pos+1) t
        if after.head? = some '(' then
          let stop ← Substitution.skip? t (pos+1)
          let span ← t.between? pos stop
          return .inl (stop,d.pushSpan span)
        else
          let (value,stop) ← dollar? s t (pos+1)
          return .inl (stop,d.pushText value)
      else if c = backQuote then
        let stop ← Substitution.behindTick? t pos
        let span ← t.between? pos stop
        return .inl (stop,d.pushSpan span)
      else return .inl (pos + c.utf8Size,d.pushText [c])

/-- What the text of a segment stands for is written, from a byte position on. -/
noncomputable def expand? (s : Surroundings) (inDouble : Bool) (t : Text) (pos : Nat) (d : Draft) : Option Draft :=
  loop? (expandRound s inDouble t) (pos,d)

/-- A round takes what the first characters after a place stand for. -/
def Takes (s : Surroundings) (inDouble : Bool) (a : Text) (c : Char) (r : Text) (d : Draft) : Prop :=
  ∃ k x, body s inDouble 0 (c :: r) = x ++ body s inDouble k r ∧
    expandRound s inDouble (a ++ c :: r) (Text.width a,d) = some (.inl (Text.width (a ++ c :: r.take k),x.foldl .push d))

section Rounds

variable (s : Surroundings) (inDouble : Bool) (a r : Text) (d : Draft)

theorem takes_escape : Takes s inDouble a backslash r d := by
  have one : Text.Low backslash := by decide
  rw [Takes,expandRound,Text.cut?_append]
  simp only [Option.bind_eq_bind,Option.bind_some,List.head?_cons,if_true,Text.cut?_low one]
  cases r with
  | nil =>
    refine ⟨0,[.char backslash],by simp [body],?_⟩
    rw [List.head?_nil,Option.filter_none,List.take_nil,Text.width_low one]
    rfl
  | cons x u =>
    rw [List.head?_cons,Option.filter_some,body,if_pos rfl]
    split_ifs with escaped
    · refine ⟨1,[.char x],by simp [escaped],?_⟩
      rw [List.take_succ_cons,List.take_zero,Text.width_append,Text.width_cons,Text.width_cons,Text.width_nil,
        Text.size_low one,Nat.add_zero,← Nat.add_assoc]
      rfl
    · refine ⟨0,[.char backslash],by simp [escaped],?_⟩
      rw [List.take_zero,Text.width_low one]
      rfl

theorem takes_dollar (sized : d.Sized) (fits : Substitution.Fits r) : Takes s inDouble a '$' r d := by
  have one : Text.Low '$' := by decide
  have noEscape : '$' ≠ backslash := by decide
  have whole : a ++ '$' :: r = a ++ ['$'] ++ r := by simp
  have place : Text.width a + 1 = Text.width (a ++ ['$']) := (Text.width_low one a).symm
  rw [Takes,expandRound,Text.cut?_append,body,if_neg noEscape,if_pos rfl]
  simp only [Option.bind_eq_bind,Option.bind_some,List.head?_cons,if_true,if_false,noEscape,Text.cut?_low one]
  split_ifs with opens
  · obtain ⟨u,rfl⟩ := List.head?_eq_some_iff.mp opens
    have stop : Substitution.skip? (a ++ '$' :: '(' :: u) (Text.width a + 1) =
        some (Text.width (a ++ '$' :: ('(' :: u).take (Substitution.parenLength u + 1))) := by
      rw [place,whole,Substitution.skip?_eq _ fits,List.append_assoc]
      rfl
    have span := Text.between?_take a ('$' :: '(' :: u) (Substitution.parenLength u + 2)
    rw [List.take_succ_cons] at span
    refine ⟨Substitution.parenLength u + 1,[.command ('$' :: ('(' :: u).take (Substitution.parenLength u + 1))],rfl,?_⟩
    simp only [stop,Option.bind_some,span]
    rfl
  · have value : dollar? s (a ++ '$' :: r) (Text.width a + 1) =
        some ((dollar s r).1,Text.width (a ++ '$' :: r.take (dollar s r).2)) := by
      rw [place,whole,dollar?_eq,List.append_assoc]
      rfl
    refine ⟨(dollar s r).2,(dollar s r).1.map .char,rfl,?_⟩
    simp only [value,Option.bind_some,sized.foldl_push_chars]
    rfl

theorem takes_tick : Takes s inDouble a backQuote r d := by
  have noEscape : backQuote ≠ backslash := by decide
  have noDollar : backQuote ≠ '$' := by decide
  have span := Text.between?_take a (backQuote :: r) (Substitution.tickLength r + 1)
  rw [List.take_succ_cons] at span
  rw [Takes,expandRound,Text.cut?_append,body,if_neg noEscape,if_neg noDollar,if_pos rfl]
  refine ⟨Substitution.tickLength r,[.command (backQuote :: r.take (Substitution.tickLength r))],rfl,?_⟩
  simp only [Option.bind_eq_bind,Option.bind_some,List.head?_cons,if_true,if_false,noEscape,noDollar,
    Substitution.behindTick?_eq,span]
  rfl

theorem takes_char {c : Char} (other : c ≠ backslash ∧ c ≠ '$' ∧ c ≠ backQuote) : Takes s inDouble a c r d := by
  obtain ⟨noEscape,noDollar,noTick⟩ := other
  rw [Takes,expandRound,Text.cut?_append,body,if_neg noEscape,if_neg noDollar,if_neg noTick]
  refine ⟨0,[.char c],rfl,?_⟩
  rw [List.take_zero,Text.width_concat]
  simp only [Option.bind_eq_bind,Option.bind_some,List.head?_cons,if_false,noEscape,noDollar,noTick]
  rfl

theorem takes (sized : d.Sized) (fits : Substitution.Fits r) (c : Char) : Takes s inDouble a c r d := by
  by_cases escape : c = backslash
  · subst escape
    exact takes_escape s inDouble a r d
  by_cases dollarSign : c = '$'
  · subst dollarSign
    exact takes_dollar s inDouble a r d sized fits
  by_cases tick : c = backQuote
  · subst tick
    exact takes_tick s inDouble a r d
  exact takes_char s inDouble a r d ⟨escape,dollarSign,tick⟩

end Rounds

theorem expand?_eq (s : Surroundings) (inDouble : Bool) (a : Text) {b : Text} (fits : Substitution.Fits b) {d : Draft}
    (sized : d.Sized) :
    expand? s inDouble (a ++ b) (Text.width a) d = some ((body s inDouble 0 b).foldl .push d) := by
  -- Escapes, variables and substitutions are several characters, so the induction is on the length.
  induction size : b.length using Nat.strongRecOn generalizing a b d with
  | _ n ih =>
    subst size
    cases b with
    | nil =>
      refine loop?_done ?_
      rw [expandRound,Text.cut?_append,body]
      rfl
    | cons c r =>
      have fits' : Substitution.Fits r := fits.rest [c] rfl
      obtain ⟨k,x,stands,round⟩ := takes s inDouble a r d sized fits' c
      have shorter : (r.drop k).length < (c :: r).length := by
        rw [List.length_drop,List.length_cons]
        omega
      have later := ih _ shorter (a ++ c :: r.take k) (fits'.sublist (List.drop_sublist k r)) (sized.foldl_push x) rfl
      rw [List.append_assoc,List.cons_append,List.take_append_drop,← body_eq_drop] at later
      rw [stands,List.foldl_append]
      exact (loop?_next round).trans later

end Expansion
end JobShell

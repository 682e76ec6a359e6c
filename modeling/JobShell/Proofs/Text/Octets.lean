import JobShell.Proofs.Text.Encoding
import JobShell.Proofs.Text.Places
import JobShell.Proofs.Text.Rounds
import Mathlib.Data.List.TakeWhile

/-!
# Texts byte by byte

A reader may go through the bytes of a text and stop at those that it looks for.
The bytes of the characters below 0x80 are these characters, and all bytes of
other characters are 0x80 or more. So a reader that looks for the former and
passes over the latter stops at the places of characters.
-/
namespace JobShell

namespace Text

/-- The bytes of a text, each as the character with its number. -/
def octets (t : Text) : List Char := (Utf8.encode t).map fun b => Char.ofNat b.toNat

/-- Characters that are one byte, which has their number. -/
def Low (c : Char) : Prop := c.toNat < 0x80

instance (c : Char) : Decidable (Low c) := inferInstanceAs (Decidable (_ < _))

/-- A byte that is in `p` is passed over. -/
def passOverRound (p : Char → Bool) (t : Text) (pos : Nat) : Option (Nat ⊕ Nat) :=
  if pos < (octets t).length then do
    let b ← (octets t)[pos]?
    return if p b then .inl (pos+1) else .inr pos
  else return .inr pos

/-- The position of the next byte from `pos` on that is not in `p`, or the end. -/
noncomputable def passOver? (p : Char → Bool) (t : Text) : Nat → Option Nat := loop? (passOverRound p t)

/-- The bytes from a position on, which is not beyond the end. -/
def octetsFrom? (t : Text) (pos : Nat) : Option (List Char) :=
  if pos ≤ (octets t).length then some ((octets t).drop pos) else none

/-! ### The bytes of a character -/

theorem octets_append (a b : Text) : octets (a ++ b) = octets a ++ octets b := by
  rw [octets,Utf8.encode_append,List.map_append]
  rfl

theorem length_octets (t : Text) : (octets t).length = width t := by
  rw [octets,List.length_map]
  induction t with
  | nil => rfl
  | cons c r ih => rw [Utf8.encode_cons,List.length_append,Utf8.length_encodeChar,ih,width_cons]

theorem octets_low {c : Char} (low : Low c) : octets [c] = [c] := by
  have number : (UInt8.ofNat c.toNat).toNat = c.toNat := Utf8.toNat_ofNat (Nat.lt_trans low (by decide))
  rw [octets,Utf8.encode,List.flatMap_singleton,Utf8.encodeChar]
  simp only [if_pos (show c.toNat < 0x80 from low),List.map_cons,List.map_nil,number,Char.ofNat_toNat]

theorem not_low_of_mem_octets {c x : Char} (high : ¬Low c) (mem : x ∈ octets [c]) : ¬Low x := by
  obtain ⟨b,inside,rfl⟩ := List.mem_map.mp mem
  rw [Utf8.encode,List.flatMap_singleton] at inside
  have number : (Char.ofNat b.toNat).toNat = b.toNat :=
    Utf8.toNat_charOfNat (.inl (Nat.lt_trans b.toNat_lt (by decide)))
  intro low
  rw [Low,number] at low
  rw [Low,Utf8.eq_of_mem_encodeChar inside low] at high
  exact high low

theorem size_low {c : Char} (low : Low c) : c.utf8Size = 1 := by
  have length := length_octets [c]
  rw [octets_low low,width_cons,width_nil] at length
  exact length.symm

/-! ### Bytes at the places of characters -/

theorem width_concat (a : Text) (c : Char) : width (a ++ [c]) = width a + c.utf8Size := by
  rw [width_append,width_cons,width_nil,Nat.add_zero]

theorem width_low {c : Char} (low : Low c) (a : Text) : width (a ++ [c]) = width a + 1 := by
  rw [width_concat,size_low low]

theorem cut?_low {c : Char} (low : Low c) (a r : Text) : cut? (width a + 1) (a ++ c :: r) = some (a ++ [c],r) := by
  have cut := cut?_append (a ++ [c]) r
  rwa [width_low low,List.append_assoc,List.singleton_append] at cut

theorem octet_end (a : Text) : (octets a)[width a]? = none := by
  rw [List.getElem?_eq_none_iff,length_octets]

theorem getElem?_octets (a b : Text) (i : Nat) : (octets (a ++ b))[width a + i]? = (octets b)[i]? := by
  rw [octets_append,← length_octets,List.getElem?_append_right (Nat.le_add_right _ i),Nat.add_sub_cancel_left]

theorem octetsFrom?_append (a b : Text) : octetsFrom? (a ++ b) (width a) = some (octets b) := by
  have inside : width a ≤ (octets (a ++ b)).length := by
    rw [length_octets,width_append]
    omega
  rw [octetsFrom?,if_pos inside,octets_append,← length_octets,List.drop_left]

/-- At the place of a character there is the character itself, or a byte that is none of those below 0x80. -/
theorem exists_octet (c : Char) (r : Text) : ∃ x, (octets (c :: r))[0]? = some x ∧ (x = c ∨ ¬Low c ∧ ¬Low x) := by
  have split : octets (c :: r) = octets [c] ++ octets r := octets_append [c] r
  by_cases low : Low c
  · exact ⟨c,by rw [split,octets_low low]; rfl,.inl rfl⟩
  · obtain ⟨x,more,bytes⟩ : ∃ x more, octets [c] = x :: more := by
      refine List.exists_cons_of_length_pos ?_
      rw [length_octets]
      exact width_pos (by simp)
    refine ⟨x,by rw [split,bytes]; rfl,.inr ⟨low,not_low_of_mem_octets low ?_⟩⟩
    rw [bytes]
    exact List.mem_cons_self

theorem octet_low {c : Char} (low : Low c) (a r : Text) : (octets (a ++ c :: r))[width a]? = some c := by
  obtain ⟨x,here,rfl | ⟨high,_⟩⟩ := exists_octet c r
  · exact (getElem?_octets a _ 0).trans here
  · exact absurd low high

/-- Of the characters below 0x80 there is one at a place exactly when its byte is there. -/
theorem octet_eq_iff {d : Char} (low : Low d) (b : Text) : (octets b)[0]? = some d ↔ b.head? = some d := by
  cases b with
  | nil => simp [octets,Utf8.encode]
  | cons c r =>
    obtain ⟨x,here,same⟩ := exists_octet c r
    rw [here,List.head?_cons,Option.some.injEq,Option.some.injEq]
    rcases same with rfl | ⟨high,high'⟩
    · rfl
    · exact iff_of_false (fun e => high' (e ▸ low)) (fun e => high (e ▸ low))

theorem octet_second {c d : Char} (low : Low c) (low' : Low d) (a r : Text) :
    (octets (a ++ c :: r))[width a + 1]? = some d ↔ r.head? = some d := by
  have octet := getElem?_octets (a ++ [c]) r 0
  rw [List.append_assoc,List.singleton_append,width_low low,Nat.add_zero] at octet
  rw [octet,octet_eq_iff low']

/-! ### Going on byte by byte -/

theorem octet_inside {c x : Char} {i : Nat} (octet : (octets [c])[i]? = some x) (a r : Text) :
    (octets (a ++ c :: r))[width a + i]? = some x := by
  have split : octets (c :: r) = octets [c] ++ octets r := octets_append [c] r
  rw [getElem?_octets,split,List.getElem?_append_left (List.getElem?_eq_some_iff.mp octet).1,octet]

/-- What goes on at every byte of a character from one on goes on at the next character. -/
theorem passes_from {β : Type} {f : Nat → β} (a : Text) {c : Char} {k : Nat} (fits : k ≤ c.utf8Size)
    (step : ∀ i x, k ≤ i → (octets [c])[i]? = some x → f (width a + i) = f (width a + i + 1)) :
    f (width a + k) = f (width a + c.utf8Size) := by
  obtain ⟨n,size⟩ := Nat.exists_eq_add_of_le fits
  have each : ∀ m ≤ n, f (width a + k) = f (width a + (k + m)) := by
    intro m inside
    induction m with
    | zero => rfl
    | succ m ih =>
      have here : k + m < (octets [c]).length := by
        rw [length_octets,width_cons,width_nil]
        omega
      exact (ih (by omega)).trans (step _ _ (by omega) (List.getElem?_eq_getElem here))
  rw [size]
  exact each n (Nat.le_refl n)

theorem passes {β : Type} {f : Nat → β} {P : Char → Prop} {a r : Text} {c : Char}
    (step : ∀ pos x, (octets (a ++ c :: r))[pos]? = some x → P x → f pos = f (pos+1)) (here : P c)
    (high : ¬Low c → ∀ x, ¬Low x → P x) : f (width a) = f (width a + c.utf8Size) := by
  refine passes_from a (Nat.zero_le _) fun i x _ octet => step _ x (octet_inside octet a r) ?_
  have mem := List.mem_of_getElem? octet
  by_cases low : Low c
  · rw [octets_low low,List.mem_singleton] at mem
    exact mem ▸ here
  · exact high low x (not_low_of_mem_octets low mem)

/-- Two bytes after the place of a character below 0x80 the character after it may not be over, but all bytes that are
    left of it are 0x80 or more. -/
theorem passes_second {β : Type} {f : Nat → β} {a r : Text} {c x : Char} (low : Low c)
    (step : ∀ pos y, (octets (a ++ c :: x :: r))[pos]? = some y → ¬Low y → f pos = f (pos+1)) :
    f (width a + 2) = f (width (a ++ [c,x])) := by
  have split : a ++ c :: x :: r = a ++ [c] ++ x :: r := by simp
  have first : width a + 2 = width (a ++ [c]) + 1 := by rw [width_low low]
  have last : width (a ++ [c,x]) = width (a ++ [c]) + x.utf8Size := by rw [← width_concat]; simp
  rw [first,last]
  refine passes_from (a ++ [c]) x.utf8Size_pos fun i y later octet => ?_
  refine step _ y (split ▸ octet_inside octet (a ++ [c]) r) ?_
  refine not_low_of_mem_octets (fun low => ?_) (List.mem_of_getElem? octet)
  have inside := (List.getElem?_eq_some_iff.mp octet).1
  rw [octets_low low,List.length_singleton] at inside
  omega

/-- Predicates that do not tell apart the characters of 0x80 or more. -/
def Uniform (p : Char → Bool) : Prop := ∀ x y, ¬Low x → ¬Low y → p x = p y

theorem passOverRound_octet {p : Char → Bool} {t : Text} {pos : Nat} {x : Char} (octet : (octets t)[pos]? = some x) :
    passOverRound p t pos = some (if p x then .inl (pos+1) else .inr pos) := by
  rw [passOverRound,if_pos (List.getElem?_eq_some_iff.mp octet).1,octet]
  rfl

theorem passOverRound_end (p : Char → Bool) (t : Text) : passOverRound p t (width t) = some (.inr (width t)) := by
  rw [passOverRound,length_octets,if_neg (Nat.lt_irrefl _)]
  rfl

theorem passOver?_eq {p : Char → Bool} (uniform : Uniform p) (a b : Text) :
    passOver? p (a ++ b) (width a) = some (width (a ++ b.takeWhile p)) := by
  induction b generalizing a with
  | nil =>
    rw [List.append_nil,List.takeWhile_nil,List.append_nil]
    exact loop?_done (passOverRound_end p a)
  | cons c r ih =>
    by_cases here : p c = true
    · have next : passOver? p (a ++ c :: r) (width a) = passOver? p (a ++ c :: r) (width a + c.utf8Size) := by
        refine passes (P := fun x => p x = true) (r := r) (fun pos x octet go => ?_) here fun high x high' => ?_
        · exact loop?_next ((passOverRound_octet octet).trans (by rw [if_pos go]))
        · rw [uniform x c high' high]
          exact here
      have later := ih (a ++ [c])
      rw [List.append_assoc,List.singleton_append,width_concat] at later
      rw [next,later,List.takeWhile_cons_of_pos here,List.append_assoc,List.singleton_append]
    · obtain ⟨x,octet,same⟩ := exists_octet c r
      have stop : ¬p x = true := by
        rcases same with rfl | ⟨high,high'⟩
        · exact here
        · rwa [uniform x c high' high]
      have octet : (octets (a ++ c :: r))[width a]? = some x := (getElem?_octets a (c :: r) 0).trans octet
      rw [List.takeWhile_cons_of_neg here,List.append_nil]
      exact loop?_done ((passOverRound_octet octet).trans (by rw [if_neg stop]))

theorem uniform_other {d : Char} (low : Low d) : Uniform (· != d) := by
  intro x y highX highY
  have other : ∀ x, ¬Low x → (x != d) = true := fun x high => bne_iff_ne.mpr fun e => high (e ▸ low)
  exact (other x highX).trans (other y highY).symm

theorem passOver?_until {d : Char} (low : Low d) (a : Text) {q : Text} (free : d ∉ q) (u : Text) :
    passOver? (· != d) (a ++ (q ++ d :: u)) (width a) = some (width (a ++ q)) := by
  have other : ∀ x ∈ q, (x != d) = true := fun x mem => bne_iff_ne.mpr (ne_of_mem_of_not_mem mem free)
  rw [passOver?_eq (uniform_other low),List.takeWhile_append_of_pos other,List.takeWhile_cons_of_neg (by simp),
    List.append_nil]

theorem passOver?_free {d : Char} (low : Low d) (a : Text) {q : Text} (free : d ∉ q) :
    passOver? (· != d) (a ++ q) (width a) = some (width (a ++ q)) := by
  have other : ∀ x ∈ q, (x != d) = true := fun x mem => bne_iff_ne.mpr (ne_of_mem_of_not_mem mem free)
  rw [passOver?_eq (uniform_other low),List.takeWhile_eq_self_iff.mpr other]

/-- Where all characters in `p` are below 0x80, the bytes in `p` are these characters. -/
theorem takeWhile_octets {p : Char → Bool} (ascii : ∀ x, p x = true → Low x) (b : Text) :
    (octets b).takeWhile p = b.takeWhile p := by
  induction b with
  | nil => rfl
  | cons c r ih =>
    have split : octets (c :: r) = octets [c] ++ octets r := octets_append [c] r
    by_cases here : p c = true
    · rw [split,octets_low (ascii c here),List.singleton_append,List.takeWhile_cons_of_pos here,
        List.takeWhile_cons_of_pos here,ih]
    · obtain ⟨x,octet,same⟩ := exists_octet c r
      obtain ⟨more,bytes⟩ := List.head?_eq_some_iff.mp (List.head?_eq_getElem?.trans octet)
      have stop : ¬p x = true := by
        rcases same with rfl | ⟨high,high'⟩
        · exact here
        · exact fun inside => high' (ascii x inside)
      rw [bytes,List.takeWhile_cons_of_neg stop,List.takeWhile_cons_of_neg here]

end Text
end JobShell

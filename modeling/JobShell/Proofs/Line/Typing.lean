import JobShell.Line.View
import JobShell.Proofs.Line.Browsing
import JobShell.Proofs.Line.Cursor
import JobShell.Proofs.Text.Encoding

/-!
# Typing a line

A character is read from its bytes as one key, whether these are there at once
or come one after the other (`Key.read_char`). At the end of a line it goes
behind the line and the cursor behind it, whatever cluster it joins
(`LineBuffer.insert_atEnd`). So the line that is typed is the line that is
submitted (`Editor.typed_line`).
-/
namespace JobShell
open Segmentation (Lawful)

namespace Keystrokes

/-- All bytes that are still to be read, with those that have not come yet. -/
def bytes (k : Keystrokes) : Bytes := k.ready ++ k.later.flatten

theorem nextLater_of_flatten {l : List Bytes} {b : UInt8} {r : Bytes} (bytes : l.flatten = b :: r) :
    ∃ k, nextLater l = some (b,k) ∧ k.bytes = r := by
  fun_induction nextLater l with
  | case1 => cases bytes
  | case2 l ih => exact ih bytes
  | case3 c cs l =>
    obtain ⟨rfl,rest⟩ := List.cons.inj bytes
    exact ⟨_,rfl,rest⟩

theorem next_of_bytes {k : Keystrokes} {b : UInt8} {r : Bytes} (bytes : k.bytes = b :: r) :
    ∃ left, k.next = some (b,left) ∧ left.bytes = r := by
  obtain ⟨ready,later⟩ := k
  cases ready with
  | nil => exact nextLater_of_flatten bytes
  | cons c cs =>
    obtain ⟨rfl,rest⟩ := List.cons.inj bytes
    exact ⟨_,rfl,rest⟩

theorem take_of_bytes {k : Keystrokes} {a r : Bytes} (bytes : k.bytes = a ++ r) :
    ∃ left, k.take a.length = (some a,left) ∧ left.bytes = r := by
  induction a generalizing k with
  | nil => exact ⟨k,rfl,bytes⟩
  | cons b a ih =>
    obtain ⟨k',next,rest⟩ := next_of_bytes bytes
    obtain ⟨left,taken,rest⟩ := ih rest
    refine ⟨left,?_,rest⟩
    simp only [List.length_cons,take,next,taken,Option.map_some]

end Keystrokes

namespace Key

/-! ### Keys from bytes -/

/-- The keys that are read one after the other, and the input that is left after them. -/
inductive Reads : Keystrokes → List Key → Keystrokes → Prop where
  | done (k : Keystrokes) : Reads k [] k
  | next {k k' left : Keystrokes} {key : Key} {keys : List Key} (first : read k = some (key,k'))
    (rest : Reads k' keys left) : Reads k (key :: keys) left

theorem Reads.append {k mid left : Keystrokes} {a b : List Key} (first : Reads k a mid) (rest : Reads mid b left) :
    Reads k (a ++ b) left := by
  induction first with
  | done k => exact rest
  | next first _ ih => exact .next first (ih rest)

/-- A printing byte of ASCII is a character by itself. -/
theorem ofControl_printing {b : UInt8} (low : 0x20 ≤ b) (high : b < 0x7F) :
    ofControl b = .char (Char.ofNat b.toNat) := by
  have differs : ∀ k : UInt8, (k < 0x20 ∨ k = 0x7F) → b ≠ k := by
    rintro k control rfl
    rcases control with small | rfl
    · exact absurd small (UInt8.not_lt.mpr low)
    · exact absurd high (UInt8.lt_irrefl _)
  have visible : (32 ≤ b && b < 127) = true := by simpa using ⟨low,high⟩
  simp (disch := decide) only [ofControl,differs,visible,Bool.or_self,decide_false,if_true,if_false,Bool.false_eq_true]

theorem tailLength?_ofNat {n : Nat} (byte : n < 256) : tailLength? (.ofNat n) =
    if 0xC0 ≤ n ∧ n < 0xE0 then some 1 else if 0xE0 ≤ n ∧ n < 0xF0 then some 2
    else if 0xF0 ≤ n ∧ n < 0xF8 then some 3 else none := by
  simp only [tailLength?,UInt8.le_iff_toNat_le,UInt8.lt_iff_toNat_lt,Utf8.toNat_ofNat byte,Bool.and_eq_true,
    decide_eq_true_eq]
  rfl

/-- The first byte of a character of several bytes tells how many follow. -/
theorem exists_encodeChar {c : Char} (several : 0x80 ≤ c.toNat) :
    ∃ b more, Utf8.encodeChar c = b :: more ∧ b ≠ 0x1B ∧ tailLength? b = some more.length := by
  have scalar : c.toNat < 0xD800 ∨ 0xDFFF < c.toNat ∧ c.toNat < 0x110000 := c.valid
  have noEscape : ∀ {n : Nat}, 0xC0 ≤ n → n < 256 → UInt8.ofNat n ≠ 0x1B := by
    intro n high byte same
    have same : n = 0x1B := (Utf8.toNat_ofNat byte).symm.trans (congrArg UInt8.toNat same)
    omega
  simp only [Utf8.encodeChar,if_neg (Nat.not_lt.mpr several)]
  split_ifs
  · refine ⟨_,_,rfl,noEscape (by omega) (by omega),?_⟩
    rw [tailLength?_ofNat (by omega),if_pos (by omega)]
    rfl
  · refine ⟨_,_,rfl,noEscape (by omega) (by omega),?_⟩
    rw [tailLength?_ofNat (by omega),if_neg (by omega),if_pos (by omega)]
    rfl
  · refine ⟨_,_,rfl,noEscape (by omega) (by omega),?_⟩
    rw [tailLength?_ofNat (by omega),if_neg (by omega),if_neg (by omega),if_pos (by omega)]
    rfl

/-- The character that a printing byte of ASCII stands for. -/
def ofPrinting (b : UInt8) : Char := Char.ofNat b.toNat

theorem read_printing {k left : Keystrokes} {b : UInt8} (low : 0x20 ≤ b) (high : b < 0x7F)
    (next : k.next = some (b,left)) : read k = some (.char (ofPrinting b),left) := by
  have noEscape : b ≠ 0x1B := by
    rintro rfl
    exact absurd low (by decide)
  have alone : tailLength? b = none := by
    have small : b.toNat < 0x7F := high
    rw [← UInt8.ofNat_toNat (x := b),tailLength?_ofNat b.toNat_lt,if_neg (by omega),if_neg (by omega),if_neg (by omega)]
  simp only [read,next,if_neg noEscape,alone,ofControl_printing low high,ofPrinting]

/-- Characters that are typed as such: all but the control characters of ASCII. -/
def isTyped (c : Char) : Bool := 0x20 ≤ c.toNat && c.toNat != 0x7F

/-- A character is read from its bytes as one key, and no byte more is used. -/
theorem read_char {c : Char} (typed : isTyped c = true) {k : Keystrokes} {r : Bytes}
    (bytes : k.bytes = Utf8.encodeChar c ++ r) : ∃ left, read k = some (.char c,left) ∧ left.bytes = r := by
  simp only [isTyped,Bool.and_eq_true,decide_eq_true_eq,bne_iff_ne] at typed
  by_cases one : c.toNat < 0x80
  · have number : (UInt8.ofNat c.toNat).toNat = c.toNat := Utf8.toNat_ofNat (by omega)
    have single : Utf8.encodeChar c = [.ofNat c.toNat] := by simp only [Utf8.encodeChar,if_pos one]
    have low : 0x20 ≤ UInt8.ofNat c.toNat := by
      rw [UInt8.le_iff_toNat_le,number]
      exact typed.1
    have high : UInt8.ofNat c.toNat < 0x7F := by
      rw [UInt8.lt_iff_toNat_lt,number]
      exact Nat.lt_of_le_of_ne (Nat.le_of_lt_succ one) typed.2
    rw [single] at bytes
    obtain ⟨left,next,rest⟩ := Keystrokes.next_of_bytes bytes
    have found := read_printing low high next
    rw [ofPrinting,number,Char.ofNat_toNat] at found
    exact ⟨left,found,rest⟩
  · obtain ⟨b,more,whole,noEscape,length⟩ := exists_encodeChar (Nat.not_lt.mp one)
    have decoded : Utf8.decode? (b :: more) = some [c] := by
      rw [← whole,← Utf8.decode?_encode [c],Utf8.encode,List.flatMap_singleton]
    rw [whole] at bytes
    obtain ⟨k',next,rest⟩ := Keystrokes.next_of_bytes bytes
    obtain ⟨left,taken,rest⟩ := Keystrokes.take_of_bytes rest
    refine ⟨left,?_,rest⟩
    simp only [read,next,if_neg noEscape,length,ofUtf8,taken,decoded]

theorem read_return {k : Keystrokes} {r : Bytes} (bytes : k.bytes = 0x0D :: r) :
    ∃ left, read k = some (.enter,left) ∧ left.bytes = r := by
  obtain ⟨left,next,rest⟩ := Keystrokes.next_of_bytes bytes
  refine ⟨left,?_,rest⟩
  simp only [read,next]
  rfl

/-- A text is read as its characters. -/
theorem reads_text {s : Text} (typed : ∀ c ∈ s, isTyped c = true) {k : Keystrokes} {r : Bytes}
    (bytes : k.bytes = Utf8.encode s ++ r) : ∃ left, Reads k (s.map .char) left ∧ left.bytes = r := by
  induction s generalizing k with
  | nil => exact ⟨k,.done k,bytes⟩
  | cons c s ih =>
    have split : Utf8.encode (c :: s) ++ r = Utf8.encodeChar c ++ (Utf8.encode s ++ r) := by
      rw [Utf8.encode,List.flatMap_cons,List.append_assoc]
      rfl
    obtain ⟨k',first,rest⟩ := read_char (typed c List.mem_cons_self) (bytes.trans split)
    obtain ⟨left,later,rest⟩ := ih (fun d mem => typed d (.tail _ mem)) rest
    exact ⟨left,.next first later,rest⟩

end Key

namespace LineBuffer

/-! ### A character at the end of the line -/

/-- A character at the end of the line goes behind the line, and the cursor behind it. -/
theorem insert_atEnd [Segmentation] [Lawful] (t : Text) (c : Char) : (atEnd t).insert c = atEnd (t ++ [c]) := by
  have nonempty : t ++ [c] ≠ [] := by simp
  have whole := Segmentation.cutLast_append (t ++ [c])
  have first := Segmentation.cutFirst_eq (Segmentation.clusters_cutLast nonempty)
  simp only [insert,atEnd,moveLeft,moveRight,List.append_nil,first,List.flatten_nil,whole]

end LineBuffer

namespace Editor

/-- The editor while a line is typed at its end. -/
def typing (t : Text) : Editor := ⟨.atEnd t,.editing,none⟩

theorem press_char [Segmentation] [Lawful] (t : Text) (h : History) (o : Outlook) (c : Char) :
    (typing t).press h o (.char c) = (none,typing (t ++ [c]),h) := by
  have inserted := LineBuffer.insert_atEnd t c
  simp only [press,typing,edit,withBuffer,inserted]

theorem pressAll_chars [Segmentation] [Lawful] (t s : Text) (h : History) (o : Outlook) :
    pressAll (typing t) h (s.map fun c => (o,.char c)) = (typing (t ++ s),h) := by
  induction s generalizing t with
  | nil => rw [List.map_nil,pressAll,List.append_nil]
  | cons c s ih =>
    rw [List.map_cons,pressAll,press_char]
    simpa using ih (t ++ [c])

/-! ### Reading a line -/

/-- A key that does not end the line is pressed, and the next ones are read. -/
theorem readKeys_next [Segmentation] {e f : Editor} {h h' : History} {o : Outlook} {input rest : Keystrokes} {key : Key}
    (step : Key.read input = some (key,rest)) (pressed : e.press h o key = (none,f,h')) (prompt : Text) :
    ∃ screen, e.readKeys prompt h o input = { f.takeNotice.2.readKeys prompt h' o rest with screen := screen } := by
  rw [readKeys]
  split
  · rename_i nothing
    rw [step] at nothing
    cases nothing
  · rename_i key' rest' same
    rw [step] at same
    cases same
    simp only [pressed]
    exact ⟨_,rfl⟩

theorem readKeys_submitted [Segmentation] {e f : Editor} {h h' : History} {o : Outlook} {input rest : Keystrokes} {key : Key}
    {line : Text} (step : Key.read input = some (key,rest)) (pressed : e.press h o key = (some (.submitted line),f,h'))
    (prompt : Text) : ∃ screen, e.readKeys prompt h o input = ⟨some line,screen,h',rest⟩ := by
  rw [readKeys]
  split
  · rename_i nothing
    rw [step] at nothing
    cases nothing
  · rename_i key' rest' same
    rw [step] at same
    cases same
    simp only [pressed]
    exact ⟨_,rfl⟩

/-- Characters are read and go behind the line until it is submitted. -/
theorem readKeys_typing [Segmentation] [Lawful] {s : Text} {input left : Keystrokes} (keys : Key.Reads input (s.map .char ++ [.enter]) left)
    (t prompt : Text) (h : History) (o : Outlook) :
    ∃ screen, (typing t).readKeys prompt h o input = ⟨some (t ++ s),screen,h.leave,left⟩ := by
  induction s generalizing t input with
  | nil =>
    cases keys with
    | next first done =>
      cases done
      have pressed : (typing t).press h o .enter = (some (.submitted (t ++ [])),typing t,h.leave) := rfl
      exact readKeys_submitted first pressed prompt
  | cons c s ih =>
    cases keys with
    | next first rest =>
      obtain ⟨screen,first⟩ := readKeys_next first (press_char t h o c) prompt
      obtain ⟨_,rest⟩ := ih rest (t ++ [c])
      have empty : (typing (t ++ [c])).takeNotice.2 = typing (t ++ [c]) := rfl
      rw [first,empty,rest,List.append_assoc]
      exact ⟨screen,rfl⟩

/-- **A line that is typed.** Let the input be the bytes of a text without control characters and a carriage return,
    with any other bytes after them, and let these bytes be there at once or come piece by piece. Then they are read as the
    characters of the text in their order and Enter, and the line that is submitted is the text; exactly the other bytes are
    left. After each of the characters the line is what was typed so far, with the cursor at its end. -/
theorem typed_line [Segmentation] [Lawful] {s : Text} (typed : ∀ c ∈ s, Key.isTyped c = true) {input : Keystrokes} {rest : Bytes}
    (bytes : input.bytes = Utf8.encode s ++ 0x0D :: rest) (h : History) (o : Outlook) (prompt : Text) :
    let r := readLine prompt h o input
    Key.Reads input (s.map .char ++ [.enter]) r.input ∧ r.input.bytes = rest ∧ r.line = some s ∧ r.history = h.leave ∧
      ∀ n ≤ s.length, ∃ mid, Key.Reads input ((s.take n).map .char) mid ∧
        mid.bytes = Utf8.encode (s.drop n) ++ 0x0D :: rest ∧
        pressAll (reset h).1 (reset h).2 ((s.take n).map fun c => (o,.char c)) =
          (⟨.atEnd (s.take n),.editing,none⟩,h.leave) := by
  intro r
  obtain ⟨k,chars,ended⟩ := Key.reads_text typed bytes
  obtain ⟨left,enter,after⟩ := Key.read_return ended
  have keys := chars.append (.next enter (.done left))
  obtain ⟨_,line⟩ := readKeys_typing keys [] prompt h.leave o
  have whole : r = { (typing []).readKeys prompt h.leave o input with screen := r.screen } := rfl
  rw [line] at whole
  rw [whole]
  refine ⟨keys,after,rfl,rfl,fun n _ => ?_⟩
  have split : Utf8.encode s ++ 0x0D :: rest = Utf8.encode (s.take n) ++ (Utf8.encode (s.drop n) ++ 0x0D :: rest) := by
    rw [← List.append_assoc,← Utf8.encode_append,List.take_append_drop]
  obtain ⟨mid,front,later⟩ := Key.reads_text (fun c mem => typed c (List.mem_of_mem_take mem)) (bytes.trans split)
  exact ⟨mid,front,later,pressAll_chars [] (s.take n) h.leave o⟩

/-- A letter with an accent, whose second byte comes later, and a flag: its second half joins the first. -/
theorem typed_line_flag :
    let s := txt "é🇦🇧"
    let o : Outlook := ⟨⟨.empty,[]⟩,fun _ => [],⟨0,fun _ => none,fun _ => none⟩⟩
    let input : Keystrokes := ⟨[0xC3],[[0xA9,0xF0,0x9F],[],[0x87,0xA6,0xF0,0x9F,0x87,0xA7,0x0D,0x78]]⟩
    (∀ c ∈ s, Key.isTyped c = true) ∧ input.bytes = Utf8.encode s ++ 0x0D :: [0x78] ∧
      (readLine (txt "$ ") (.inMemory 5 true) o input).line = some s ∧
      (readLine (txt "$ ") (.inMemory 5 true) o input).input.bytes = [0x78] := by
  intro s o input
  have typed : ∀ c ∈ s, Key.isTyped c = true := List.all_eq_true.mp (by decide)
  have bytes : input.bytes = Utf8.encode s ++ 0x0D :: [0x78] := rfl
  obtain ⟨-,left,line,-⟩ := typed_line typed bytes (.inMemory 5 true) o (txt "$ ")
  exact ⟨typed,bytes,line,left⟩

end Editor
end JobShell

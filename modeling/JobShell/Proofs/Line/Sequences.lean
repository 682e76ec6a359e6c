import JobShell.Proofs.Line.Typing

/-!
# Control sequences

A terminal sends a key that is no character as a control sequence: an
introducer, any number of parameter and intermediate bytes, and a final byte.
The reader of keys knows a few of them, and gives up on another one after the
byte that made it unknown. So a sequence is read as a whole exactly when that
byte is its last one (`ControlSequence.read_whole_iff`); the bytes after it are
read as characters, and go into the line.
-/
namespace JobShell

/-- A control sequence: the parameter and intermediate bytes after the introducer, and the final byte. -/
structure ControlSequence where
  inner : Bytes
  final : UInt8
  isInner : ∀ b ∈ inner, 0x20 ≤ b ∧ b ≤ 0x3F
  isFinal : 0x40 ≤ final ∧ final ≤ 0x7E

/-- Keys that are characters. -/
def Key.isChar : Key → Bool
  | .char _ => true
  | _ => false

namespace ControlSequence

/-- The sequence as a terminal sends it. -/
def bytes (c : ControlSequence) : Bytes := 0x1B :: 0x5B :: (c.inner ++ [c.final])

/-- Nothing stands before the final byte, or one byte that a key with a tilde begins with. -/
def IsShort (c : ControlSequence) : Prop := c.inner = [] ∨ ∃ b ∈ [0x31,0x33,0x34,0x37,0x38], c.inner = [b]

/-- The bytes of the sequence that are not read with it: all after the first one behind the introducer, or after the
    second one when a tilde was expected there. -/
def unread (c : ControlSequence) : Bytes :=
  (c.inner ++ [c.final]).drop (if c.inner.head?.any fun b => (Key.ofFinal b).2 then 2 else 1)

/-! ### The byte behind the introducer -/

theorem isChar_ofFinal (b : UInt8) : (Key.ofFinal b).1.isChar = false := by
  simp only [Key.ofFinal,apply_ite Prod.fst,apply_ite Key.isChar]
  simp only [Key.isChar,ite_self]

/-- A tilde is expected after five bytes. -/
theorem expectsTilde_iff (b : UInt8) : (Key.ofFinal b).2 = true ↔ b ∈ [0x31,0x33,0x34,0x37,0x38] := by
  constructor
  · intro expects
    refine Decidable.byContradiction fun other => ?_
    simp only [List.mem_cons,List.not_mem_nil,or_false,not_or] at other
    simp only [Key.ofFinal,other,decide_false,Bool.or_self,Bool.false_eq_true,if_false,apply_ite Prod.snd,
      ite_self] at expects
  · intro mem
    simp only [List.mem_cons,List.not_mem_nil,or_false] at mem
    rcases mem with rfl | rfl | rfl | rfl | rfl <;> rfl

/-- A byte of the sequence that is not its final one is no key by itself. -/
theorem ofFinal_inner {b : UInt8} (high : b ≤ 0x3F) (alone : (Key.ofFinal b).2 = false) : (Key.ofFinal b).1 = .unknown := by
  have differs : ∀ k : UInt8, 0x3F < k → b ≠ k := by
    rintro k large rfl
    exact absurd large (UInt8.not_lt.mpr high)
  have other : b ∉ [0x31,0x33,0x34,0x37,0x38] := by
    rw [← expectsTilde_iff,alone]
    exact Bool.false_ne_true
  simp only [List.mem_cons,List.not_mem_nil,or_false,not_or] at other
  simp (disch := decide) only [Key.ofFinal,other,differs,decide_false,Bool.or_self,Bool.false_eq_true,if_false]

theorem ofFinal_final {b : UInt8} (low : 0x40 ≤ b) : (Key.ofFinal b).2 = false := by
  rw [← Bool.not_eq_true,expectsTilde_iff]
  intro mem
  simp only [List.mem_cons,List.not_mem_nil,or_false] at mem
  rcases mem with rfl | rfl | rfl | rfl | rfl <;> exact absurd low (by decide)

/-! ### The bytes that are left -/

theorem unread_eq_nil_iff (c : ControlSequence) : c.unread = [] ↔ c.IsShort := by
  rw [unread,IsShort,List.drop_eq_nil_iff,List.length_append,List.length_singleton]
  match c.inner with
  | [] => simp
  | [b] =>
    have expects := expectsTilde_iff b
    cases tilde : (Key.ofFinal b).2 with
    | false =>
      have none : b ∉ [0x31,0x33,0x34,0x37,0x38] := fun mem => by simp [expects.mpr mem] at tilde
      simpa [tilde] using none
    | true =>
      have mem := expects.mp tilde
      simpa [tilde] using mem
  | b :: d :: r =>
    simp only [List.length_cons,reduceCtorEq,List.cons.injEq,and_false,exists_const,or_false,iff_false,Nat.not_le]
    split_ifs <;> omega

/-- The bytes that are left are printing ones. -/
theorem printing_of_mem_unread {c : ControlSequence} {b : UInt8} (mem : b ∈ c.unread) : 0x20 ≤ b ∧ b < 0x7F := by
  rcases List.mem_append.mp (List.mem_of_mem_drop mem) with inner | final
  · obtain ⟨low,high⟩ := c.isInner b inner
    exact ⟨low,UInt8.lt_of_le_of_lt high (by decide)⟩
  · obtain rfl := List.mem_singleton.mp final
    obtain ⟨low,high⟩ := c.isFinal
    exact ⟨UInt8.le_trans (by decide) low,UInt8.lt_of_le_of_lt high (by decide)⟩

/-! ### Reading the sequence -/

/-- What is read after the introducer. -/
theorem afterIntroducer_eq (c : ControlSequence) (rest : Bytes) (later : List Bytes) :
    ∃ key, key.isChar = false ∧
      Key.afterIntroducer ⟨c.inner ++ [c.final] ++ rest,later⟩ = (key,⟨c.unread ++ rest,later⟩) ∧
      (c.unread ≠ [] → key = .unknown) := by
  obtain ⟨inner,final,isInner,isFinal⟩ := c
  cases inner with
  | nil =>
    have alone := ofFinal_final isFinal.1
    refine ⟨(Key.ofFinal final).1,isChar_ofFinal final,?_,fun some => absurd rfl some⟩
    simp [Key.afterIntroducer,Keystrokes.next,unread,alone]
  | cons b r =>
    cases tilde : (Key.ofFinal b).2 with
    | false =>
      have unknown := ofFinal_inner (isInner b List.mem_cons_self).2 tilde
      refine ⟨.unknown,rfl,?_,fun _ => rfl⟩
      simp [Key.afterIntroducer,Keystrokes.next,unread,tilde,unknown]
    | true =>
      -- A tilde is expected, which is no inner byte, so only the final byte can be one.
      cases r with
      | nil =>
        refine ⟨if final = 0x7E then (Key.ofFinal b).1 else .unknown,?_,?_,fun some => ?_⟩
        · split_ifs
          · exact isChar_ofFinal b
          · rfl
        · simp [Key.afterIntroducer,Key.beforeTilde,Keystrokes.next,unread,tilde]
        · simp [unread,tilde] at some
      | cons d r =>
        have noTilde : d ≠ 0x7E := by
          rintro rfl
          exact absurd (isInner 0x7E (by simp)).2 (by decide)
        refine ⟨.unknown,rfl,?_,fun _ => rfl⟩
        simp [Key.afterIntroducer,Key.beforeTilde,Keystrokes.next,unread,tilde,noTilde]

/-- A sequence is read as one key that is no character, with all its bytes but those that are left. -/
theorem read_bytes (c : ControlSequence) (rest : Bytes) (later : List Bytes) :
    ∃ key, key.isChar = false ∧ Key.read ⟨c.bytes ++ rest,later⟩ = some (key,⟨c.unread ++ rest,later⟩) ∧
      (c.unread ≠ [] → key = .unknown) := by
  obtain ⟨key,noChar,read,unknown⟩ := c.afterIntroducer_eq rest later
  refine ⟨key,noChar,?_,unknown⟩
  have escape : Key.read ⟨c.bytes ++ rest,later⟩ = some (Key.afterIntroducer ⟨c.inner ++ [c.final] ++ rest,later⟩) := rfl
  rw [escape,read]

end ControlSequence

/-- Printing bytes are read as characters, one each. -/
theorem Key.reads_printing {l : Bytes} (printing : ∀ b ∈ l, 0x20 ≤ b ∧ b < 0x7F) (rest : Bytes) (later : List Bytes) :
    Reads ⟨l ++ rest,later⟩ ((l.map ofPrinting).map .char) ⟨rest,later⟩ := by
  induction l with
  | nil => exact .done _
  | cons b l ih =>
    obtain ⟨low,high⟩ := printing b List.mem_cons_self
    exact .next (read_printing low high rfl) (ih fun d mem => printing d (.tail _ mem))

/-- An unknown key does nothing to a line that is typed. -/
theorem Editor.press_unknown [Segmentation] (t : Text) (h : History) (o : Outlook) :
    (typing t).press h o .unknown = (none,typing t,h) := rfl

namespace ControlSequence

/-- **Sequences that are read as a whole.** Let a control sequence be in the input, with any other bytes after it. It is
    read as one key that is no character, and the next key begins with the byte after it, exactly when it is short. In any
    case the first key is no character and each byte that is left is one; so when the sequence is not short, and is typed
    to an empty line with Enter after it, then the bytes that are left are the line. -/
theorem read_whole_iff [Segmentation] [Segmentation.Lawful] (c : ControlSequence) (rest : Bytes) (later : List Bytes) :
    ((∃ key, key.isChar = false ∧ Key.read ⟨c.bytes ++ rest,later⟩ = some (key,⟨rest,later⟩)) ↔ c.IsShort) ∧
    (∃ key, key.isChar = false ∧
      Key.Reads ⟨c.bytes ++ rest,later⟩ (key :: (c.unread.map Key.ofPrinting).map .char) ⟨rest,later⟩) ∧
    (c.unread = [] ↔ c.IsShort) ∧
    (¬c.IsShort → ∀ prompt h o, (Editor.readLine prompt h o ⟨c.bytes ++ 0x0D :: rest,later⟩).line =
      some (c.unread.map Key.ofPrinting)) := by
  have chars := fun rest => Key.reads_printing (fun b mem => c.printing_of_mem_unread mem) rest later
  obtain ⟨key,noChar,read,-⟩ := c.read_bytes rest later
  refine ⟨?_,⟨key,noChar,.next read (chars rest)⟩,c.unread_eq_nil_iff,?_⟩
  · rw [← c.unread_eq_nil_iff]
    constructor
    · rintro ⟨other,-,whole⟩
      rw [read,Option.some.injEq,Prod.mk.injEq,Keystrokes.mk.injEq] at whole
      exact List.append_left_eq_self.mp whole.2.1
    · intro nothing
      rw [nothing] at read
      exact ⟨key,noChar,read⟩
  · intro long prompt h o
    obtain ⟨key,-,read,unknown⟩ := c.read_bytes (0x0D :: rest) later
    obtain rfl := unknown (mt c.unread_eq_nil_iff.mp long)
    have enter : Key.read ⟨0x0D :: rest,later⟩ = some (.enter,⟨rest,later⟩) := rfl
    have keys := (chars (0x0D :: rest)).append (.next enter (.done _))
    obtain ⟨_,first⟩ := Editor.readKeys_next read (Editor.press_unknown [] h.leave o) prompt
    obtain ⟨_,line⟩ := Editor.readKeys_typing keys [] prompt h.leave o
    have empty : (Editor.typing []).takeNotice.2 = Editor.typing [] := rfl
    have whole : (Editor.readLine prompt h o ⟨c.bytes ++ 0x0D :: rest,later⟩).line =
        ((Editor.typing []).readKeys prompt h.leave o ⟨c.bytes ++ 0x0D :: rest,later⟩).line := rfl
    rw [whole,first,empty,line]
    rfl

/-- The arrow to the right with the control key. -/
def controlRight : ControlSequence := ⟨[0x31,0x3B,0x35],0x43,by simp,by decide⟩

/-- The last two bytes of the arrow with the control key are the line. -/
theorem read_whole_line :
    let o : Outlook := ⟨⟨.empty,[]⟩,fun _ => [],⟨0,fun _ => none,fun _ => none⟩⟩
    ¬controlRight.IsShort ∧
      (Editor.readLine (txt "$ ") (.inMemory 1 true) o ⟨controlRight.bytes ++ [0x0D],[]⟩).line = some (txt "5C") := by
  intro o
  obtain ⟨-,-,-,line⟩ := controlRight.read_whole_iff [] []
  have long : ¬controlRight.IsShort := mt controlRight.unread_eq_nil_iff.mpr (by decide)
  exact ⟨long,line long (txt "$ ") (.inMemory 1 true) o⟩

/-- Of the arrow with the control key the last two bytes are left. -/
theorem read_whole_controlRight :
    controlRight.bytes = [0x1B,0x5B,0x31,0x3B,0x35,0x43] ∧
      (¬∃ key, key.isChar = false ∧ Key.read ⟨controlRight.bytes ++ [0x0D],[]⟩ = some (key,⟨[0x0D],[]⟩)) ∧
      Key.read ⟨controlRight.bytes ++ [0x0D],[]⟩ = some (.unknown,⟨[0x35,0x43,0x0D],[]⟩) := by
  refine ⟨rfl,?_,rfl⟩
  rintro ⟨key,-,whole⟩
  cases whole

end ControlSequence
end JobShell

import JobShell.History.Entry
import JobShell.Proofs.Text.Encoding
import JobShell.Proofs.Text.Numerals
import JobShell.Proofs.Text.Splitting
import Mathlib.Tactic.SplitIfs

/-!
# The history file is read back

Entries that are written one line each are the entries of the file, whatever
their commands hold.
-/
namespace JobShell
namespace HistoryEntry

/-! ### Escaped commands -/

theorem unescape_cons {c : Char} (other : c ≠ '\\') (r : Text) : unescape (c :: r) = c :: unescape r := by
  cases r with
  | nil => rfl
  | cons d r => rw [unescape,if_neg other]

theorem unescape_escape (t : Text) : unescape (escape t) = t := by
  induction t with
  | nil => rfl
  | cons c r ih =>
    have differs : '\\' ≠ 'n' := by decide
    rw [escape]
    split_ifs with slash feed
    · rw [unescape,if_pos rfl,if_neg differs,ih,slash]
    · rw [unescape,if_pos rfl,if_pos rfl,ih,feed]
    · rw [unescape_cons slash,ih]

/-- An escaped command is on one line. -/
theorem feed_notMem_escape (t : Text) : '\n' ∉ escape t := by
  induction t with
  | nil => exact List.not_mem_nil
  | cons c r ih =>
    rw [escape]
    split_ifs with slash feed
    · simpa using ih
    · simpa using ih
    · simpa [Ne.symm feed] using ih

theorem escape_append (a b : Text) : escape (a ++ b) = escape a ++ escape b := by
  induction a with
  | nil => rfl
  | cons c r ih =>
    rw [List.cons_append,escape,escape]
    split_ifs <;> rw [ih] <;> rfl

/-- An escaped command ends with a carriage return only when the command does. -/
theorem getLast?_escape {t : Text} (last : (escape t).getLast? = some '\r') : t.getLast? = some '\r' := by
  rcases List.eq_nil_or_concat t with rfl | ⟨front,c,rfl⟩
  · cases last
  · rw [List.concat_eq_append,escape_append,List.getLast?_append,escape] at last
    rw [List.concat_eq_append,List.getLast?_concat]
    split_ifs at last with slash feed
    · cases last
    · cases last
    · exact last

/-! ### Lines -/

/-- What can be written to a line and read back: a status and a time in the ranges of their readers, and no carriage
    return at the end of the command, which would belong to the end of the line. -/
structure IsStorable (e : HistoryEntry) : Prop where
  status : ∃ n : Int32, e.status = n.toInt
  time : ∃ n : UInt64, e.time = n.toNat
  ending : e.command.getLast? ≠ some '\r'

theorem line_eq (e : HistoryEntry) :
    e.line = Numeral.ofNat e.time ++ '\t' :: (Numeral.ofInt e.status ++ '\t' :: escape e.command) := by
  rw [line,List.append_assoc,List.cons_append]

/-- The fields of a line are found again; what stands in front of it belongs to its time. -/
theorem ofFields?_append_line {e : HistoryEntry} (storable : IsStorable e) {u : Text} (free : '\t' ∉ u) :
    ofFields? (u ++ e.line) =
      (Numeral.readNat Numeral.maxNat64 (u ++ Numeral.ofNat e.time)).map (⟨e.command,e.status,·⟩) := by
  obtain ⟨s,status⟩ := storable.status
  have timeFree : '\t' ∉ u ++ Numeral.ofNat e.time := by
    intro mem
    rcases List.mem_append.mp mem with before | within
    · exact free before
    · exact Numeral.notMem_ofNat (by decide) e.time within
  have statusFree := Numeral.notMem_ofInt (c := '\t') (by decide) (by decide) e.status
  have readStatus : Numeral.readInt Numeral.maxInt32 (Numeral.ofInt e.status) = some e.status := by
    rw [status,Numeral.readInt_int32]
  rw [ofFields?,line_eq,← List.append_assoc]
  simp only [Text.splitAt?_append timeFree,Text.splitAt?_append statusFree,readStatus,unescape_escape,
    Option.bind_eq_bind,Option.bind_some,Option.pure_def]
  cases Numeral.readNat Numeral.maxNat64 (u ++ Numeral.ofNat e.time) <;> rfl

/-- The fields of a line are found again. -/
theorem ofFields?_line {e : HistoryEntry} (storable : IsStorable e) : ofFields? e.line = some e := by
  obtain ⟨n,time⟩ := storable.time
  have fields := ofFields?_append_line storable (u := []) List.not_mem_nil
  rw [List.nil_append,List.nil_append,time,Numeral.readNat_uint64,← time] at fields
  exact fields

theorem ofLine_line {e : HistoryEntry} (storable : IsStorable e) : ofLine e.line = e := by
  rw [ofLine,ofFields?_line storable]
  rfl

theorem line_ne_nil (e : HistoryEntry) : e.line ≠ [] := by
  rw [line_eq]
  exact List.append_ne_nil_of_right_ne_nil _ (List.cons_ne_nil _ _)

/-- An entry is on one line. -/
theorem feed_notMem_line (e : HistoryEntry) : '\n' ∉ e.line := by
  have timeFree := Numeral.notMem_ofNat (c := '\n') (by decide) e.time
  have statusFree := Numeral.notMem_ofInt (c := '\n') (by decide) (by decide) e.status
  have tab : '\n' ≠ '\t' := by decide
  simp only [line_eq,List.mem_append,List.mem_cons,not_or]
  exact ⟨timeFree,tab,statusFree,tab,feed_notMem_escape e.command⟩

/-- Nothing of a line is taken for its end. -/
theorem getLast?_line {e : HistoryEntry} (storable : IsStorable e) : e.line.getLast? ≠ some '\r' := by
  intro last
  rw [line,List.getLast?_append,List.getLast?_cons,Option.some_or,Option.some.injEq] at last
  cases ending : (escape e.command).getLast? with
  | none =>
    rw [ending] at last
    exact absurd last (by decide)
  | some c =>
    rw [ending] at last
    cases last
    exact storable.ending (getLast?_escape ending)

/-! ### Files -/

theorem fileLines_feed (r : Bytes) : fileLines (10 :: r) = [] :: fileLines r := by
  rw [fileLines.eq_def]
  simp

/-- A byte belongs to the line that goes on after it. -/
theorem fileLines_byte {b : UInt8} {r l : Bytes} {ls : List Bytes} (noFeed : b ≠ 10)
    (noReturn : b = 13 → r.head? ≠ some 10) (lines : fileLines r = l :: ls) : fileLines (b :: r) = (b :: l) :: ls := by
  have goesOn : ¬ (b = 13 && r.head? = some 10) := by simpa using noReturn
  cases r with
  | nil => cases lines
  | cons d r =>
    rw [fileLines.eq_def]
    simp only [if_neg noFeed,if_neg goesOn,lines]

/-- The first line of a file. -/
theorem fileLines_append {l : Bytes} (noFeed : 10 ∉ l) (noReturn : l.getLast? ≠ some 13) (rest : Bytes) :
    fileLines (l ++ 10 :: rest) = l :: fileLines rest := by
  induction l with
  | nil => exact fileLines_feed rest
  | cons b r ih =>
    have first : b ≠ 10 := fun e => noFeed (by simp [e])
    have inner : 10 ∉ r := fun h => noFeed (List.mem_cons_of_mem _ h)
    cases r with
    | nil => exact fileLines_byte first (fun e => absurd (by simp [e]) noReturn) (fileLines_feed rest)
    | cons d r =>
      have next : d ≠ 10 := fun e => inner (by simp [e])
      rw [List.getLast?_cons_cons] at noReturn
      exact fileLines_byte first (fun _ => by simpa using next) (ih inner noReturn)

theorem bytes_eq (e : HistoryEntry) : e.bytes = Utf8.encode e.line ++ [10] := Utf8.encode_append e.line ['\n']

/-- The first line of a file that begins with an entry. -/
theorem fileLines_bytes {e : HistoryEntry} (storable : IsStorable e) (rest : Bytes) :
    fileLines (e.bytes ++ rest) = Utf8.encode e.line :: fileLines rest := by
  have noFeed : 10 ∉ Utf8.encode e.line := fun h => feed_notMem_line e (Utf8.mem_of_mem_encode h (by decide))
  have noReturn : (Utf8.encode e.line).getLast? ≠ some 13 := fun h =>
    getLast?_line storable (Utf8.getLast?_of_getLast?_encode h (by decide))
  rw [bytes_eq,List.append_assoc]
  exact fileLines_append noFeed noReturn rest

/-- The entries of a file are those that it was written from. -/
theorem ofFile_flatMap_bytes {l : List HistoryEntry} (storable : ∀ e ∈ l, IsStorable e) :
    ofFile (l.flatMap bytes) = l := by
  induction l with
  | nil => rfl
  | cons e r ih =>
    have first := storable e (by simp)
    have tail := ih (fun x hx => storable x (by simp [hx]))
    have filled : e.line.isEmpty = false := by simpa using line_ne_nil e
    rw [ofFile] at tail ⊢
    rw [List.flatMap_cons,fileLines_bytes first,textLines,Utf8.decode?_encode]
    simp only [List.filter_cons,filled,Bool.not_false,if_true,List.map_cons,ofLine_line first,tail]

end HistoryEntry
end JobShell

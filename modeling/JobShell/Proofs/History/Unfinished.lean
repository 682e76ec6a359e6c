import JobShell.Proofs.History.Sharing
import JobShell.Proofs.Text.Decoding

/-!
# A history file from elsewhere

An entry that is added to a history file follows whatever the file holds. The
file may end in the middle of a line, which the entry then belongs to, and one of
its lines may not be UTF-8, after which nothing is read. So the entry is the last
one of the file when all of the file is UTF-8 and nothing stands in front of it on
its line but zeros, which are read as part of its time (`History.reopened_last`).
-/
namespace JobShell
namespace HistoryEntry

/-! ### Lines of a file that grows -/

/-- The lines of a file that line feeds end. -/
def finished (content : Bytes) : Bytes := content.rdropWhile (· != 10)

/-- What follows the last line feed of a file. -/
def unfinished (content : Bytes) : Bytes := content.rtakeWhile (· != 10)

theorem finished_append_unfinished (content : Bytes) : finished content ++ unfinished content = content :=
  List.rdropWhile_append_rtakeWhile

theorem feed_notMem_unfinished (content : Bytes) : 10 ∉ unfinished content := by
  intro mem
  have other := List.mem_rtakeWhile_imp mem
  simp at other

theorem finished_ends (content : Bytes) : finished content = [] ∨ (finished content).getLast? = some 10 := by
  by_cases empty : finished content = []
  · exact .inl empty
  · have other := List.rdropWhile_last_not (· != 10) content empty
    have last : (finished content).getLast empty = 10 := by
      by_contra differs
      exact other (bne_iff_ne.mpr differs)
    exact .inr ((List.getLast?_eq_some_getLast empty).trans (congrArg some last))

/-- A carriage return before a line feed belongs to no line. -/
theorem fileLines_return {r : Bytes} (next : r.head? = some 10) : fileLines (13 :: r) = fileLines r := by
  rw [fileLines.eq_def]
  simp [next]

theorem exists_fileLines (b : UInt8) (r : Bytes) : ∃ l ls, fileLines (b :: r) = l :: ls := by
  induction r generalizing b with
  | nil =>
    by_cases feed : b = 10
    · exact ⟨[],[],by rw [feed,fileLines_feed]; rfl⟩
    · exact ⟨[b],[],by rw [fileLines.eq_def]; simp [feed]⟩
  | cons d r ih =>
    obtain ⟨l,ls,lines⟩ := ih d
    by_cases feed : b = 10
    · exact ⟨[],_,by rw [feed,fileLines_feed]⟩
    by_cases pair : b = 13 ∧ d = 10
    · obtain ⟨rfl,rfl⟩ := pair
      exact ⟨l,ls,(fileLines_return rfl).trans lines⟩
    · refine ⟨b :: l,ls,fileLines_byte feed ?_ lines⟩
      rintro rfl next
      exact pair ⟨rfl,Option.some.inj next⟩

/-- Lines that are ended by a line feed do not depend on what follows. -/
theorem fileLines_append_of_ends {front : Bytes} (ends : front = [] ∨ front.getLast? = some 10) (rest : Bytes) :
    fileLines (front ++ rest) = fileLines front ++ fileLines rest := by
  induction front with
  | nil => rfl
  | cons b r ih =>
    cases r with
    | nil =>
      have feed : b = 10 := by simpa using ends
      rw [feed,List.cons_append,List.nil_append,fileLines_feed,fileLines_feed]
      rfl
    | cons d r =>
      have tail := ih (.inr (by simpa using ends))
      obtain ⟨l,ls,lines⟩ := exists_fileLines d r
      rw [List.cons_append]
      by_cases feed : b = 10
      · rw [feed,fileLines_feed,fileLines_feed,tail]
        rfl
      by_cases pair : b = 13 ∧ d = 10
      · obtain ⟨rfl,rfl⟩ := pair
        rw [fileLines_return rfl,fileLines_return (r := 10 :: r) rfl,tail]
      · have apart : b = 13 → d ≠ 10 := fun e h => pair ⟨e,h⟩
        rw [fileLines_byte feed (by simpa using apart) lines]
        rw [lines] at tail
        exact fileLines_byte feed (by simpa using apart) tail

/-- A line that no line feed ends. -/
theorem fileLines_of_notMem {l : Bytes} (noFeed : 10 ∉ l) (filled : l ≠ []) : fileLines l = [l] := by
  induction l with
  | nil => exact absurd rfl filled
  | cons b r ih =>
    have first : b ≠ 10 := fun e => noFeed (by simp [e])
    have inner : 10 ∉ r := fun h => noFeed (List.mem_cons_of_mem _ h)
    by_cases last : r = []
    · subst last
      rw [fileLines.eq_def]
      simp [first]
    · refine fileLines_byte first ?_ (ih inner last)
      intro _ head
      exact inner (List.mem_of_mem_head? head)

theorem fileLines_unfinished (content : Bytes) :
    fileLines content = fileLines (finished content) ++ if unfinished content = [] then [] else [unfinished content] := by
  have whole := fileLines_append_of_ends (finished_ends content) (unfinished content)
  rw [finished_append_unfinished] at whole
  rw [whole]
  congr 1
  by_cases empty : unfinished content = []
  · rw [if_pos empty,empty]
    rfl
  · rw [if_neg empty]
    exact fileLines_of_notMem (feed_notMem_unfinished content) empty

/-- An entry ends the line that a file ends in. -/
theorem fileLines_append_bytes (content : Bytes) {e : HistoryEntry} (storable : IsStorable e) :
    fileLines (content ++ e.bytes) = fileLines (finished content) ++ [unfinished content ++ Utf8.encode e.line] := by
  have noFeed : 10 ∉ unfinished content ++ Utf8.encode e.line := by
    intro mem
    rcases List.mem_append.mp mem with before | within
    · exact feed_notMem_unfinished content before
    · exact feed_notMem_line e (Utf8.mem_of_mem_encode within (by decide))
  have noReturn : (unfinished content ++ Utf8.encode e.line).getLast? ≠ some 13 := by
    intro last
    have filled : Utf8.encode e.line ≠ [] := by
      intro empty
      have read := Utf8.decode?_encode e.line
      rw [empty,Utf8.decode?,Option.some.injEq] at read
      exact line_ne_nil e read.symm
    rw [List.getLast?_append_of_ne_nil _ filled] at last
    exact getLast?_line storable (Utf8.getLast?_of_getLast?_encode last (by decide))
  have split : content ++ e.bytes = finished content ++ ((unfinished content ++ Utf8.encode e.line) ++ 10 :: []) := by
    rw [bytes_eq,List.append_assoc,← List.append_assoc (finished content),finished_append_unfinished]
  rw [split,fileLines_append_of_ends (finished_ends content),fileLines_append noFeed noReturn]
  rfl

/-! ### Lines that are not UTF-8 -/

/-- All lines of a file are UTF-8. -/
def IsText (content : Bytes) : Prop := ∀ l ∈ fileLines content, Utf8.decode? l ≠ none

instance : DecidablePred IsText := fun content => inferInstanceAs (Decidable (∀ l ∈ fileLines content, _))

/-- Lines are read on after lines that are UTF-8. -/
theorem textLines_append {a : List Bytes} (text : ∀ l ∈ a, Utf8.decode? l ≠ none) (b : List Bytes) :
    textLines (a ++ b) = textLines a ++ textLines b := by
  induction a with
  | nil => rfl
  | cons l r ih =>
    obtain ⟨t,read⟩ := Option.ne_none_iff_exists'.mp (text l (by simp))
    rw [List.cons_append,textLines,textLines,read,ih (fun x mem => text x (by simp [mem]))]
    rfl

/-- Nothing is read after a line that is not. -/
theorem textLines_append_of_wrong {a : List Bytes} {l : Bytes} (mem : l ∈ a) (wrong : Utf8.decode? l = none)
    (b : List Bytes) : textLines (a ++ b) = textLines a := by
  induction a with
  | nil => cases mem
  | cons x r ih =>
    rw [List.cons_append,textLines,textLines]
    cases read : Utf8.decode? x with
    | none => rfl
    | some t =>
      rcases List.mem_cons.mp mem with rfl | later
      · rw [wrong] at read
        cases read
      · dsimp only
        rw [ih later]

/-- The entry of an unfinished line that an entry ends. -/
theorem ofFile_append_bytes {content : Bytes} (text : IsText content) {e : HistoryEntry} (storable : IsStorable e) :
    ∃ u, Utf8.decode? (unfinished content) = some u ∧
      (ofFile (content ++ e.bytes)).getLast? = some (ofLine (u ++ e.line)) := by
  have before : ∀ l ∈ fileLines (finished content), Utf8.decode? l ≠ none := by
    intro l mem
    apply text l
    rw [fileLines_unfinished]
    exact List.mem_append_left _ mem
  have last : Utf8.decode? (unfinished content) ≠ none := by
    by_cases empty : unfinished content = []
    · rw [empty,Utf8.decode?]
      exact Option.some_ne_none _
    · apply text
      rw [fileLines_unfinished,if_neg empty]
      exact List.mem_append_right _ (List.mem_singleton_self _)
  obtain ⟨u,read⟩ := Option.ne_none_iff_exists'.mp last
  refine ⟨u,read,?_⟩
  have joined : Utf8.decode? (unfinished content ++ Utf8.encode e.line) = some (u ++ e.line) := by
    rw [Utf8.decode?_eq_some_iff.mp read,← Utf8.encode_append,Utf8.decode?_encode]
  have filled : (u ++ e.line).isEmpty = false := by
    simp [line_ne_nil e]
  rw [ofFile,fileLines_append_bytes content storable,textLines_append before,textLines,joined]
  simp [textLines,List.filter_append,filled]

/-- An entry begins with a digit. -/
theorem exists_encode_line (e : HistoryEntry) : ∃ x s, Utf8.encode e.line = x :: s ∧ x.toNat < 0x80 := by
  obtain ⟨c,r,digits⟩ := List.exists_cons_of_ne_nil (Numeral.ofNat_ne_nil e.time)
  have digit : c.isDigit = true := Numeral.isDigit_of_mem_ofNat (n := e.time) (by rw [digits]; simp)
  have low : c.toNat < 0x80 := by
    simp only [Char.isDigit,Bool.and_eq_true,decide_eq_true_eq,ge_iff_le,UInt32.le_iff_toNat_le] at digit
    exact Nat.lt_of_le_of_lt digit.2 (by decide)
  have number : (UInt8.ofNat c.toNat).toNat = c.toNat := Utf8.toNat_ofNat (by omega)
  have first := Utf8.encodeChar_one (b := .ofNat c.toNat) (by omega)
  rw [number,Char.ofNat_toNat] at first
  rw [line_eq,digits,List.cons_append,Utf8.encode_cons,first]
  exact ⟨_,_,rfl,by omega⟩

/-- An entry that follows a line that is not UTF-8 is not read. -/
theorem ofFile_append_of_wrong {content : Bytes} (wrong : ¬IsText content) {e : HistoryEntry}
    (storable : IsStorable e) : ofFile (content ++ e.bytes) = ofFile content := by
  rw [ofFile,ofFile,fileLines_append_bytes content storable]
  simp only [IsText,not_forall,not_not] at wrong
  obtain ⟨l,mem,wrong⟩ := wrong
  rw [fileLines_unfinished content] at mem ⊢
  by_cases before : ∃ l ∈ fileLines (finished content), Utf8.decode? l = none
  · obtain ⟨l,mem,wrong⟩ := before
    rw [textLines_append_of_wrong mem wrong,textLines_append_of_wrong mem wrong]
  · have text : ∀ l ∈ fileLines (finished content), Utf8.decode? l ≠ none := by simpa using before
    rcases List.mem_append.mp mem with ended | last
    · exact absurd wrong (text l ended)
    · by_cases empty : unfinished content = []
      · simp [empty] at last
      · rw [if_neg empty] at last ⊢
        rw [List.mem_singleton.mp last] at wrong
        obtain ⟨x,s,bytes,low⟩ := exists_encode_line e
        have longer := Utf8.decode?_append_low wrong low s
        rw [textLines_append text,textLines_append text,bytes]
        simp only [textLines,wrong,longer]

/-! ### The entry of a line -/

theorem count_unescape (t : Text) : (unescape t).count '\t' = t.count '\t' := by
  fun_induction unescape t with
  | case1 => rfl
  | case2 c => rfl
  | case3 d r ih =>
    by_cases letter : d = 'n'
    · simp [letter,ih]
    · simp [letter,List.count_cons,ih]
  | case4 c d r other ih => rw [List.count_cons,List.count_cons,ih]

/-- The tabs of a line are those of its command and two more. -/
theorem count_of_ofFields? {l : Text} {e : HistoryEntry} (fields : ofFields? l = some e) :
    l.count '\t' = e.command.count '\t' + 2 := by
  simp only [ofFields?,Option.bind_eq_bind,Option.bind_eq_some_iff,Option.pure_def,Option.some.injEq] at fields
  obtain ⟨⟨time,rest⟩,first,⟨status,command⟩,second,s,-,n,-,rfl⟩ := fields
  obtain ⟨rfl,timeFree⟩ := Text.splitAt?_eq_some_iff.mp first
  obtain ⟨rfl,statusFree⟩ := Text.splitAt?_eq_some_iff.mp second
  simp [List.count_append,List.count_eq_zero_of_not_mem timeFree,List.count_eq_zero_of_not_mem statusFree,count_unescape]

/-- An entry is read from a line when nothing stands in front of it but zeros. -/
theorem ofLine_append_line {e : HistoryEntry} (storable : IsStorable e) (u : Text) :
    ofLine (u ++ e.line) = e ↔ Numeral.IsPadding u := by
  have fits : e.time ≤ Numeral.maxNat64 := by
    obtain ⟨n,time⟩ := storable.time
    have := n.toNat_lt
    rw [Numeral.maxNat64]
    omega
  have tabs := count_of_ofFields? (ofFields?_line storable)
  constructor
  · intro same
    have fields : ofFields? (u ++ e.line) = some e := by
      cases fields : ofFields? (u ++ e.line) with
      | none =>
        -- The whole line would be the command, which has two tabs fewer.
        rw [ofLine,fields] at same
        have whole := congrArg (fun e => e.command.count '\t') same
        simp only [Option.getD_none,List.count_append] at whole
        omega
      | some e' =>
        rw [ofLine,fields] at same
        exact congrArg some same
    have free : '\t' ∉ u := by
      have more := count_of_ofFields? fields
      rw [List.count_append] at more
      exact List.count_eq_zero.mp (by omega)
    rw [ofFields?_append_line storable free] at fields
    obtain ⟨n,read,equal⟩ := Option.map_eq_some_iff.mp fields
    have time : n = e.time := congrArg HistoryEntry.time equal
    rw [time] at read
    exact (Numeral.readNat_append_ofNat fits u).mp read
  · intro padding
    have free : '\t' ∉ u := by
      obtain ⟨k,rfl | rfl⟩ := padding
      · simp
      · simp
    rw [ofLine,ofFields?_append_line storable free,(Numeral.readNat_append_ofNat fits u).mpr padding]
    rfl

end HistoryEntry

/-- A history depends on the entries of its file only. -/
theorem History.load_congr {a b : Option Bytes} (same : HistoryEntry.ofFile (a.getD []) = HistoryEntry.ofFile (b.getD []))
    (file : Text) (capacity : Nat) (dedup : Bool) : load file a capacity dedup = load file b capacity dedup := by
  unfold load
  rw [same]

/-- **An entry that is added to any file.** A history adds an entry to its file, whatever that holds. If all lines of the
    file are UTF-8, then the entry is the last one of a history that is read from the file afterwards exactly when nothing
    but zeros, with a plus sign perhaps, stands in front of it on its line. So it is when the file was empty or ended with
    a line feed. If a line is not UTF-8, then the history that is read is the one that would have been read before,
    without the entry. -/
theorem History.reopened_last {σ : Type} [Kernel σ] {file : Text} {usual : σ → Prop} (keeps : KeepsFile file usual)
    {s : Session σ} (ordinary : usual s.system) (filed : s.shell.history.file = some file) {command : Text}
    {status : Int32} {time : UInt64} (added : (s.shell.history.append command status.toInt time.toNat).2 = true)
    (capacity : Nat) (dedup : Bool) :
    let content := (Kernel.contentOf s.system file).toOption.getD []
    let opened := fun system : σ => History.load file (Kernel.contentOf system file).toOption capacity dedup
    ∃ t, Act.Yields (Act.remember command status.toInt time.toNat) s true t ∧
      (HistoryEntry.IsText content →
        ((opened t.system).entries.getLast? = some ⟨Text.trim command,status.toInt,time.toNat⟩ ↔
          ∃ u, Utf8.decode? (HistoryEntry.unfinished content) = some u ∧ Numeral.IsPadding u)) ∧
      (¬HistoryEntry.IsText content → opened t.system = opened s.system) := by
  intro content opened
  cases entry : s.shell.history.entry? command status.toInt time.toNat with
  | none =>
    rw [History.append,entry] at added
    cases added
  | some e =>
    obtain ⟨t,appended,-,holds⟩ := keeps.append s.system e.bytes ordinary
    have storable := History.isStorable_of_kept entry
    refine ⟨_,Act.yields_remember_some entry filed appended,?_,?_⟩
    · intro text
      obtain ⟨u,read,last⟩ := HistoryEntry.ofFile_append_bytes text storable
      have room : 0 < max capacity 1 := by omega
      rw [History.load_entries,History.getLast?_rtake _ room,holds,← History.eq_of_entry? entry]
      change (HistoryEntry.ofFile (content ++ e.bytes)).getLast? = _ ↔ _
      rw [last,Option.some.injEq,HistoryEntry.ofLine_append_line storable]
      constructor
      · intro padding
        exact ⟨u,read,padding⟩
      · rintro ⟨v,read',padding⟩
        rw [read] at read'
        cases read'
        exact padding
    · intro wrong
      apply History.load_congr
      rw [holds]
      exact HistoryEntry.ofFile_append_of_wrong wrong storable

/-- Two lines of another form, the first with a carriage return at its end, an entry, and zeros that were left on the last
    line. The window has room for one entry. -/
theorem History.reopened_last_zeros :
    let old := Utf8.encode (txt "écho…\r\n\t\n12\t1\tcd \\n\n+00")
    let file := txt "history"
    let m : Machine := .start ⟨[([file],.file false old)]⟩ [] [] .empty 0
    let s : Session Machine := ⟨Shell.start (.load file (some old) 0 true) m,m⟩
    s.shell.history.file = some file ∧ (s.shell.history.append (txt " a\\\nb ") 2 7).2 = true ∧
      Kernel.contentOf m file = .ok old ∧ HistoryEntry.IsText old ∧
      ∃ t, Act.Yields (Act.remember (txt " a\\\nb ") 2 7) s true t ∧
        (History.load file (Kernel.contentOf t.system file).toOption 0 true).entries.getLast? =
          some ⟨txt "a\\\nb",2,7⟩ := by
  intro old file m s
  have spot : Machine.HasSpot file [file] m := ⟨_,rfl,by decide,.found [file] _,rfl,rfl,.inr ⟨false,_,rfl⟩⟩
  have filed : s.shell.history.file = some file := rfl
  have added : (s.shell.history.append (txt " a\\\nb ") (2 : Int32).toInt (7 : UInt64).toNat).2 = true := by
    decide +kernel
  have content : Kernel.contentOf m file = .ok old := by decide +kernel
  have text : HistoryEntry.IsText old := by decide +kernel
  obtain ⟨t,result,whole,-⟩ := History.reopened_last (Machine.keepsFile file [file]) spot filed added 0 true
  have same : (Kernel.contentOf s.system file).toOption.getD [] = old := congrArg (·.toOption.getD []) content
  rw [same] at whole
  refine ⟨filed,added,content,text,t,result,((whole text).mpr ⟨txt "+00",?_,2,.inr rfl⟩).trans ?_⟩
  · decide +kernel
  · decide +kernel

/-- A file that does not end with a line feed, and one that has a line that is not UTF-8: the entry that is added is part of
    another one, or is not read. -/
theorem History.reopened_last_lost :
    let file := txt "history"
    let m := fun old => Machine.start ⟨[([file],.file false old)]⟩ [] [] .empty 0
    let opened := fun m : Machine => History.load file (Kernel.contentOf m file).toOption 5 true
    let s := fun old => (⟨Shell.start (opened (m old)) (m old),m old⟩ : Session Machine)
    let r := fun old => (Act.remember (txt "pwd") 0 5).run (s old)
    let ends := Utf8.encode (txt "ls")
    let wrong := Utf8.encode (txt "ls\n") ++ [0xFF,10]
    ((s ends).shell.history.append (txt "pwd") 0 5).2 = true ∧ (r ends).1.toOption = some true ∧
      (opened (r ends).2.system).entries.getLast? = some ⟨txt "ls5\t0\tpwd",0,0⟩ ∧
      ((s wrong).shell.history.append (txt "pwd") 0 5).2 = true ∧ (r wrong).1.toOption = some true ∧
      (opened (r wrong).2.system).entries.getLast? = some ⟨txt "ls",0,0⟩ := by
  intro file m opened s r ends wrong
  exact ⟨by decide +kernel,by decide +kernel,by decide +kernel,by decide +kernel,by decide +kernel,by decide +kernel⟩

end JobShell

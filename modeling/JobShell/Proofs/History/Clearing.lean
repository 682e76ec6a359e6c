import JobShell.Proofs.History.Unfinished

/-!
# What comes back after a clearing

A clearing empties a history and leaves its file as it is. New entries follow the
old ones in the file, and the old ones are gone from it only when the file is
replaced. A history that is read from the file before that begins with old
entries, unless the new ones fill its window (`History.reopened_cleared_iff`).
-/
namespace JobShell

namespace HistoryEntry

/-! ### Files whose lines are all ended and can all be read -/

structure IsWhole (content : Bytes) : Prop where
  ends : content = [] ∨ content.getLast? = some 10
  text : IsText content

theorem isWhole_nil : IsWhole [] := ⟨.inl rfl,List.forall_mem_nil _⟩

theorem IsWhole.append {a b : Bytes} (front : IsWhole a) (back : IsWhole b) : IsWhole (a ++ b) := by
  refine ⟨?_,?_⟩
  · rcases back.ends with empty | last
    · rw [empty,List.append_nil]
      exact front.ends
    · exact .inr (by rw [List.getLast?_append,last,Option.some_or])
  · intro l mem
    rw [fileLines_append_of_ends front.ends] at mem
    rcases List.mem_append.mp mem with before | after
    · exact front.text l before
    · exact back.text l after

/-- Only one carriage return is left out before a line feed. -/
theorem fileLines_append_return {l : Bytes} (noFeed : 10 ∉ l) (rest : Bytes) :
    fileLines (l ++ 13 :: 10 :: rest) = l :: fileLines rest := by
  induction l with
  | nil => rw [List.nil_append,fileLines_return rfl,fileLines_feed]
  | cons b r ih =>
    have first : b ≠ 10 := fun e => noFeed (by simp [e])
    have inner : 10 ∉ r := fun h => noFeed (List.mem_cons_of_mem _ h)
    refine fileLines_byte first ?_ (ih inner)
    intro _ next
    cases r with
    | nil =>
      have differs : (13 : UInt8) ≠ 10 := by decide
      exact differs (Option.some.inj next)
    | cons d r => exact inner (List.mem_of_mem_head? next)

theorem isWhole_bytes (e : HistoryEntry) : IsWhole e.bytes := by
  refine ⟨.inr (by rw [bytes_eq,List.getLast?_concat]),?_⟩
  have noFeed : 10 ∉ Utf8.encode e.line := fun h => feed_notMem_line e (Utf8.mem_of_mem_encode h (by decide))
  by_cases ends : e.line.getLast? = some '\r'
  · -- The carriage return at the end of the line is taken for a part of its end.
    obtain ⟨t,line⟩ := List.getLast?_eq_some_iff.mp ends
    have front : 10 ∉ Utf8.encode t := by
      intro mem
      rw [line,Utf8.encode_append] at noFeed
      exact noFeed (List.mem_append_left _ mem)
    have split : e.bytes = Utf8.encode t ++ 13 :: 10 :: [] := by
      rw [bytes_eq,line,Utf8.encode_append,List.append_assoc]
      rfl
    intro l mem
    rw [split,fileLines_append_return front] at mem
    rw [List.mem_singleton.mp mem,Utf8.decode?_encode]
    exact Option.some_ne_none t
  · have noReturn : (Utf8.encode e.line).getLast? ≠ some 13 := fun last =>
      ends (Utf8.getLast?_of_getLast?_encode last (by decide))
    intro l mem
    rw [bytes_eq,fileLines_append noFeed noReturn] at mem
    rw [List.mem_singleton.mp mem,Utf8.decode?_encode]
    exact Option.some_ne_none e.line

theorem isWhole_flatMap_bytes (l : List HistoryEntry) : IsWhole (l.flatMap bytes) := by
  induction l with
  | nil => exact isWhole_nil
  | cons e r ih =>
    rw [List.flatMap_cons]
    exact (isWhole_bytes e).append ih

theorem ofFile_append {a : Bytes} (whole : IsWhole a) (b : Bytes) : ofFile (a ++ b) = ofFile a ++ ofFile b := by
  rw [ofFile,fileLines_append_of_ends whole.ends,textLines_append whole.text,List.filter_append,List.map_append]
  rfl

end HistoryEntry

namespace History

theorem rtake_suffix {α : Type} (l : List α) (n : Nat) : l.rtake n <:+ l := List.drop_suffix _ l

/-- A window of old and new elements has no old ones when there are none, or when the new ones fill it. -/
theorem rtake_append_suffix_iff {α : Type} (old new : List α) {n : Nat} (room : 0 < n) :
    (old ++ new).rtake n <:+ new ↔ old = [] ∨ n ≤ new.length := by
  constructor
  · intro suffix
    have short := suffix.length_le
    rw [List.rtake,List.length_drop,List.length_append] at short
    rw [← List.length_eq_zero_iff]
    omega
  · intro fits
    rcases fits with empty | full
    · rw [empty,List.nil_append]
      exact rtake_suffix new n
    · have inside : old.length ≤ (old ++ new).length - n := by
        rw [List.length_append]
        omega
      rw [List.rtake,List.drop_append,List.drop_eq_nil_of_le inside,List.nil_append]
      exact List.drop_suffix _ new

end History

/-! ### A history and its file, step by step -/

/-- A history with what its file holds. -/
structure Filed where
  history : History
  content : Bytes

namespace HistoryStep

section
variable (file : Text) (capacity : Nat) (dedup : Bool)

/-- The entries that a step adds. -/
def entries (h : History) : HistoryStep → List HistoryEntry
  | .append command status time => (h.entry? command status.toInt time.toNat).toList
  | .clear | .flush | .reopen => []

/-- A history and its file after a step. -/
def next (f : Filed) : HistoryStep → Filed
  | .append command status time =>
    match f.history.entry? command status.toInt time.toNat with
    | some e => ⟨f.history.push e,f.content ++ e.bytes⟩
    | none => f
  | .clear => ⟨f.history.clear,f.content⟩
  | .flush => if f.history.stale then ⟨f.history.written,f.history.content⟩ else f
  | .reopen => ⟨.load file (some f.content) capacity dedup,f.content⟩

/-- The entries that steps add, in their order. -/
def added (f : Filed) : List HistoryStep → List HistoryEntry
  | [] => []
  | x :: r => x.entries f.history ++ added (x.next file capacity dedup f) r

end

section
variable {σ : Type} [Kernel σ] {file : Text} {usual : σ → Prop} (capacity : Nat) (dedup : Bool)

/-- The history of a session, and its file. -/
def filed (file : Text) (s : Session σ) : Filed :=
  ⟨s.shell.history,(Kernel.contentOf s.system file).toOption.getD []⟩

/-- What a step does in a session is what it does to the history and its file. -/
theorem filed_act (keeps : KeepsFile file usual) {s : Session σ} (ordinary : usual s.system)
    (named : s.shell.history.file = some file) (x : HistoryStep) :
    ∃ t, Act.Yields (x.act file capacity dedup) s () t ∧ usual t.system ∧ t.shell.history.file = some file ∧
      filed file t = x.next file capacity dedup (filed file s) := by
  cases x with
  | append command status time =>
    rw [next]
    cases entry : (filed file s).history.entry? command status.toInt time.toNat with
    | none => exact ⟨s,(Act.yields_remember_none entry).bind (Act.yields_pure () s),ordinary,named,rfl⟩
    | some e =>
      obtain ⟨t,appended,ordinary',content⟩ := keeps.append s.system e.bytes ordinary
      refine ⟨_,(Act.yields_remember_some entry named appended).bind (Act.yields_pure () _),ordinary',
        (History.trim_file _).trans named,?_⟩
      rw [filed,content]
      rfl
  | clear =>
    exact ⟨_,Act.yields_modifyShell (fun shell => { shell with history := shell.history.clear }) s,ordinary,named,rfl⟩
  | flush =>
    rw [next]
    by_cases stale : s.shell.history.stale = true
    · have due : s.shell.history.replacement? = some (file,s.shell.history.content) := by
        rw [History.replacement?,stale,named]
        rfl
      obtain ⟨t,replaced,ordinary',content⟩ := keeps.replace s.system s.shell.history.content ordinary
      refine ⟨_,(Act.yields_saveHistory_some due replaced).bind (Act.yields_pure () _),ordinary',named,?_⟩
      rw [filed,content]
      exact (if_pos stale).symm
    · have current : s.shell.history.replacement? = none := by
        rw [History.replacement?,if_neg stale]
      refine ⟨s,(Act.yields_saveHistory_none current).bind (Act.yields_pure () s),ordinary,named,?_⟩
      exact (if_neg stale).symm
  | reopen => exact ⟨_,(Act.yields_system s).bind (Act.yields_modifyShell _ s),ordinary,rfl,rfl⟩

/-- A run in a session is the run of its history and its file. -/
theorem filed_run (keeps : KeepsFile file usual) (steps : List HistoryStep) {s : Session σ} (ordinary : usual s.system)
    (named : s.shell.history.file = some file) :
    ∃ t, Act.Yields (run file capacity dedup steps) s () t ∧ usual t.system ∧ t.shell.history.file = some file ∧
      filed file t = steps.foldl (next file capacity dedup) (filed file s) := by
  induction steps generalizing s with
  | nil => exact ⟨s,Act.yields_pure () s,ordinary,named,rfl⟩
  | cons x r ih =>
    obtain ⟨t,first,ordinary',named',same⟩ := filed_act capacity dedup keeps ordinary named x
    obtain ⟨u,rest,ordinary'',named'',same'⟩ := ih ordinary' named'
    exact ⟨u,first.bind rest,ordinary'',named'',by rw [same',same]; rfl⟩

end

section
variable {f : Filed} (file : Text) (capacity : Nat) (dedup : Bool)

theorem isWhole_next (whole : HistoryEntry.IsWhole f.content) (x : HistoryStep) :
    HistoryEntry.IsWhole (x.next file capacity dedup f).content := by
  cases x with
  | append command status time =>
    rw [next]
    split
    · exact whole.append (HistoryEntry.isWhole_bytes _)
    · exact whole
  | clear => exact whole
  | flush =>
    rw [next]
    split
    · exact HistoryEntry.isWhole_flatMap_bytes _
    · exact whole
  | reopen => exact whole

theorem isWhole_run (whole : HistoryEntry.IsWhole f.content) (steps : List HistoryStep) :
    HistoryEntry.IsWhole (steps.foldl (next file capacity dedup) f).content := by
  induction steps generalizing f with
  | nil => exact whole
  | cons x r ih => exact ih (isWhole_next file capacity dedup whole x)

/-! ### After a clearing -/

/-- Steps were done after a clearing, which added the entries of `new`. The history has the last of these only. The file has
    `old`, which it had at the clearing, in front of them, until it is replaced; then it has the last of them only, too. -/
structure Forgets (old : Bytes) (done : List HistoryStep) (new : List HistoryEntry) (f : Filed) : Prop where
  recent : f.history.entries <:+ new
  storable : ∀ e ∈ new, HistoryEntry.IsStorable e
  kept : .flush ∉ done → f.history.stale = true ∧ f.content = old ++ new.flatMap HistoryEntry.bytes
  replaced : .flush ∈ done → ∃ l, l <:+ new ∧ f.content = l.flatMap HistoryEntry.bytes

theorem forgets_clear (f : Filed) : Forgets f.content [] [] ⟨f.history.clear,f.content⟩ :=
  ⟨List.suffix_rfl,List.forall_mem_nil _,fun _ => ⟨rfl,(List.append_nil _).symm⟩,fun done => absurd done List.not_mem_nil⟩

theorem suffix_concat {l new : List HistoryEntry} (recent : l <:+ new) (e : HistoryEntry) : l ++ [e] <:+ new ++ [e] := by
  obtain ⟨front,rfl⟩ := recent
  exact ⟨front,(List.append_assoc _ _ _).symm⟩

variable {old : Bytes} {done : List HistoryStep} {new : List HistoryEntry}

theorem Forgets.next (forgets : Forgets old done new f) {x : HistoryStep} (other : x ≠ .reopen) :
    Forgets old (done ++ [x]) (new ++ x.entries f.history) (x.next file capacity dedup f) := by
  obtain ⟨recent,storable,kept,replaced⟩ := forgets
  cases x with
  | append command status time =>
    have member : HistoryStep.flush ∈ done ++ [.append command status time] ↔ .flush ∈ done := by simp
    rw [HistoryStep.next,entries]
    cases entry : f.history.entry? command status.toInt time.toNat with
    | none =>
      rw [Option.toList_none,List.append_nil]
      exact ⟨recent,storable,fun none => kept (mt member.mpr none),fun some => replaced (member.mp some)⟩
    | some e =>
      rw [Option.toList_some]
      refine ⟨?_,?_,?_,?_⟩
      · rw [History.push_entries]
        exact (History.rtake_suffix _ _).trans (suffix_concat recent e)
      · intro x mem
        rcases List.mem_append.mp mem with before | last
        · exact storable x before
        · rw [List.mem_singleton.mp last]
          exact History.isStorable_of_kept entry
      · intro none
        obtain ⟨stale,content⟩ := kept (mt member.mpr none)
        exact ⟨History.trim_stale stale,by simp [content]⟩
      · intro some
        obtain ⟨l,last,content⟩ := replaced (member.mp some)
        exact ⟨l ++ [e],suffix_concat last e,by simp [content]⟩
  | clear =>
    have member : HistoryStep.flush ∈ done ++ [.clear] ↔ .flush ∈ done := by simp
    rw [entries,List.append_nil]
    refine ⟨List.nil_suffix,storable,?_,fun some => replaced (member.mp some)⟩
    intro none
    exact ⟨rfl,(kept (mt member.mpr none)).2⟩
  | flush =>
    rw [entries,List.append_nil,HistoryStep.next]
    by_cases stale : f.history.stale = true
    · rw [if_pos stale]
      exact ⟨recent,storable,fun none => absurd (by simp) none,fun _ => ⟨_,recent,rfl⟩⟩
    · rw [if_neg stale]
      refine ⟨recent,storable,fun none => absurd (by simp) none,fun _ => replaced ?_⟩
      by_contra never
      exact stale (kept never).1
  | reopen => exact absurd rfl other

theorem Forgets.run (forgets : Forgets old done new f) {steps : List HistoryStep} (never : .reopen ∉ steps) :
    Forgets old (done ++ steps) (new ++ added file capacity dedup f steps)
      (steps.foldl (HistoryStep.next file capacity dedup) f) := by
  induction steps generalizing done new f with
  | nil => rwa [List.append_nil,added,List.append_nil]
  | cons x r ih =>
    have other : x ≠ .reopen := fun same => never (same ▸ List.mem_cons_self)
    have first := forgets.next file capacity dedup other
    have rest := ih first (fun mem => never (List.mem_cons_of_mem x mem))
    rw [List.append_assoc] at rest
    rw [added,← List.append_assoc]
    exact rest

end
end HistoryStep

/-- **A clearing is forgotten until the file is replaced.** A history is cleared at any time, and then entries are added to
    it, it is cleared again and its file is replaced, in any order. If the file was replaced since the first clearing, then
    a history that is read from the file has the last of the new entries only. If it was not, then the file has the old
    entries still, in front of the new ones; when the file was whole in the beginning, one that is read from it has none of
    them exactly when there are none, or when the new entries fill its window. -/
theorem History.reopened_cleared_iff {σ : Type} [Kernel σ] {file : Text} {usual : σ → Prop} (keeps : KeepsFile file usual)
    (capacity : Nat) (dedup : Bool) {s : Session σ} (ordinary : usual s.system)
    (named : s.shell.history.file = some file) (before : List HistoryStep) {after : List HistoryStep}
    (never : .reopen ∉ after) (capacity' : Nat) (dedup' : Bool) :
    ∃ t u, Act.Yields (HistoryStep.run file capacity dedup (before ++ [.clear])) s () t ∧
      Act.Yields (HistoryStep.run file capacity dedup after) t () u ∧
      let old := (HistoryStep.filed file t).content
      let new := HistoryStep.added file capacity dedup (HistoryStep.filed file t) after
      let reopened := (History.load file (Kernel.contentOf u.system file).toOption capacity' dedup').entries
      (.flush ∈ after → reopened <:+ new) ∧
      (.flush ∉ after →
        reopened = (HistoryEntry.ofFile (old ++ new.flatMap HistoryEntry.bytes)).rtake (max capacity' 1)) ∧
      (HistoryEntry.IsWhole (HistoryStep.filed file s).content →
        (reopened <:+ new ↔ .flush ∈ after ∨ HistoryEntry.ofFile old = [] ∨ max capacity' 1 ≤ new.length)) := by
  obtain ⟨t,cleared,ordinary',named',same⟩ :=
    HistoryStep.filed_run capacity dedup keeps (before ++ [.clear]) ordinary named
  obtain ⟨u,result,-,-,last⟩ := HistoryStep.filed_run capacity dedup keeps after ordinary' named'
  refine ⟨t,u,cleared,result,?_⟩
  intro old new reopened
  have content : reopened = (HistoryEntry.ofFile (HistoryStep.filed file u).content).rtake (max capacity' 1) :=
    History.load_entries ..
  have start : HistoryStep.Forgets old [] [] (HistoryStep.filed file t) := by
    change HistoryStep.Forgets (HistoryStep.filed file t).content [] [] (HistoryStep.filed file t)
    rw [same,List.foldl_append]
    exact HistoryStep.forgets_clear (before.foldl (HistoryStep.next file capacity dedup) (HistoryStep.filed file s))
  have forgets := start.run file capacity dedup never
  rw [← last,List.nil_append,List.nil_append] at forgets
  obtain ⟨-,storable,kept,replaced⟩ := forgets
  have forgotten : .flush ∈ after → reopened <:+ new := by
    intro flush
    obtain ⟨l,recent,written⟩ := replaced flush
    rw [content,written,HistoryEntry.ofFile_flatMap_bytes fun e mem => storable e (recent.mem mem)]
    exact (History.rtake_suffix l _).trans recent
  have remembered : .flush ∉ after →
      reopened = (HistoryEntry.ofFile (old ++ new.flatMap HistoryEntry.bytes)).rtake (max capacity' 1) := by
    intro none
    rw [content,(kept none).2]
  refine ⟨forgotten,remembered,?_⟩
  intro whole
  by_cases flush : .flush ∈ after
  · exact iff_of_true (forgotten flush) (.inl flush)
  · have wholeOld : HistoryEntry.IsWhole old := by
      change HistoryEntry.IsWhole (HistoryStep.filed file t).content
      rw [same]
      exact HistoryStep.isWhole_run file capacity dedup whole _
    rw [or_iff_right flush,remembered flush,HistoryEntry.ofFile_append wholeOld,
      HistoryEntry.ofFile_flatMap_bytes storable]
    exact History.rtake_append_suffix_iff _ _ (by omega)

/-- A file with a line of another form that holds more than the window. Entries are added before and after the clearing, the
    last of them by a history that has replaced its file. -/
theorem History.reopened_cleared_three :
    let old := Utf8.encode (txt "écho\r\r\n12\t1\tcd \\n\n")
    let file := txt "history"
    let m : Machine := .start ⟨[([file],.file false old)]⟩ [] [] .empty 0
    let s : Session Machine := ⟨Shell.start (.load file (some old) 1 true) m,m⟩
    let before := [HistoryStep.append (txt "ls") 0 5,.flush,.append (txt "pwd") 0 6]
    let after := [HistoryStep.append (txt "ls") 0 7,.append (txt " ls ") 0 8,.flush,.clear,.append (txt "id") 0 9]
    .reopen ∉ after ∧ s.shell.history.file = some file ∧ HistoryEntry.IsWhole (HistoryStep.filed file s).content ∧
      ∃ t u, Act.Yields (HistoryStep.run file 1 true (before ++ [.clear])) s () t ∧
        Act.Yields (HistoryStep.run file 1 true after) t () u ∧
        (History.load file (Kernel.contentOf u.system file).toOption 5 true).entries <:+
          HistoryStep.added file 1 true (HistoryStep.filed file t) after := by
  intro old file m s before after
  have spot : Machine.HasSpot file [file] m := ⟨_,rfl,by decide,.found [file] _,rfl,rfl,.inr ⟨false,_,rfl⟩⟩
  have never : HistoryStep.reopen ∉ after := by decide
  have named : s.shell.history.file = some file := rfl
  have whole : HistoryEntry.IsWhole (HistoryStep.filed file s).content := ⟨.inr (by decide +kernel),by decide +kernel⟩
  obtain ⟨t,u,cleared,result,-,-,iff⟩ :=
    History.reopened_cleared_iff (Machine.keepsFile file [file]) 1 true spot named before never 5 true
  exact ⟨never,named,whole,t,u,cleared,result,(iff whole).mpr (.inl (by decide))⟩

/-- A command is added, and the history is cleared. The command is read from the file again. -/
theorem History.reopened_cleared_one :
    let file := txt "history"
    let m : Machine := .start ⟨[]⟩ [] [] .empty 0
    let s : Session Machine := ⟨Shell.start (.load file none 5 true) m,m⟩
    let r := (HistoryStep.run file 5 true [.append (txt "ls") 0 5,.clear]).run s
    Machine.HasSpot file [file] m ∧ r.1.toOption = some () ∧ r.2.shell.history.entries = [] ∧
      (History.load file (Kernel.contentOf r.2.system file).toOption 5 true).entries = [⟨txt "ls",0,5⟩] := by
  intro file m s r
  exact ⟨⟨_,rfl,by decide,.free [file],rfl,rfl,.inl rfl⟩,by decide +kernel,by decide +kernel,by decide +kernel⟩

end JobShell

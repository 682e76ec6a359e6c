import JobShell.Proofs.Line.Browsing

/-!
# Searching the history

A search goes on from where it is: a character looks no further than the entry
that is shown, a backspace begins anew, and a failed step shows what was shown
before. What it shows is nevertheless what a search from the beginning would
find (`Editor.search_finds`), because an entry that holds a longer query holds
the shorter one as well. That in turn is so because the lower case of a text is
that of its characters one by one, as long as there is no capital sigma.
-/
namespace JobShell

/-! ### Queries that grow -/

theorem Text.hasInfix_iff (s t : Text) : Text.hasInfix s t = true ↔ s <:+: t := by
  induction t with
  | nil => simp [Text.hasInfix]
  | cons c r ih => simp [Text.hasInfix,ih,List.infix_cons_iff]

/-- Without a capital sigma the lower case of a text is that of its characters. -/
theorem Letter.lowerAfter_eq {s : Text} (free : capitalSigma ∉ s) (before : Text) :
    lowerAfter before s = s.flatMap lowerChar := by
  induction s generalizing before with
  | nil => rfl
  | cons c r ih =>
    have other : c ≠ capitalSigma := by
      rintro rfl
      exact free (by simp)
    rw [lowerAfter,if_neg other,List.flatMap_cons,ih]
    intro later
    exact free (by simp [later])

/-- What holds a longer query holds the shorter one. -/
theorem History.isMatch_of_append {q : Text} {c : Char} (free : Letter.capitalSigma ∉ q ++ [c]) {command : Text}
    (longer : isMatch (q ++ [c]) command = true) : isMatch q command = true := by
  have shorter : Letter.capitalSigma ∉ q := by
    intro mem
    exact free (by simp [mem])
  rw [isMatch,Text.hasInfix_iff,Letter.lower,Letter.lowerAfter_eq free,List.flatMap_append] at longer
  rw [isMatch,Text.hasInfix_iff,Letter.lower,Letter.lowerAfter_eq shorter]
  exact (List.prefix_append _ _).isInfix.trans longer

/-! ### The entries that hold a query -/

/-- The numbers below `n` that have a property, from the greatest to the least. -/
def below (p : Nat → Bool) (n : Nat) : List Nat := (List.range n).reverse.filter p

theorem below_zero (p : Nat → Bool) : below p 0 = [] := rfl

theorem below_succ (p : Nat → Bool) (n : Nat) : below p (n+1) = if p n then n :: below p n else below p n := by
  simp [below,List.range_succ,List.filter_cons]

theorem mem_below {p : Nat → Bool} {n i : Nat} : i ∈ below p n ↔ i < n ∧ p i = true := by
  simp [below]

theorem pairwise_below (p : Nat → Bool) (n : Nat) : (below p n).Pairwise (· > ·) := by
  apply List.Pairwise.filter
  rw [List.pairwise_reverse]
  exact List.pairwise_lt_range

/-- Numbers without the property do not count. -/
theorem below_eq_of_forall {p : Nat → Bool} {k n : Nat} (fewer : k ≤ n) (none : ∀ i, k ≤ i → i < n → p i = false) :
    below p n = below p k := by
  induction n with
  | zero =>
    have same : k = 0 := by omega
    rw [same]
  | succ n ih =>
    by_cases same : k = n+1
    · rw [same]
    · have last : p n = false := none n (by omega) (by omega)
      rw [below_succ,last,if_neg Bool.false_ne_true]
      apply ih (by omega)
      intro i first inside
      exact none i first (by omega)

/-- None is greater than the first. -/
theorem le_of_mem_below {p : Nat → Bool} {n m i : Nat} (first : (below p n)[0]? = some m) (mem : i ∈ below p n) :
    i ≤ m := by
  have sorted := pairwise_below p n
  cases list : below p n with
  | nil => simp [list] at first
  | cons a r =>
    rw [list] at first sorted mem
    cases first
    rcases List.mem_cons.mp mem with same | later
    · exact Nat.le_of_eq same
    · exact Nat.le_of_lt (List.rel_of_pairwise_cons sorted later)

/-- After the number at index `k` come those below it. -/
theorem below_of_getElem? {p : Nat → Bool} {n k m : Nat} (here : (below p n)[k]? = some m) :
    below p m = (below p n).drop (k+1) := by
  induction n generalizing k with
  | zero => simp [below_zero] at here
  | succ n ih =>
    rw [below_succ] at here ⊢
    cases last : p n with
    | false =>
      simp only [last,Bool.false_eq_true,if_false] at here ⊢
      exact ih here
    | true =>
      simp only [last,if_true] at here ⊢
      cases k with
      | zero =>
        cases here
        rfl
      | succ k => exact ih here

namespace History

/-- Whether the entry at an index holds a query. -/
def holds (h : History) (query : Text) (i : Nat) : Bool := h.entries[i]?.any (fun e => isMatch query e.command)

/-- The indices of the entries that hold a query, the newest first. -/
def matchesOf (h : History) (query : Text) : List Nat := below (h.holds query) h.entries.length

theorem mem_matchesOf (h : History) (query : Text) (i : Nat) :
    i ∈ h.matchesOf query ↔
      ∃ inside : i < h.entries.length, Letter.lower query <:+: Letter.lower h.entries[i].command := by
  rw [matchesOf,mem_below]
  constructor
  · rintro ⟨inside,found⟩
    refine ⟨inside,?_⟩
    simpa [holds,inside,isMatch,Text.hasInfix_iff] using found
  · rintro ⟨inside,found⟩
    refine ⟨inside,?_⟩
    simpa [holds,inside,isMatch,Text.hasInfix_iff] using found

theorem find?_eq (h : History) (query : Text) (start : Nat) :
    h.find? query start = (below (h.holds query) (min (start+1) h.entries.length)).head? := by
  have found : ∀ n, lastMatch? h.entries query n = (below (h.holds query) n).head? := by
    intro n
    induction n with
    | zero => rfl
    | succ n ih =>
      rw [lastMatch?,below_succ]
      by_cases last : h.holds query n = true
      · have last' := last
        rw [holds] at last'
        rw [if_pos last,if_pos last']
        rfl
      · have last' := last
        rw [holds] at last'
        rw [if_neg last,if_neg last',ih]
  exact found _

theorem holds_of_append {h : History} {q : Text} {c : Char} (free : Letter.capitalSigma ∉ q ++ [c]) {i : Nat}
    (longer : h.holds (q ++ [c]) i = true) : h.holds q i = true := by
  obtain ⟨e,here,found⟩ := (Option.any_eq_true ..).mp longer
  rw [holds,here]
  exact isMatch_of_append free found

/-- A longer query is held by fewer entries. -/
theorem matchesOf_append_subset {h : History} {q : Text} {c : Char} (free : Letter.capitalSigma ∉ q ++ [c]) :
    h.matchesOf (q ++ [c]) ⊆ h.matchesOf q := by
  intro i longer
  obtain ⟨inside,found⟩ := mem_below.mp longer
  exact mem_below.mpr ⟨inside,holds_of_append free found⟩

/-- Every entry holds the empty query. -/
theorem matchesOf_nil {h : History} (filled : h.entries ≠ []) : (h.matchesOf [])[0]? = some (h.entries.length-1) := by
  have positive : 0 < h.entries.length := List.length_pos_iff.mpr filled
  obtain ⟨n,count⟩ := Nat.exists_eq_add_one.mpr positive
  have last : h.holds [] n = true := by
    have inside : n < h.entries.length := by omega
    simp [holds,inside,isMatch,Text.hasInfix_iff,Letter.lower,Letter.lowerAfter]
  rw [matchesOf,count,below_succ,if_pos last]
  rfl

/-- A search from the newest entry. -/
theorem find?_newest (h : History) (query : Text) : h.find? query (h.entries.length-1) = (h.matchesOf query)[0]? := by
  rw [find?_eq,matchesOf,List.head?_eq_getElem?]
  by_cases empty : h.entries.length = 0
  · rw [empty,Nat.min_zero]
  · have all : min (h.entries.length - 1 + 1) h.entries.length = h.entries.length := by omega
    rw [all]

/-- A search among fewer entries finds nothing where no entry holds the query. -/
theorem find?_of_none {h : History} {query : Text} (nothing : h.matchesOf query = []) (start : Nat) :
    h.find? query start = none := by
  rw [find?_eq,List.head?_eq_none_iff,List.eq_nil_iff_forall_not_mem]
  intro i mem
  obtain ⟨inside,found⟩ := mem_below.mp mem
  have also : i ∈ h.matchesOf query := mem_below.mpr ⟨by omega,found⟩
  rw [nothing] at also
  cases also

/-- A search for a longer query from the newest entry that holds the shorter one misses no entry. -/
theorem find?_append {h : History} {q : Text} {c : Char} (free : Letter.capitalSigma ∉ q ++ [c]) {m : Nat}
    (newest : (h.matchesOf q)[0]? = some m) : h.find? (q ++ [c]) m = (h.matchesOf (q ++ [c]))[0]? := by
  have inside : m < h.entries.length := (mem_below.mp (List.mem_of_getElem? newest)).1
  have first : min (m+1) h.entries.length = m+1 := by omega
  -- Both searches find the same once no entry after `m` holds the longer query.
  rw [find?_eq,matchesOf,List.head?_eq_getElem?,first]
  congr 1
  symm
  apply below_eq_of_forall inside
  intro i beyond within
  cases found : h.holds (q ++ [c]) i with
  | false => rfl
  | true =>
    have older := le_of_mem_below newest (matchesOf_append_subset free (mem_below.mpr ⟨within,found⟩))
    omega

/-- The search from below the entry at index `k` of those that hold the query finds the next. -/
theorem find?_next {h : History} {query : Text} {k m : Nat} (here : (h.matchesOf query)[k]? = some m) :
    (if m = 0 then none else some (m-1)).bind (h.find? query) = (h.matchesOf query)[k+1]? := by
  have rest := below_of_getElem? here
  have next : (h.matchesOf query)[k+1]? = (below (h.holds query) m).head? := by
    rw [rest,List.head?_drop]
    rfl
  rw [next]
  by_cases first : m = 0
  · rw [if_pos first,first]
    rfl
  · have inside : m < h.entries.length := (mem_below.mp (List.mem_of_getElem? here)).1
    have count : min (m - 1 + 1) h.entries.length = m := by omega
    rw [if_neg first,Option.bind_some,find?_eq,count]

end History

namespace Search
variable {h : History} {q : Text} {k : Nat} {s : Search}

/-- What a search for `q` shows `k` steps after the newest entry that holds it: the entry that is counted to, or, the search
    being failed, the last one that there is. -/
inductive Shows (h : History) (q : Text) (k : Nat) (s : Search) : Prop where
  | entry (m : Nat) (query : s.query = q) (here : (h.matchesOf q)[k]? = some m) (failed : s.failed = false)
      (matched : s.matched = some m)
  | beyond (query : s.query = q) (missing : (h.matchesOf q)[k]? = none) (failed : s.failed = true)
      (matched : ∀ m, (h.matchesOf q).getLast? = some m → s.matched = some m)

theorem Shows.query_eq (shows : Shows h q k s) : s.query = q := by
  cases shows with
  | entry m query here failed matched => exact query
  | beyond query missing failed matched => exact query

/-- A step that finds what is counted to; when there is nothing, what was shown must be the last entry. -/
theorem shows_of_find {start : Option Nat} (query : s.query = q)
    (search : start.bind (h.find? q) = (h.matchesOf q)[k]?)
    (kept : (h.matchesOf q)[k]? = none → ∀ m, (h.matchesOf q).getLast? = some m → s.matched = some m) :
    Shows h q k (s.from? h start) := by
  subst query
  rw [from?,search]
  cases found : (h.matchesOf s.query)[k]? with
  | some m => exact .entry m rfl found rfl rfl
  | none => exact .beyond rfl found rfl (kept found)

/-- A step that begins anew. -/
theorem shows_of_find_first {start : Option Nat} (query : s.query = q)
    (search : start.bind (h.find? q) = (h.matchesOf q)[0]?) : Shows h q 0 (s.from? h start) := by
  apply shows_of_find query search
  intro missing m last
  have nothing : h.matchesOf q = [] := by simpa using missing
  rw [nothing] at last
  cases last

/-- A character. The search goes on from the entry that is shown. -/
theorem Shows.char (shows : Shows h q 0 s) {c : Char} (free : Letter.capitalSigma ∉ q ++ [c]) :
    Shows h (q ++ [c]) 0
      ({ s with query := s.query ++ [c] }.from? h (some (s.matched.getD (h.entries.length-1)))) := by
  apply shows_of_find_first (by rw [shows.query_eq])
  rw [Option.bind_some]
  cases shows with
  | entry m query here failed matched =>
    rw [matched,Option.getD_some]
    exact History.find?_append free here
  | beyond query missing failed matched =>
    have nothing : h.matchesOf (q ++ [c]) = [] := by
      have before : h.matchesOf q = [] := by simpa using missing
      apply List.eq_nil_of_subset_nil
      rw [← before]
      exact History.matchesOf_append_subset free
    rw [History.find?_of_none nothing,nothing]
    rfl

/-- A backspace. The search begins anew. -/
theorem Shows.backspace (shows : Shows h q k s) :
    Shows h q.dropLast 0 ({ s with query := s.query.dropLast }.from? h (some (h.entries.length-1))) := by
  apply shows_of_find_first (by rw [shows.query_eq])
  exact History.find?_newest h _

/-- One step back, which finds nothing any more once nothing was found. -/
theorem Shows.back (shows : Shows h q k s) :
    Shows h q (k+1) (s.from? h (s.matched.bind (fun i => if i = 0 then none else some (i-1)))) := by
  cases shows with
  | entry m query here failed matched =>
    apply shows_of_find query
    · rw [matched,Option.bind_some]
      exact History.find?_next here
    · intro missing m' last
      obtain ⟨inside,-⟩ := List.getElem?_eq_some_iff.mp here
      have count : (h.matchesOf q).length - 1 = k := by
        have := List.getElem?_eq_none_iff.mp missing
        omega
      rw [List.getLast?_eq_getElem?,count,here] at last
      rw [matched,last]
  | beyond query missing failed matched =>
    have after : (h.matchesOf q)[k+1]? = none := by
      rw [List.getElem?_eq_none_iff] at missing ⊢
      omega
    apply shows_of_find query _ (fun _ => matched)
    rw [after]
    -- The entry that is still shown is the last one that holds the query, so nothing is found before it.
    cases last : (h.matchesOf q).getLast? with
    | none =>
      rw [Option.bind_eq_none_iff]
      intro start _
      exact History.find?_of_none (List.getLast?_eq_none_iff.mp last) start
    | some m =>
      rw [matched m last,Option.bind_some]
      rw [List.getLast?_eq_getElem?] at last
      rw [History.find?_next last,List.getElem?_eq_none_iff]
      omega

/-- The query after a key that changes it. -/
def typed (query : Text) : Key → Text
  | .char c => query ++ [c]
  | .backspace => query.dropLast
  | _ => query

end Search

namespace Editor
variable {e : Editor} {h : History} {q : Text} {k : Nat}

theorem pressAll_append [Segmentation] (e : Editor) (h : History) (l r : List (Outlook × Key)) :
    pressAll e h (l ++ r) = pressAll (pressAll e h l).1 (pressAll e h l).2 r := by
  induction l generalizing e h with
  | nil => rfl
  | cons first l ih => exact ih _ _

/-- The editor searches, and shows what is counted to. The history is as it was. -/
def Finds (h : History) (q : Text) (k : Nat) (e : Editor) (h' : History) : Prop :=
  h' = h ∧ ∃ s, e.mode = .searching s ∧ s.Shows h q k

theorem press_search [Segmentation] (idle : e.mode = .editing ∨ e.mode = .browsing) (o : Outlook) :
    (e.press h o .ctrlR).2 = ({ e with mode := .editing }.startSearch h,h) := by
  rcases idle with mode | mode
  · simp only [press,mode,edit]
  · simp only [press,mode,browse]

/-- The key that begins a search. -/
theorem finds_start [Segmentation] (idle : e.mode = .editing ∨ e.mode = .browsing) (filled : h.entries ≠ []) (o : Outlook) :
    Finds h [] 0 (e.press h o .ctrlR).2.1 (e.press h o .ctrlR).2.2 := by
  rw [press_search idle o]
  refine ⟨rfl,_,rfl,.entry (h.entries.length-1) rfl (History.matchesOf_nil filled) rfl ?_⟩
  simp [filled]

/-- A key that changes the query. -/
theorem Finds.typed [Segmentation] {h' : History} (finds : Finds h q 0 e h') (o : Outlook) {key : Key}
    (free : Letter.capitalSigma ∉ Search.typed q key) (only : (∃ c, key = .char c) ∨ key = .backspace) :
    Finds h (Search.typed q key) 0 (e.press h' o key).2.1 (e.press h' o key).2.2 := by
  obtain ⟨rfl,s,mode,shows⟩ := finds
  rcases only with ⟨c,rfl⟩ | rfl
  · simp only [press,mode]
    exact ⟨rfl,_,rfl,shows.char free⟩
  · simp only [press,mode]
    exact ⟨rfl,_,rfl,shows.backspace⟩

/-- The key of a search, once more. -/
theorem Finds.back [Segmentation] {h' : History} (finds : Finds h q k e h') (o : Outlook) :
    Finds h q (k+1) (e.press h' o .ctrlR).2.1 (e.press h' o .ctrlR).2.2 := by
  obtain ⟨rfl,s,mode,shows⟩ := finds
  simp only [press,mode]
  exact ⟨rfl,_,rfl,shows.back⟩

/-- Any keys that change the query. -/
theorem Finds.pressAll_typed [Segmentation] {h' : History} (finds : Finds h q 0 e h') (free : Letter.capitalSigma ∉ q)
    {keys : List (Outlook × Key)}
    (only : ∀ a ∈ keys, (∃ c, a.2 = .char c ∧ c ≠ Letter.capitalSigma) ∨ a.2 = .backspace) :
    Finds h (keys.foldl (fun q a => Search.typed q a.2) q) 0 (pressAll e h' keys).1 (pressAll e h' keys).2 := by
  induction keys generalizing e h' q with
  | nil => exact finds
  | cons first r ih =>
    have later : Letter.capitalSigma ∉ Search.typed q first.2 := by
      rcases only first (by simp) with ⟨c,key,other⟩ | key
      · rw [key]
        intro mem
        rcases List.mem_append.mp mem with before | new
        · exact free before
        · exact other (List.mem_singleton.mp new).symm
      · rw [key]
        intro mem
        exact free (List.dropLast_subset _ mem)
    have kind : (∃ c, first.2 = .char c) ∨ first.2 = .backspace := by
      rcases only first (by simp) with ⟨c,key,-⟩ | key
      · exact .inl ⟨c,key⟩
      · exact .inr key
    apply ih (finds.typed first.1 later kind) later
    intro a mem
    exact only a (by simp [mem])

/-- The key of a search, again and again. -/
theorem Finds.pressAll_back [Segmentation] {h' : History} (finds : Finds h q k e h') (again : List Outlook) :
    Finds h q (k + again.length) (pressAll e h' (again.map (·,.ctrlR))).1 (pressAll e h' (again.map (·,.ctrlR))).2 := by
  induction again generalizing e h' k with
  | nil => exact finds
  | cons o r ih =>
    have next := ih (finds.back o)
    rw [Nat.add_right_comm] at next
    exact next

/-- **The search through the history.** A search is begun while a line is edited or an entry is shown, a query is typed
    with backspaces in between, and the key of the search is pressed again any number of times. The entries that hold the
    query, without regard to case, are then shown one after the other from the newest to the oldest, each once: the search
    shows the one that is counted to, as a search from the beginning would. When there are not so many the search has
    failed, and still shows the last. Entries may hold a capital sigma, but the query may not: its lower case depends on
    what follows. -/
theorem search_finds [Segmentation] {e : Editor} {h : History} (idle : e.mode = .editing ∨ e.mode = .browsing) (filled : h.entries ≠ [])
    (o : Outlook) {keys : List (Outlook × Key)}
    (only : ∀ a ∈ keys, (∃ c, a.2 = .char c ∧ c ≠ Letter.capitalSigma) ∨ a.2 = .backspace) (again : List Outlook) :
    let q := keys.foldl (fun q a => Search.typed q a.2) []
    let l := h.matchesOf q
    let after := pressAll e h ((o,.ctrlR) :: keys ++ again.map (·,.ctrlR))
    (∀ i, i ∈ l ↔ ∃ inside : i < h.entries.length, Letter.lower q <:+: Letter.lower h.entries[i].command) ∧
      l.Pairwise (· > ·) ∧ after.2 = h ∧
      ∃ s, after.1.mode = .searching s ∧ s.query = q ∧
        (∀ inside : again.length < l.length, s.failed = false ∧ s.matched = some l[again.length]) ∧
        (l.length ≤ again.length → s.failed = true ∧ ∀ some : l ≠ [], s.matched = .some (l.getLast some)) := by
  intro q l after
  have finds : Finds h q again.length after.1 after.2 := by
    have first := (finds_start idle filled o).pressAll_typed (by simp) only
    have all := first.pressAll_back again
    rw [Nat.zero_add] at all
    rw [← pressAll_append] at all
    exact all
  obtain ⟨same,s,mode,shows⟩ := finds
  refine ⟨h.mem_matchesOf q,pairwise_below _ _,same,s,mode,shows.query_eq,?_,?_⟩
  · intro inside
    cases shows with
    | entry m query here failed matched =>
      rw [List.getElem?_eq_getElem inside] at here
      rw [here] at *
      exact ⟨failed,matched.trans here.symm⟩
    | beyond query missing failed matched =>
      exact absurd inside (Nat.not_lt.mpr (List.getElem?_eq_none_iff.mp missing))
  · intro beyond
    cases shows with
    | entry m query here failed matched =>
      obtain ⟨inside,-⟩ := List.getElem?_eq_some_iff.mp here
      exact absurd beyond (Nat.not_le.mpr inside)
    | beyond query missing failed matched =>
      refine ⟨failed,?_⟩
      intro some
      exact matched _ (List.getLast?_eq_some_getLast some)

/-- The first and the last of three entries hold the query; one step is taken beyond the first. -/
theorem search_finds_past_first :
    let h := (((History.inMemory 5 true).push ⟨txt "Make all",0,0⟩).push ⟨txt "ls",0,0⟩).push ⟨txt "cd; make",0,0⟩
    let o : Outlook := ⟨⟨.empty,[]⟩,fun _ => [],⟨0,fun _ => none,fun _ => none⟩⟩
    let keys := [(o,Key.char 'm'),(o,.char 's'),(o,.backspace),(o,.char 'A')]
    empty.mode = .editing ∧ h.entries ≠ [] ∧
      (∀ a ∈ keys, (∃ c, a.2 = .char c ∧ c ≠ Letter.capitalSigma) ∨ a.2 = .backspace) ∧
      h.matchesOf (txt "mA") = [2,0] ∧
      ∃ s, (pressAll empty h ((o,.ctrlR) :: keys ++ [(o,.ctrlR),(o,.ctrlR)])).1.mode = .searching s ∧
        s.query = txt "mA" ∧ s.failed = true ∧ s.matched = some 0 := by
  intro h o keys
  have filled : h.entries ≠ [] := by decide
  have only : ∀ a ∈ keys, (∃ c, a.2 = .char c ∧ c ≠ Letter.capitalSigma) ∨ a.2 = .backspace := by
    simp [keys]
    decide
  have list : h.matchesOf (txt "mA") = [2,0] := by decide
  have idle : empty.mode = .editing := rfl
  obtain ⟨-,-,-,s,mode,query,-,beyond⟩ := search_finds (.inl idle) filled o only [o,o]
  obtain ⟨failed,last⟩ := beyond (by decide)
  exact ⟨idle,filled,only,list,s,mode,query,failed,last (by decide)⟩

end Editor
end JobShell

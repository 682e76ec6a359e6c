import JobShell.Proofs.Line.CommonStart
import JobShell.Proofs.Line.WordOffsets
import JobShell.Proofs.Text.Order
import Mathlib.Data.List.TakeWhile

/-!
# Completion only extends

Candidates are built from an expanded path, with what was typed put back in front
of the names. They begin with the word as it was typed, unless the word has a
tilde that is expanded and not put back. So completion adds to what was typed
and takes nothing away (`Editor.complete_extends`).
-/
namespace JobShell

namespace Expansion

/-- A text without a tilde at its beginning or after its first equals sign stands for itself. -/
theorem ofTilde_eq_self {t : Text} (noTilde : t.head? ≠ some '~')
    (noAssignment : ∀ a b, t = a ++ '=' :: '~' :: b → '=' ∈ a) (s : Surroundings) : ofTilde s t = t := by
  have nowhere : (afterEquals? t).filter (fun p => p.2.head? = some '~') = none := by
    rw [Option.filter_eq_none_iff]
    intro p found tilde
    obtain ⟨⟨a,b⟩,split,rfl⟩ := Option.map_eq_some_iff.mp found
    obtain ⟨rfl,first⟩ := Text.splitAt?_eq_some_iff.mp split
    obtain ⟨r,rfl⟩ := List.head?_eq_some_iff.mp (of_decide_eq_true tilde)
    exact first (noAssignment a r rfl)
  rw [ofTilde,if_neg noTilde,nowhere]

/-- The end of a text from the first slash on is kept when there is a tilde at its beginning. -/
theorem exists_ofTilde_tail {t : Text} (tilde : t.head? = some '~') (slash : '/' ∈ t) (s : Surroundings) :
    ∃ a b tail, ofTilde s t = a ++ tail ∧ t = b ++ tail ∧ '/' ∈ tail := by
  obtain ⟨r,rfl⟩ := List.head?_eq_some_iff.mp tilde
  have inside : '/' ∈ r := (List.mem_cons.mp slash).resolve_left (by decide)
  obtain ⟨user,path,rfl,first⟩ := List.eq_append_cons_of_mem inside
  have named : ∀ c ∈ user, (c != '/') = true := fun c mem => bne_iff_ne.mpr (fun same => first (same ▸ mem))
  have tail : (user ++ '/' :: path).dropWhile (· != '/') = '/' :: path := by
    rw [List.dropWhile_append_of_pos named]
    rfl
  rw [ofTilde,if_pos tilde]
  dsimp only [List.tail_cons]
  rw [tail]
  split
  · rename_i home _
    exact ⟨home,'~' :: user,'/' :: path,rfl,rfl,List.mem_cons_self⟩
  · exact ⟨'~' :: user,'~' :: user,'/' :: path,rfl,rfl,List.mem_cons_self⟩

end Expansion

namespace Completion

theorem lastSlash_eq {x y : Text} (last : '/' ∉ y) : lastSlash (x ++ '/' :: y) = (x ++ ['/'],y) := by
  have named : ∀ c ∈ y.reverse, (c != '/') = true := fun c mem =>
    bne_iff_ne.mpr (fun same => last (same ▸ List.mem_reverse.mp mem))
  rw [lastSlash,List.reverse_append,List.reverse_cons,List.append_assoc,List.dropWhile_append_of_pos named,
    List.takeWhile_append_of_pos named]
  simp

/-- In front of an end that has a slash another text may stand: the last slash is the same. -/
theorem lastSlash_tail {tail : Text} (slash : '/' ∈ tail) :
    ∃ x y, ∀ a, lastSlash (a ++ tail) = (a ++ x ++ ['/'],y) := by
  obtain ⟨y,x,whole,last⟩ := List.eq_append_cons_of_mem (List.mem_reverse.mpr slash)
  refine ⟨x.reverse,y.reverse,fun a => ?_⟩
  have split : tail = x.reverse ++ '/' :: y.reverse := by
    rw [← List.reverse_reverse tail,whole]
    simp
  rw [split,← List.append_assoc,lastSlash_eq (by simpa using last)]

/-- A word whose files are shown as it begins: it has no tilde that is expanded and not put back. -/
def KeepsTilde (word : Text) : Prop :=
  (word.head? = some '~' → '/' ∈ word) ∧ ∀ a b, word = a ++ '=' :: '~' :: b → '=' ∈ a

/-- The files that a word is completed to begin with the word. -/
theorem start_files {o : Outlook} {word t : Text} (kept : KeepsTilde word) (found : t ∈ files o word) : word <+: t := by
  rw [files] at found
  -- What is shown in front of the names ends where the name in the word begins.
  have whole : (if !(lastSlash (Expansion.ofTilde o.surroundings word)).1.isEmpty && word.head? = some '~' &&
      word.contains '/' then (lastSlash word).1 else (lastSlash (Expansion.ofTilde o.surroundings word)).1) ++
      (lastSlash (Expansion.ofTilde o.surroundings word)).2 = word := by
    by_cases tilde : word.head? = some '~'
    · have slash := kept.1 tilde
      obtain ⟨a,b,tail,expanded,typed,later⟩ := Expansion.exists_ofTilde_tail tilde slash o.surroundings
      obtain ⟨x,y,ends⟩ := lastSlash_tail later
      have same := lastSlash_append word
      rw [typed,ends b] at same
      rw [if_pos (by simp [expanded,ends,tilde,slash]),expanded,typed,ends,ends]
      exact same
    · rw [if_neg (by simp [tilde]),Expansion.ofTilde_eq_self tilde kept.2,lastSlash_append]
  obtain ⟨p,mem,rfl⟩ := List.mem_map.mp (List.mem_mergeSort.mp found)
  obtain ⟨-,begins⟩ := List.mem_filter.mp mem
  obtain ⟨rest,name⟩ := List.isPrefixOf_iff_prefix.mp ((Bool.and_eq_true ..).mp begins).1
  refine ⟨rest ++ if p.2 then ['/'] else [],?_⟩
  rw [← name,← List.append_assoc,← List.append_assoc,whole]

/-- The commands that a word is completed to begin with the word. -/
theorem start_withStart {v : Vocabulary} {word t : Text} (found : t ∈ v.withStart word) : word <+: t := by
  rw [Vocabulary.withStart,Text.mem_sortUnique,List.mem_append,List.mem_append] at found
  rcases found with (builtin | aliased) | command
  · exact List.isPrefixOf_iff_prefix.mp (List.mem_filter.mp builtin).2
  · exact List.isPrefixOf_iff_prefix.mp (List.mem_filter.mp aliased).2
  · exact List.isPrefixOf_iff_prefix.mp (List.mem_takeWhile_imp command)

/-- Whether a word is completed to files that are not shown as it begins. -/
theorem start_candidates {o : Outlook} {before t : Text}
    (typed : ¬((lastWord before).2.head? = some '~' ∧ '/' ∉ (lastWord before).2 ∧
      expectsCommand (lastWord before).1 = false))
    (assigned : ∀ a b, (lastWord before).2 = a ++ '=' :: '~' :: b → '=' ∈ a) (found : t ∈ candidates o before) :
    (lastWord before).2 <+: t := by
  rw [candidates] at found
  dsimp only at found
  split_ifs at found with command
  · exact start_withStart found
  · refine start_files ⟨fun tilde => ?_,assigned⟩ found
    by_contra slash
    refine typed ⟨tilde,slash,?_⟩
    simpa [slash] using command

theorem pairwise_candidates (o : Outlook) (before : Text) :
    (candidates o before).Pairwise fun a b => Utf8.encode a ≤ Utf8.encode b := by
  rw [candidates]
  dsimp only
  split_ifs
  · exact Text.pairwise_sortUnique _
  · exact Text.pairwise_mergeSort _

end Completion

namespace Editor
open Completion

/-- **Completion only extends.** Unless the word before the cursor is a tilde and a name where no command is expected, or
    has a tilde after its first equals sign, all candidates begin with the word and are in the order of their bytes. The
    text before the cursor is then extended, if at all, and the text after it stays; the line changes only for a single
    candidate, or when all candidates begin with the same text that is longer than the word. -/
theorem complete_extends (e : Editor) (o : Outlook)
    (typed : ¬((lastWord e.buffer.before).2.head? = some '~' ∧ '/' ∉ (lastWord e.buffer.before).2 ∧
      expectsCommand (lastWord e.buffer.before).1 = false))
    (assigned : ∀ a b, (lastWord e.buffer.before).2 = a ++ '=' :: '~' :: b → '=' ∈ a) :
    (∀ t ∈ candidates o e.buffer.before, (lastWord e.buffer.before).2 <+: t) ∧
    ((candidates o e.buffer.before).Pairwise fun a b => Utf8.encode a ≤ Utf8.encode b) ∧
    e.buffer.before <+: (e.complete o).buffer.before ∧ (e.complete o).buffer.after = e.buffer.after ∧
    ((e.complete o).buffer ≠ e.buffer →
      (∃ t, candidates o e.buffer.before = [t]) ∨
      candidates o e.buffer.before ≠ [] ∧ ∃ p, (lastWord e.buffer.before).2 <+: p ∧
        (lastWord e.buffer.before).2.length < p.length ∧ ∀ t ∈ candidates o e.buffer.before, p <+: t) := by
  have begins : ∀ t ∈ candidates o e.buffer.before, (lastWord e.buffer.before).2 <+: t :=
    fun t found => start_candidates typed assigned found
  refine ⟨begins,pairwise_candidates o _,?_⟩
  have whole := lastWord_append e.buffer.before
  have extended : ∀ {new}, (lastWord e.buffer.before).2 <+: new → e.buffer.before <+: (lastWord e.buffer.before).1 ++ new := by
    rintro new ⟨rest,rfl⟩
    rw [← List.append_assoc,whole]
    exact List.prefix_append _ rest
  rw [complete]
  cases found : candidates o e.buffer.before with
  | nil => exact ⟨List.prefix_refl _,rfl,fun changed => absurd rfl changed⟩
  | cons t rest =>
    rw [found] at begins
    cases rest with
    | nil =>
      have first := begins t List.mem_cons_self
      dsimp only [withBuffer]
      rw [LineBuffer.replaceWord_lastWord]
      refine ⟨extended ?_,rfl,fun _ => .inl ⟨t,rfl⟩⟩
      split_ifs
      · exact first
      · exact first.trans (List.prefix_append t [' '])
    | cons u rest =>
      have common := (prefix_commonStart_iff (List.cons_ne_nil t (u :: rest))).mpr begins
      have shared := (prefix_commonStart_iff (List.cons_ne_nil t (u :: rest))).mp (List.prefix_refl _)
      dsimp only
      split_ifs with longer
      · rw [LineBuffer.replaceWord_lastWord]
        refine ⟨extended common,rfl,fun _ => .inr ⟨List.cons_ne_nil t _,_,common,?_,shared⟩⟩
        refine Nat.lt_of_le_of_ne common.length_le fun same => ?_
        rw [← common.eq_of_length same] at longer
        exact Nat.lt_irrefl _ longer
      · exact ⟨List.prefix_refl _,rfl,fun changed => absurd rfl changed⟩

/-- A tilde that is expanded to read the directory stays as it was typed. -/
theorem complete_extends_tilde :
    let o : Outlook := ⟨⟨.empty,[]⟩,fun d => if d = txt "/home/me/" then [(txt ".dé",false),(txt "dépôt",true)] else [],
      ⟨0,fun _ => none,fun user => if user = txt "me" then some (txt "/home/me") else none⟩⟩
    let e : Editor := ⟨⟨txt "ls ~me/dé",txt " -l"⟩,.editing,none⟩
    lastWord e.buffer.before = (txt "ls ",txt "~me/dé") ∧ candidates o e.buffer.before = [txt "~me/dépôt/"] ∧
      (∀ t ∈ candidates o e.buffer.before, txt "~me/dé" <+: t) ∧ e.buffer.before <+: (e.complete o).buffer.before ∧
      (e.complete o).buffer.after = txt " -l" := by
  intro o e
  have word : lastWord e.buffer.before = (txt "ls ",txt "~me/dé") := by decide
  have files : candidates o e.buffer.before = [txt "~me/dépôt/"] := List.mergeSort_singleton _
  have typed : ¬((lastWord e.buffer.before).2.head? = some '~' ∧ '/' ∉ (lastWord e.buffer.before).2 ∧
      expectsCommand (lastWord e.buffer.before).1 = false) := by decide
  have assigned : ∀ a b, (lastWord e.buffer.before).2 = a ++ '=' :: '~' :: b → '=' ∈ a := by
    intro a b split
    have never : '=' ∉ (lastWord e.buffer.before).2 := by decide
    exact absurd (by simp [split]) never
  obtain ⟨begins,-,extended,after,-⟩ := complete_extends e o typed assigned
  rw [word] at begins
  exact ⟨word,files,begins,extended,after⟩

end Editor
end JobShell

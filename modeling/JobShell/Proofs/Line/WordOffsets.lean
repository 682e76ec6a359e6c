import JobShell.Proofs.Line.Offsets

/-!
# Completion by byte positions

The word before the cursor is found by the place of the last blank or tab, the
directory of a file by the place of the last slash, and what stands for a tilde
by the places of a slash and an equals sign. These places are computed and the
texts are cut there. No cut breaks down, and what is found are the candidates
that the line has by its characters (`Completion.candidates?_eq`).
-/
namespace JobShell

namespace Expansion

/-- A text that begins with a tilde, with the home directory in place of the tilde; none of an unknown user. -/
def homeAt? (s : Surroundings) (t : Text) : Option (Option Text) := do
  let (_,named) ← Text.cut? 1 t
  let stop := ((Text.firstPlace? (· == '/') named).map (· + 1)).getD (Text.width t)
  let user ← t.between? 1 stop
  let (_,tail) ← Text.cut? stop t
  return (home? s user).map (· ++ tail)

/-- The text with a home directory in the place of a tilde, found by byte positions. -/
def ofTilde? (s : Surroundings) (t : Text) : Option Text :=
  if t.head? = some '~' then (homeAt? s t).map (·.getD t)
  else match Text.firstPlace? (· == '=') t with
    | none => some t
    | some n => do
      let (front,rest) ← Text.cut? (n+1) t
      if rest.head? = some '~' then return ((← homeAt? s rest).map (front ++ ·)).getD t else return t

theorem homeAt?_tilde (s : Surroundings) (r : Text) :
    homeAt? s ('~' :: r) = some ((home? s (r.takeWhile (· != '/'))).map (· ++ r.dropWhile (· != '/'))) := by
  have named : Text.cut? 1 ('~' :: r) = some (['~'],r) := Text.cut?_append ['~'] r
  have stop : ((Text.firstPlace? (· == '/') r).map (· + 1)).getD (Text.width ('~' :: r)) =
      Text.width ('~' :: r.takeWhile (· != '/')) := by
    have place := Text.firstPlace?_getD (· == '/') r
    have later : Text.width ('~' :: r) = Text.width r + 1 := Nat.add_comm ..
    rw [later,Option.getD_map (· + 1) (Text.width r),place]
    exact Nat.add_comm ..
  have whole : '~' :: r = '~' :: r.takeWhile (· != '/') ++ r.dropWhile (· != '/') := by
    rw [List.cons_append,List.takeWhile_append_dropWhile]
  have user := Text.between?_append ['~'] (r.takeWhile (· != '/')) (r.dropWhile (· != '/'))
  have tail := Text.cut?_append ('~' :: r.takeWhile (· != '/')) (r.dropWhile (· != '/'))
  simp only [List.singleton_append] at user
  rw [← whole] at user tail
  have user : Text.between? ('~' :: r) 1 (Text.width ('~' :: r.takeWhile (· != '/'))) =
      some (r.takeWhile (· != '/')) := user
  simp only [homeAt?,named,stop,user,tail,bind,Option.bind,pure]

theorem ofTilde?_eq (s : Surroundings) (t : Text) : ofTilde? s t = some (ofTilde s t) := by
  rw [ofTilde?,ofTilde]
  by_cases first : t.head? = some '~'
  · obtain ⟨r,rfl⟩ := List.head?_eq_some_iff.mp first
    rw [if_pos first,if_pos first,homeAt?_tilde]
    cases known : home? s (r.takeWhile (· != '/')) <;> simp [known]
  · rw [if_neg first,if_neg first,Text.firstPlace?_eq_splitAt?]
    cases found : Text.splitAt? '=' t with
    | none => simp [afterEquals?,found]
    | some p =>
      obtain ⟨a,b⟩ := p
      obtain ⟨whole,-⟩ := Text.splitAt?_eq_some_iff.mp found
      have cut : Text.cut? (Text.width a + 1) t = some (a ++ ['='],b) := by
        have := Text.cut?_append (a ++ ['=']) b
        rw [List.append_assoc,List.singleton_append,← whole,Text.width_append] at this
        exact this
      by_cases tilde : b.head? = some '~'
      · obtain ⟨r,rfl⟩ := List.head?_eq_some_iff.mp tilde
        cases known : home? s (r.takeWhile (· != '/')) <;>
          simp [afterEquals?,found,cut,homeAt?_tilde,known,Option.filter]
      · simp [afterEquals?,found,cut,tilde,Option.filter]

end Expansion

namespace Completion

/-- The files of a directory that begin with a text, with another text in front of their names. -/
def named (o : Outlook) (directory start shown : Text) : List Text :=
  let names := (o.listing directory).filter fun p =>
    start.isPrefixOf p.1 && (p.1.head? != some '.' || start.head? = some '.')
  (names.map fun p => shown ++ p.1 ++ if p.2 then ['/'] else []).mergeSort Text.atMost

/-- The files that a word can be completed to, found by byte positions. -/
def files? (o : Outlook) (word : Text) : Option (List Text) := do
  let expanded ← Expansion.ofTilde? o.surroundings word
  match Text.lastPlace? (· == '/') expanded with
  | none => return named o (txt "./") expanded []
  | some slash =>
    let (directory,start) ← Text.cut? (slash+1) expanded
    let shown ← match Text.lastPlace? (· == '/') word with
      | some typed => if word.head? = some '~' then (Text.cut? (typed+1) word).map Prod.fst else some directory
      | none => some directory
    return named o directory start shown

/-- Characters that separate words. -/
def isSeparator (c : Char) : Bool := c == ' ' || c == '\t'

/-- The byte position where the word before the cursor begins, and what the word can be completed to. -/
def candidates? (o : Outlook) (l : ByteLine) : Option (Nat × List Text) := do
  let (before,_) ← Text.cut? l.cursor l.text
  let start := Text.behindLast isSeparator before
  let word ← l.text.between? start l.cursor
  let (front,_) ← Text.cut? start l.text
  if expectsCommand front && !word.contains '/' then return (start,o.commands.withStart word)
  else return (start,← files? o word)

/-! ### The last slash -/

theorem lastSlash_append (t : Text) : (lastSlash t).1 ++ (lastSlash t).2 = t := Text.dropEndWhile_append _ t

theorem behindLast_slash (t : Text) : Text.behindLast (· == '/') t = Text.width (lastSlash t).1 :=
  Text.behindLast_eq (fun _ => Text.size_of_beq rfl) t

theorem cut?_lastSlash {t : Text} {n : Nat} (found : Text.lastPlace? (· == '/') t = some n) :
    Text.cut? (n+1) t = some (lastSlash t) ∧ (lastSlash t).1 ≠ [] := by
  have place : n + 1 = Text.width (lastSlash t).1 := by
    rw [← behindLast_slash,Text.behindLast,found]
    rfl
  constructor
  · have cut := Text.cut?_append (lastSlash t).1 (lastSlash t).2
    rwa [lastSlash_append,← place] at cut
  · intro empty
    rw [empty] at place
    cases place

theorem lastSlash_of_none {t : Text} (none : Text.lastPlace? (· == '/') t = none) : lastSlash t = ([],t) := by
  have empty : (lastSlash t).1 = [] := by
    by_contra some
    have positive := Text.width_pos some
    rw [← behindLast_slash,Text.behindLast,none] at positive
    cases positive
  have rest := lastSlash_append t
  rw [empty,List.nil_append] at rest
  exact Prod.ext empty rest

theorem contains_slash (t : Text) : t.contains '/' = (Text.lastPlace? (· == '/') t).isSome := by
  rw [Text.isSome_lastPlace?,List.contains_eq_any_beq]
  simp only [Bool.beq_comm]

theorem files?_eq (o : Outlook) (word : Text) : files? o word = some (files o word) := by
  simp only [files?,Expansion.ofTilde?_eq,files,contains_slash,bind,Option.bind,pure]
  cases found : Text.lastPlace? (· == '/') (Expansion.ofTilde o.surroundings word) with
  | none => simp [lastSlash_of_none found,named]
  | some slash =>
    obtain ⟨cut,nonempty⟩ := cut?_lastSlash found
    simp only [cut]
    cases typed : Text.lastPlace? (· == '/') word with
    | none => simp [named,nonempty]
    | some n =>
      by_cases tilde : word.head? = some '~'
      · simp [named,nonempty,tilde,(cut?_lastSlash typed).1]
      · simp [named,nonempty,tilde]

/-! ### The word before the cursor -/

theorem lastWord_append (t : Text) : (lastWord t).1 ++ (lastWord t).2 = t := Text.dropEndWhile_append _ t

theorem size_separator {c : Char} (separator : isSeparator c = true) : c.utf8Size = 1 := by
  rcases (Bool.or_eq_true ..).mp separator with blank | tab
  · exact Text.size_of_beq rfl blank
  · exact Text.size_of_beq rfl tab

theorem behindLast_separator (t : Text) : Text.behindLast isSeparator t = Text.width (lastWord t).1 := by
  have same : (fun c => !isSeparator c) = fun c => c != ' ' && c != '\t' := by
    funext c
    exact Bool.not_or ..
  rw [Text.behindLast_eq (fun _ => size_separator),same]
  rfl

/-- **Candidates by byte positions** are those by characters, for the word that begins where it does. -/
theorem candidates?_eq (o : Outlook) (b : LineBuffer) :
    candidates? o b.placed = some (Text.width (lastWord b.before).1,candidates o b.before) := by
  have cut : Text.cut? b.placed.cursor b.placed.text = some (b.before,b.after) := b.cut?_cursor
  have word := Text.between?_append (lastWord b.before).1 (lastWord b.before).2 b.after
  have front := Text.cut?_append (lastWord b.before).1 ((lastWord b.before).2 ++ b.after)
  rw [← List.append_assoc] at front
  rw [lastWord_append] at word front
  change Text.between? b.placed.text _ b.placed.cursor = _ at word
  change Text.cut? _ b.placed.text = _ at front
  simp only [candidates?,cut,behindLast_separator,word,front,files?_eq,candidates,bind,Option.bind,pure]
  split <;> rfl

end Completion

namespace LineBuffer
open Completion (lastWord lastWord_append)

theorem replaceWord_lastWord (b : LineBuffer) (new : Text) :
    b.replaceWord (lastWord b.before).2 new = ⟨(lastWord b.before).1 ++ new,b.after⟩ := by
  have kept : ∀ x y : Text, (x ++ y).take ((x ++ y).length - y.length) = x := by simp
  have kept := kept (lastWord b.before).1 (lastWord b.before).2
  rw [lastWord_append] at kept
  rw [replaceWord,kept]

/-- The word before the cursor is replaced from where it begins. -/
theorem replaceFrom?_lastWord (b : LineBuffer) (new : Text) :
    b.placed.replaceFrom? (Text.width (lastWord b.before).1) new =
      some (b.replaceWord (lastWord b.before).2 new).placed := by
  rw [replaceFrom?_placed (lastWord_append b.before),replaceWord_lastWord]

theorem widthFrom?_lastWord (b : LineBuffer) :
    b.placed.widthFrom? (Text.width (lastWord b.before).1) = some (Text.width (lastWord b.before).2) := by
  have whole : b.placed.cursor = Text.width (lastWord b.before).1 + Text.width (lastWord b.before).2 := by
    rw [← Text.width_append,lastWord_append]
    rfl
  rw [ByteLine.widthFrom?,whole,if_pos (by omega),Nat.add_sub_cancel_left]

end LineBuffer
end JobShell

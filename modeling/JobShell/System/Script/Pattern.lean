import JobShell.System.Program.CharacterClass

/-!
# Patterns of scripts

A pattern is text in which a star stands for any text, a question mark for any
character and brackets for one of some characters. A character after a backslash
stands for itself.
-/
namespace JobShell
namespace Script
namespace Pattern

/-- The place of a character in the order that ranges follow. Bytes with the highest bit come first. -/
def rank (c : Char) : Int := if c.toNat < 128 then c.toNat else (c.toNat : Int) - 256

/-- The class that begins here, after a bracket, and the pattern after it. -/
def classAt? (p : Raw) : Option ((Char → Bool) × Raw) :=
  match p with
  | ':' :: r =>
    let name := r.takeWhile (· != ':')
    match r.drop name.length, CharacterClass.ofName? name with
    | ':' :: ']' :: rest, some k => some (k.holds,rest)
    | _, _ => none
  | _ => none

/-- Whether the characters up to a closing bracket hold a character, and the pattern after the bracket; none when
    there is no closing bracket. `first` tells that a closing bracket cannot come yet. -/
def members (x : Char) : Nat → Bool → Raw → Bool → Option (Bool × Raw)
  | 0, _, _, _ => none
  | fuel+1, first, p, found =>
    match p with
    | [] => none
    | c :: r =>
      if c = ']' && !first then some (found,r)
      else
        match if c = '[' then classAt? r else none with
        | some (k,rest) => members x fuel false rest (found || k x)
        | none =>
          match if c = '\\' then r else c :: r with
          | [] => none
          | low :: r =>
            match r with
            | '-' :: high :: after =>
              if high = ']' then members x fuel false r (found || x = low)
              else
                match if high = '\\' then after else high :: after with
                | [] => none
                | high :: after => members x fuel false after (found || (rank low ≤ rank x && rank x ≤ rank high))
            | _ => members x fuel false r (found || x = low)

/-- The ends of a text, the longest first. -/
def suffixes : Raw → List Raw
  | [] => [[]]
  | c :: r => (c :: r) :: suffixes r

/-- Whether a pattern that is shorter than `fuel` matches a text. -/
def matchesWithin : Nat → Raw → Raw → Bool
  | 0, _, _ => false
  | fuel+1, p, s =>
    let one := fun (c : Char) (r : Raw) =>
      match s with
      | x :: t => x = c && matchesWithin fuel r t
      | [] => false
    match p with
    | [] => s.isEmpty
    | '\\' :: c :: r => one c r
    | '?' :: r =>
      match s with
      | _ :: t => matchesWithin fuel r t
      | [] => false
    | '*' :: r => (suffixes s).any (matchesWithin fuel r)
    | '[' :: r =>
      match s with
      | [] => false
      | x :: t =>
        let (inverted,body) := match r with
          | '!' :: b => (true,b)
          | b => (false,b)
        match members x (body.length + 1) true body false with
        | some (found,rest) => found != inverted && matchesWithin fuel rest t
        | none => x = '[' && matchesWithin fuel r t
    | c :: r => one c r

/-- Whether a pattern matches a text. -/
def isMatch (p s : Raw) : Bool := matchesWithin (p.length + 1) p s

/-- The part of a text that is matched. Arguments that stand one after the other are not matched together: what
    follows a zero byte is not seen. -/
def seen (s : Raw) : Raw := s.takeWhile (· ≠ '\x00')

/-- A text without the shortest or the longest beginning that matches. -/
def dropStart (longest : Bool) (p s : Raw) : Raw :=
  let ends := List.range (s.length + 1)
  match (if longest then ends.reverse else ends).find? (fun i => isMatch p (seen (s.take i))) with
  | some i => s.drop i
  | none => s

/-- A text without the shortest or the longest end that matches. The longest one begins in the first argument. -/
def dropEnd (longest : Bool) (p s : Raw) : Raw :=
  let starts := if longest then List.range ((seen s).length + 1) else (List.range (s.length + 1)).reverse
  match starts.find? (fun i => isMatch p (seen (s.drop i))) with
  | some i => s.take i
  | none => s

/-! ### Names of files -/

/-- Whether brackets that begin here end before a slash. -/
def bracketEnds : Nat → Raw → Bool
  | 0, _ => false
  | fuel+1, p =>
    let p := match p with
      | '\\' :: r => r
      | p => p
    match p with
    | [] | '/' :: _ => false
    | _ :: r => if r.head? = some ']' then true else bracketEnds fuel r

/-- Whether the characters of brackets make a pattern. -/
def isBracket (p : Raw) : Bool :=
  let body := match p with
    | '!' :: r => r
    | r => r
  bracketEnds (body.length + 1) body

/-- A pattern without the backslashes that take away the meaning of characters. -/
def unescaped : Raw → Raw
  | '\\' :: c :: r => c :: unescaped r
  | c :: r => c :: unescaped r
  | [] => []

/-- A pattern for the names of files: directories that are no patterns, the first part that is one, and what comes
    after a slash behind it. -/
structure Parts where
  directory : Raw
  pattern : Raw
  after : Option Raw

/-- The parts of a pattern; none when nothing in it is a pattern. `directory` and `part` are what was passed so
    far, the second since the last slash; `found` tells that it is a pattern. -/
def split : Nat → Raw → Raw → Bool → Raw → Option Parts
  | 0, _, _, _, _ => none
  | fuel+1, directory, part, found, p =>
    match p with
    | [] => if found then some ⟨directory,part,none⟩ else none
    | c :: r =>
      if c = '*' || c = '?' then split fuel directory (part ++ [c]) true r
      else if c = '[' then split fuel directory (part ++ [c]) (found || isBracket r) r
      else
        let (read,x,rest) := match c, r with
          | '\\', d :: r => (['\\',d],d,r)
          | c, r => ([c],c,r)
        if x = '/' then
          if found then some ⟨directory,part,some rest⟩
          else split fuel (directory ++ part ++ read) [] false rest
        else split fuel directory (part ++ read) found rest

/-- The parts of a pattern for the names of files. -/
def parts (p : Raw) : Option Parts := split (p.length + 1) [] [] false p

end Pattern
end Script
end JobShell

import JobShell.System.Search.Request

/-!
# Searching files

Files are read piece by piece, and each line is decided as soon as it is
complete. Lines that are selected are shown with the lines around them, with the
matches in them alone, or only counted; a search may be over at the first one.
-/
namespace JobShell
namespace Search

/-- What is shown of a file. -/
inductive Display where
  | lines
  | count
  | name
  | nothing
  deriving DecidableEq, Repr

/-- A search whose patterns were read. -/
structure Plan where
  request : Request
  expression : Expression
  display : Display
  /-- How many lines are shown before a line that is selected, and after it. -/
  before : Option Nat
  after : Option Nat
  /-- Names of files are shown with what is in them. -/
  names : Bool

/-! ### Matches -/

namespace Plan

/-- The end of the longest match at a position that counts. -/
def matchAt (s : Plan) (line : Subject) (i : Nat) : Option Nat :=
  let found := ((line.ends s.expression [Subject.spot i]).map Spot.position).mergeSort (· ≥ ·)
  if s.request.wholeLines then found.find? (fun j => i = 0 && j = line.chars.size)
  else if s.request.wholeWords then
    if line.wordBefore i then none
    else found.find? (fun j => !line.wordAfter j && (j > i || found.head? = some i))
  else found.head?

/-- The first match from a position on, in so many attempts: its beginning and its end. -/
def matchFrom (s : Plan) (line : Subject) : Nat → Nat → Option (Nat × Nat)
  | 0, _ => none
  | fuel+1, i =>
    match s.matchAt line i with
    | some j => some (i,j)
    | none => matchFrom s line fuel (i + 1)

/-- The first match from a position on. -/
def findFrom (s : Plan) (line : Subject) (i : Nat) : Option (Nat × Nat) :=
  s.matchFrom line (line.chars.size + 1 - i) i

/-- A line as it is matched. -/
def subject (s : Plan) (line : Raw) : Subject := ⟨line.toArray,s.request.folds⟩

/-- Whether there is a match in a line that counts. Where one begins does not matter unless words are looked for. -/
def finds (s : Plan) (line : Subject) : Bool :=
  if s.request.wholeLines then (s.matchAt line 0).isSome
  else !(line.ends s.expression line.spots).isEmpty && (!s.request.wholeWords || (s.findFrom line 0).isSome)

/-- Whether a line is selected. Nothing matches when there are no patterns. Of the lines that do not match none is
    selected when fewer than none are looked for. -/
def selects (s : Plan) (line : Raw) : Bool :=
  !(s.request.inverts && s.request.belowZero && !s.request.quiet) &&
  (!s.request.keys.isEmpty && s.finds (s.subject line)) != s.request.inverts

/-- All matches from a position on that are not empty. -/
def allFrom (s : Plan) (line : Subject) : Nat → Nat → List (Nat × Nat)
  | 0, _ => []
  | fuel+1, i =>
    match s.findFrom line i with
    | none => []
    | some (a,b) =>
      if a ≥ line.chars.size then []
      else if b = a then allFrom s line fuel (a + 1)
      else (a,b) :: allFrom s line fuel b

/-- Whether the first line that is selected is enough. -/
def needsOne (s : Plan) : Bool := s.display = .name || s.display = .nothing

end Plan

/-! ### Lines -/

/-- A line with its number and its offset in the file. -/
structure Numbered where
  number : Nat
  offset : Nat
  text : Raw

/-- How far the search of a file is. -/
structure Course where
  /-- The number and the offset of the next line. -/
  number : Nat
  offset : Nat
  /-- How many lines were selected. -/
  selected : Nat
  /-- The last lines that were not shown, the last one first. -/
  earlier : List Numbered
  /-- How many lines are still to be shown after the last one that was selected. -/
  pending : Nat
  /-- The number of the last line that was shown. -/
  shown : Nat
  /-- How many lines had been selected when a zero byte was found. -/
  binary : Option Nat
  isOver : Bool
  /-- The offset after the last line that was selected. -/
  afterLast : Nat

namespace Course

/-- The search of a file that begins. -/
def start : Course := ⟨1,0,0,[],0,0,none,false,0⟩

end Course

/-- How a file is called, how wide its numbers are, and whether lines were shown before. -/
structure Source where
  name : Raw
  width : Nat
  used : Bool

/-- A part of the search of a file. -/
abbrev Searching (α : Type) : Type := StateT Course Routine α

section
variable (s : Plan) (f : Source)

/-- Text with a color. -/
def paint (color : String) (t : Raw) : Raw :=
  if s.request.colors then txt "\x1b[" ++ txt color ++ txt "m\x1b[K" ++ t ++ txt "\x1b[m\x1b[K" else t

/-- A name of a file as it is shown. -/
def shownName (name : Raw) : Raw := paint s "35" name

/-- What separates things. -/
def separation (mark : Raw) : Raw := paint s "36" mark

/-- What stands before a line, or before a match at some offset in it. -/
def heading (mark : Char) (line : Numbered) (offset : Nat) : Raw :=
  let r := s.request
  let number := fun (n : Nat) => paint s "32" (Text.padStart f.width (Numeral.ofNat n)) ++ separation s [mark]
  let head := (if s.names then shownName s f.name ++ (if r.nullNames then ['\x00'] else separation s [mark]) else []) ++
    (if r.numbers then number line.number else []) ++ (if r.offsets then number (line.offset + offset) else [])
  head ++ if r.tabs && !head.isEmpty && !line.text.isEmpty then ['\t'] else []

/-- A line from a position on with colors where it matches. -/
def painted (line : Subject) (i : Nat) : List (Nat × Nat) → Raw
  | [] => line.part i line.chars.size
  | (a,b) :: more => line.part i a ++ paint s "01;31" (line.part a b) ++ painted line b more

/-- A line as it is shown. Of a line that is not selected there are no matches to show, unless the lines that do not
    match are selected. -/
def shownLine (isSelected : Bool) (line : Numbered) : Raw :=
  let r := s.request
  let subject := s.subject line.text
  let found := if (r.onlyMatches || r.colors) && isSelected != r.inverts
    then s.allFrom subject (line.text.length + 1) 0 else []
  if !r.onlyMatches then
    let shown := if found.isEmpty then line.text else painted s subject 0 found
    heading s f (if isSelected then ':' else '-') line 0 ++ shown ++ [r.lineEnd]
  else found.flatMap fun (a,b) =>
    heading s f (if r.inverts then '-' else ':') line a ++ paint s "01;31" (subject.part a b) ++ [r.lineEnd]

/-- Shows a line. -/
def showLine (isSelected : Bool) (line : Numbered) : Searching Unit := do
  monadLift (Routine.put (shownLine s f isSelected line))
  modify (fun p => { p with shown := line.number, earlier := [] })

/-- Shows a line that is selected, after the lines before it that belong to it. -/
def showSelected (line : Numbered) : Searching Unit := do
  let p ← get
  let before := p.earlier.reverse
  let first := (before.head?.map (·.number)).getD line.number
  let isApart := if p.shown = 0 then f.used else p.shown + 1 < first
  if (s.before.isSome || s.after.isSome) && isApart then
    if let some t := s.request.separator then monadLift (Routine.put (separation s t ++ ['\n']))
  for l in before do showLine s f false l
  showLine s f true line

/-- Shows a line that is still to be shown after one that was selected. -/
def showPending (line : Numbered) : Searching Unit := do
  modify (fun p => { p with pending := p.pending - 1 })
  showLine s f false line

/-- The next line of a file. -/
def nextLine (text : Raw) : Searching Unit := do
  let p ← get
  let line : Numbered := ⟨p.number,p.offset,text⟩
  let shows := s.display = .lines && p.binary.isNone
  let isFull := fun (p : Course) => s.request.most.any (p.selected ≥ ·)
  set { p with number := p.number + 1, offset := p.offset + text.length + 1 }
  if isFull p then
    if p.pending > 0 then showPending s f line
    modify (fun p => { p with isOver := p.pending = 0 })
  else if s.selects text then
    if shows then showSelected s f line
    modify fun p =>
      let p := { p with selected := p.selected + 1, pending := if shows then s.after.getD 0 else 0, afterLast := p.offset }
      { p with isOver := s.needsOne || (s.display = .lines && !shows) || (isFull p && p.pending = 0) }
  else if p.pending > 0 then showPending s f line
  else modify (fun p => { p with earlier := (line :: p.earlier).take (s.before.getD 0) })

/-- Goes through lines until the search of the file is over. -/
def nextLines : List Raw → Searching Unit
  | [] => return
  | t :: r => do
    if !(← get).isOver then
      nextLine s f t
      nextLines r

/-- How much is read at once. -/
def pieceSize : Nat := 98304

/-- Whether zero bytes matter. -/
def mindsZeros : Bool := s.request.lineEnd = '\n' && s.request.binary ≠ .text

/-- Searches what can be read from a descriptor, after the beginning of a line; an error if it cannot be read. Zero
    bytes end lines once it is known that there are some. -/
def searchRest (fd : Nat) : Nat → Raw → Searching (Option Errno)
  | 0, _ => return none
  | fuel+1, start => do
    match ← monadLift (Routine.ask (.read fd pieceSize)) with
    | .error e => return some e
    | .ok b =>
      let piece := Raw.ofBytes b
      if mindsZeros s && piece.contains '\x00' then
        modify (fun p => { p with binary := some (p.binary.getD p.selected) })
      let isBinary := (← get).binary.isSome
      if isBinary && s.request.binary = .skip then
        modify (fun p => { p with selected := 0 })
        return none
      else
        let all := start ++ if isBinary then piece.map (fun c => if c = '\x00' then '\n' else c) else piece
        if piece.isEmpty then
          if !all.isEmpty then nextLines s f [all]
          return none
        else
          let parts := Text.splitOn s.request.lineEnd all
          nextLines s f parts.dropLast
          if (← get).isOver then return none else searchRest fd fuel (parts.getLast?.getD [])

end

/-! ### Files -/

/-- What is known after files were searched. -/
structure Findings where
  /-- Some line was selected. -/
  found : Bool
  /-- Something went wrong. -/
  failed : Bool
  /-- There was a line to show. -/
  used : Bool

/-- Says that something is wrong with a file. -/
def complainOf (s : Plan) (name : Raw) (e : Errno) : Routine Unit := do
  if !s.request.noMessages then Routine.complainOf name e

/-- Whether lines are written to the file that is read. -/
def feedsItself (s : Plan) (input : FileStatus) : Routine Bool := do
  match ← Routine.ask (.statusOf 1) with
  | .error _ => return false
  | .ok output =>
    return s.display = .lines && s.request.most.all (· > 1) && input.type = .regular &&
      input.identity == output.file.identity

/-- How wide the numbers of a file are. -/
def numberWidth (r : Request) (status : FileStatus) : Nat :=
  if !r.tabs then 0
  else if status.type = .regular then (Numeral.ofNat (status.size + if r.numbers then 1 else 0)).length
  else 20

/-- Shows what was found in a file. -/
def showFindings (s : Plan) (name : Raw) (p : Course) : Routine Unit := do
  let r := s.request
  match s.display with
  | .lines => if p.binary.any (· < p.selected) then Routine.complain (name ++ txt ": binary file matches")
  | .count =>
    Routine.put ((if s.names then shownName s name ++ (if r.nullNames then ['\x00'] else separation s [':']) else []) ++
      Numeral.ofNat p.selected ++ ['\n'])
  | .name =>
    if (p.selected > 0) = (r.listing = .withLines) then
      Routine.put (shownName s name ++ [if r.nullNames then '\x00' else '\n'])
  | .nothing => if r.quiet && p.selected > 0 then Routine.leave Request.trouble 0

/-- Searches an open file. What is read together with a file that others may go on with is left to them after the
    last line that was looked for. -/
def searchOpen (s : Plan) (name : Raw) (fd : Nat) (x : Findings) : Routine Findings := do
  match ← Routine.ask (.statusOf fd) with
  | .error e =>
    complainOf s name e
    return { x with failed := true }
  | .ok status =>
    if ← feedsItself s status.file then
      Routine.complain (name ++ txt ": input file is also the output")
      return { x with failed := true }
    else
      let f : Source := ⟨name,numberWidth s.request status.file,x.used⟩
      let (e,p) ← StateT.run (searchRest s f fd Action.rounds []) Course.start
      if let some e := e then complainOf s name e
      showFindings s name p
      if s.request.most.any (p.selected ≥ ·) && fd = 0 then
        if let some start := status.position then
          let _ ← Routine.ask (.seek fd (start + p.afterLast))
      return ⟨x.found || p.selected > 0,x.failed || e.isSome,x.used || p.selected > 0⟩

/-- How the input is called. -/
def inputName (r : Request) : Raw := r.label.getD (txt "(standard input)")

/-- How deep directories are searched. -/
def depthLimit : Nat := 10000

/-- Searches the files below a directory. -/
def searchBelow (s : Plan) : Nat → Raw → List Raw → Findings → Routine Findings
  | 0, _, _, x => return x
  | _+1, _, [], x => return x
  | fuel+1, directory, n :: rest, x => do
    let file := directory ++ n
    let x ← (do
      match ← Routine.ask (.look s.request.followsLinks file) with
      | .error e =>
        complainOf s file e
        return { x with failed := true }
      | .ok status =>
        if FileRule.excludes false (status.type = .directory) n s.request.rules then return x
        else match status.type with
        | .directory =>
          match ← Routine.ask (.namesIn file) with
          | .error e =>
            complainOf s file e
            return { x with failed := true }
          | .ok names => searchBelow s fuel (file ++ ['/']) names x
        | .regular =>
          match ← Routine.ask (.openFile .read file) with
          | .error e =>
            complainOf s file e
            return { x with failed := true }
          | .ok fd =>
            let x ← searchOpen s file fd x
            let _ ← Routine.ask (.close fd)
            return x
        | _ => return x : Routine Findings)
    searchBelow s fuel directory rest x

/-- Searches what an operand names. -/
def searchOperand (s : Plan) (name : Raw) (x : Findings) : Routine Findings := do
  let r := s.request
  if name = ['-'] then searchOpen s (inputName r) 0 x
  else
    match ← Routine.ask (.openFile .read name) with
    | .error e =>
      complainOf s name e
      return { x with failed := true }
    | .ok fd =>
      let isDirectory := match ← Routine.ask (.look true name) with
        | .ok status => status.type = .directory
        | .error _ => false
      let isPassed := (isDirectory && r.directories = .skip) || FileRule.excludes true isDirectory name r.rules
      let x ← (if isPassed then return x
        else if isDirectory && r.directories = .descend then do
          match ← Routine.ask (.namesIn name) with
          | .error e =>
            complainOf s name e
            return { x with failed := true }
          | .ok names =>
            let below := if name.getLast? = some '/' then name else name ++ ['/']
            searchBelow { s with names := r.names.getD true } depthLimit below names x
        else searchOpen s name fd x : Routine Findings)
      let _ ← Routine.ask (.close fd)
      return x

/-- Searches operands one after the other. -/
def searchAll (s : Plan) : List Raw → Findings → Routine Findings
  | [], x => return x
  | name :: r, x => do searchAll s r (← searchOperand s name x)

/-- Whether what is shown is thrown away. -/
def showsToNobody : Routine Bool := do
  match ← Routine.ask (.statusOf 1), ← Routine.ask (.look true (txt "/dev/null")) with
  | .ok output, .ok nothing => return output.file.type = .device && output.file.identity == nothing.identity
  | _, _ => return false

/-- The program `grep`. -/
def grep (args : List Raw) : Routine Nat := do
  let args := Request.table.readEach args
  let r ← Request.start.read args
  let args := args.flatten
  let (r,files) ← (if r.hasKeys then return (r,Argument.operands args)
    else match Argument.operands args with
      | [] => Request.misuse
      | pattern :: files => return (r.addKeys pattern none,files) : Routine (Request × List Raw))
  let nobody ← showsToNobody
  let display := if r.quiet || nobody then .nothing
    else if r.listing ≠ .no then .name
    else if r.counts then .count else .lines
  let (before,after) := r.contexts
  if (r.most = some 0 || (r.keys.isEmpty && !r.inverts)) && !(display = .name && r.listing = .withoutLines) then return 1
  else
    let expression ← compile r
    let plan : Plan := ⟨r,expression,display,before,after,r.names.getD (files.length > 1)⟩
    let none : Findings := ⟨false,false,false⟩
    let x ← (match files with
      | [] =>
        if r.directories = .descend then do
          match ← Routine.ask (.namesIn ['.']) with
          | .error e =>
            complainOf plan ['.'] e
            return { none with failed := true }
          | .ok names => searchBelow { plan with names := r.names.getD true } depthLimit [] names none
        else searchOperand plan ['-'] none
      | files => searchAll plan files none : Routine Findings)
    return if x.failed then 2 else if x.found then 0 else 1

end Search
end JobShell

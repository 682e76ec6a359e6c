import JobShell.System.Script.Builtin.Basic

/-!
# Looking commands up

The name of a command may stand for a function, for a command of the language
itself, or for a file in one of the directories that are searched. Where a file
was found is remembered until the directories change.
-/
namespace JobShell
namespace Script

/-- What the name of a command stands for. -/
inductive Meaning where
  | builtin (b : Builtin)
  | function (f : Function)
  /-- A file in the directory of some number, or one that is named by its path. -/
  | file (index : Option Nat)
  | unknown

/-- How a command is looked up. -/
structure Search where
  /-- Functions are passed over. -/
  noFunctions : Bool
  /-- Directories that are searched instead of the usual ones. -/
  path : Option Raw
  /-- It is said when nothing is found. -/
  complains : Bool
  /-- A file that is named by its path must be there. -/
  mustExist : Bool

/-- The directories that are searched when nobody has said which. -/
def defaultPath : Raw := txt "/usr/local/sbin:/usr/local/bin:/usr/sbin:/usr/bin:/sbin:/bin"

/-- The path of a file in a directory. -/
def fileIn (directory name : Raw) : Raw := if directory.isEmpty then name else directory ++ '/' :: name

namespace Run

/-- What is said of an error when something should have been executed. -/
def executionReason (e : Errno) : Raw :=
  if e = Errno.noEntry || e = Errno.notDirectory then txt "not found" else e.message

/-- The number of the first directory from some one on that has a file of a name. Directories before that in which
    it was found once are passed over when they cannot have changed their places. -/
def searchFrom (name : Raw) (once : Option Nat) : Nat → Errno → List Raw → Run (Except Errno Nat)
  | _, e, [] => return .error e
  | i, e, d :: r => do
    let full := fileIn d name
    let isFixed := full.head? = some '/'
    if isFixed && once = some i then return .ok i
    else if isFixed && once.any (i < ·) then searchFrom name once (i + 1) e r
    else
      match ← ask (.look true full) with
      | .error f =>
        searchFrom name once (i + 1) (if f = Errno.noEntry || f = Errno.notDirectory then e else f) r
      | .ok s => if s.type = .regular then return .ok i else searchFrom name once (i + 1) Errno.accessDenied r

/-- Remembers where a command was found, or forgets it. -/
def setLocation (name : Raw) (l : Option Location) : Run Unit :=
  modify fun s =>
    match l with
    | none => { s with known := s.known.filter (·.1 != name) }
    | some l =>
      if s.known.any (·.1 == name) then
        { s with known := s.known.map (fun k => if k.1 == name then (name,l) else k) }
      else { s with known := (name,l) :: s.known }

/-- What a name stands for without a file being searched. -/
def meaningOf (noFunctions : Bool) (name : Raw) : Run Meaning := do
  if name.contains '/' then return .file none
  else
    let functions := (← get).functions
    match functions.find? (fun f => f.1 == name && !noFunctions), Builtin.ofName? name with
    | some (_,f), _ => return .function f
    | none, some b => return .builtin b
    | none, none => return .unknown

/-- What a name stands for. -/
def findCommand (search : Search) (name : Raw) : Run Meaning := do
  match ← meaningOf search.noFunctions name with
  | .file i =>
    if search.mustExist then
      match ← ask (.look true name) with
      | .ok _ => return .file i
      | .error _ => return .unknown
    else return .file i
  | .unknown =>
    let known := (← get).known
    let place : Option Location := (known.find? (fun k => k.1 == name && search.path.isNone)).map Prod.snd
    match place with
    | some ⟨i,false⟩ => return .file (some i)
    | _ =>
      let directories := Text.splitOn ':' (search.path.getD (← searchPath))
      match ← searchFrom name (place.map (·.index)) 0 Errno.noEntry directories with
      | .ok i =>
        if search.path.isNone then setLocation name (some ⟨i,false⟩)
        return .file (some i)
      | .error e =>
        if place.isSome then setLocation name none
        if search.complains then warn (name ++ txt ": " ++ executionReason e)
        return .unknown
  | m => return m

/-- Looks for the file of a command whose name is plain, so that the script remembers where it is although a process
    of its own is going to run it. -/
def lookAhead (t : Tree) : Run Unit := do
  match t with
  | .simple _ _ (w :: _) _ =>
    if let some name := plainText? w then
      if isName name then let _ ← findCommand ⟨false,none,false,false⟩ name
  | _ => return

/-! ### Execution -/

/-- The program that runs files which the machine cannot run itself. -/
def scriptProgram : Raw := txt "/bin/sh"

/-- Puts a file in the place of the script, and comes back with an error if that cannot be done. -/
def tryFile (file : Raw) (args : List Raw) : Run Errno := do
  let environment ← environment
  let e ← (monadLift (Action.execute file args environment) : Run Errno)
  if e = Errno.execFormat && file ≠ scriptProgram then
    (monadLift (Action.execute scriptProgram (scriptProgram :: file :: args.tail) environment) : Run Errno)
  else return e

/-- Tries the files of a name in directories, one after the other. The error of the last one that was there counts. -/
def tryFiles (args : List Raw) (name : Raw) : Errno → List Raw → Run Errno
  | e, [] => return e
  | e, d :: r => do
    let f ← tryFile (fileIn d name) args
    tryFiles args name (if f = Errno.noEntry || f = Errno.notDirectory then e else f) r

/-- Puts another program in the place of the script. The first argument is its name. -/
def execute {α : Type} (args : List Raw) (path : Raw) (index : Option Nat) : Run α := do
  let name := args.head?.getD []
  let e ← if name.contains '/' then tryFile name args
    else tryFiles args name Errno.noEntry ((Text.splitOn ':' path).drop (index.getD 0))
  let missing := [Errno.noEntry,Errno.notDirectory,Errno.tooManyLinks,Errno.nameTooLong].contains e
  modify (fun s => { s with status := if missing then 127 else 126 })
  failWith .ended (name ++ txt ": " ++ executionReason e)

/-! ### Commands about names -/

/-- Whether a word has a meaning where a command begins. -/
def isReserved (w : Raw) : Bool :=
  (["!","case","do","done","elif","else","esac","fi","for","if","in","then","until","while","\x7b","\x7d"].map
    txt).contains w

/-- An alias as it is shown. -/
def shownAlias (name value : Raw) : Raw := name ++ '=' :: singleQuoted value ++ ['\n']

/-- Tells what the name of a command stands for. -/
def describe (long : Bool) (path : Option Raw) (name : Raw) : Run Nat := do
  let s ← get
  if isReserved name then
    put (name ++ txt (if long then " is a shell keyword\n" else "\n"))
    return 0
  else match s.aliases.get? name with
    | some value =>
      put (if long then name ++ txt " is an alias for " ++ value ++ ['\n'] else txt "alias " ++ shownAlias name value)
      return 0
    | none =>
      let place := if path.isSome then none else (s.known.find? (·.1 == name)).map Prod.snd
      let isTracked := place.isSome && !name.contains '/' && (Builtin.ofName? name).isNone &&
        !s.functions.any (·.1 == name)
      let m ← if isTracked then pure (.file (place.map (·.index))) else findCommand ⟨false,path,false,true⟩ name
      let line := fun (description short : Raw) => do
        put ((if long then name ++ description else short) ++ ['\n'])
        return 0
      match m with
      | .function _ => line (txt " is a shell function") name
      | .builtin b => line (txt (if b.special then " is a special shell builtin" else " is a shell builtin")) name
      | .file index =>
        let directories := Text.splitOn ':' (path.getD (← searchPath))
        let file := match index with
          | none => name
          | some i => fileIn ((directories[i]?).getD []) name
        line (txt (if isTracked then " is a tracked alias for " else " is ") ++ file) file
      | .unknown =>
        if long then put (name ++ txt ": not found\n")
        return 127

/-- The command `type`. -/
def type (args : List Raw) : Run Nat := do
  let mut status := 0
  for a in args do
    status := status ||| (← describe true none a)
  return status

/-- The command `command`, when it only tells what a name stands for. -/
def command (args : List Raw) : Run Nat := do
  let (given,args) ← options ['p','v','V'] [] args
  let has := fun (c : Char) => given.any (·.1 == c)
  match args with
  | a :: _ => if has 'v' || has 'V' then describe (has 'V') (if has 'p' then some defaultPath else none) a else return 0
  | [] => return 0

/-- The place of a name in a table of some size, in the order of which names are shown. -/
def slot (size : Nat) (name : Raw) : Nat :=
  (((name.head?.map Char.toNat).getD 0) * 16 + (name.foldl (fun n c => n + c.toNat) 0)) % 32768 % size

/-- The command `hash`. -/
def hash (args : List Raw) : Run Nat := do
  let (given,args) ← options ['r'] [] args
  if !given.isEmpty then
    modify (fun s => { s with known := [] })
    return 0
  else if args.isEmpty then
    let directories := Text.splitOn ':' (← searchPath)
    for (name,l) in (← get).known.reverse.mergeSort (fun a b => slot 31 a.1 ≤ slot 31 b.1) do
      put (fileIn ((directories[l.index]?).getD []) name ++ (if l.stale then ['*'] else []) ++ ['\n'])
    return 0
  else
    let mut status := 0
    for a in args do
      setLocation a none
      match ← findCommand ⟨false,none,true,false⟩ a with
      | .unknown => status := 1
      | _ => pure ()
    return status

/-- The command `alias`. -/
def defineAliases (args : List Raw) : Run Nat := do
  if args.isEmpty then
    for (name,value) in (← get).aliases.mergeSort (fun a b => slot 39 a.1 ≤ slot 39 b.1) do
      put (shownAlias name value)
  let mut status := 0
  for a in args do
    match Text.splitAt? '=' (a.drop 1) with
    | some (start,value) => modify (fun s => { s with aliases := s.aliases.set (a.take 1 ++ start) value })
    | none =>
      match (← get).aliases.get? a with
      | some value => put (shownAlias a value)
      | none =>
        say 2 (txt "alias: " ++ a ++ txt " not found\n")
        status := 1
  return status

/-- The command `unalias`. -/
def unalias (args : List Raw) : Run Nat := do
  let (given,args) ← options ['a'] [] args
  if !given.isEmpty then
    modify (fun s => { s with aliases := [] })
    return 0
  else
    let mut status := 0
    for a in args do
      if ((← get).aliases.get? a).isSome then modify (fun s => { s with aliases := s.aliases.unset a })
      else
        say 2 (txt "unalias: " ++ a ++ txt " not found\n")
        status := 1
    return status

end Run
end Script
end JobShell

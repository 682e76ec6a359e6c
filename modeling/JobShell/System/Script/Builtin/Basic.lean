import JobShell.System.Script.State

/-!
# Commands of the language itself

Some commands are a part of the language. A few of them are special: an error in
one of them ends the script, and assignments before them stay. How their options
are read is the same for all.
-/
namespace JobShell
namespace Script

/-- A command of the language itself. -/
structure Builtin where
  name : Raw
  /-- An error ends the script. -/
  special : Bool
  /-- Its arguments may be assignments. -/
  assigns : Bool
  /-- It is there whatever the directories of commands hold. -/
  regular : Bool

namespace Builtin

/-- The names of the special ones. -/
def specials : List String :=
  [".",":","break","continue","eval","exec","exit","export","local","readonly","return","set","shift","times","trap",
    "unset"]

/-- The names of those whose arguments may be assignments. -/
def assigners : List String := ["alias","export","local","readonly"]

/-- The names of those that are not special. -/
def others : List String :=
  ["alias","bg","cd","chdir","command","false","fg","getopts","jobs","kill","pwd","read","true","type","umask",
    "unalias","wait"]

/-- The names of those that a program might replace. -/
def replaceable : List String := ["[","echo","hash","printf","test","ulimit"]

/-- The command of a name. -/
def ofName? (name : Raw) : Option Builtin :=
  let isIn := fun (l : List String) => l.any (txt · == name)
  if isIn specials then some ⟨name,true,isIn assigners,true⟩
  else if isIn others then some ⟨name,false,isIn assigners,true⟩
  else if isIn replaceable then some ⟨name,false,false,false⟩
  else none

end Builtin

/-- Text in single quotes; a single quote in it stands in double quotes. -/
def singleQuoted (t : Raw) : Raw := quoteFrom (t.length + 1) t
where
  /-- The text from some point on. -/
  quoteFrom : Nat → Raw → Raw
    | 0, _ => []
    | fuel+1, t =>
      let plain := t.takeWhile (· != '\x27')
      let r := t.drop plain.length
      let quotes := r.takeWhile (· == '\x27')
      let after := r.drop quotes.length
      '\x27' :: plain ++ ['\x27'] ++
        (if quotes.isEmpty then [] else '"' :: quotes ++ ['"'] ++ if after.isEmpty then [] else quoteFrom fuel after)

namespace Run

/-- The options of a word. The last one may still need a value. -/
def wordOptions (letters taking : List Char) : Raw → Run (List (Char × Option Raw))
  | [] => return []
  | c :: r => do
    if taking.contains c then return [(c,if r.isEmpty then none else some r)]
    else if letters.contains c then return (c,some []) :: (← wordOptions letters taking r)
    else fail (txt "Illegal option -" ++ [c])

/-- The options among no more than some number of arguments. -/
def optionsWithin (letters taking : List Char) : Nat → List Raw → Run (List (Char × Raw) × List Raw)
  | 0, args => return ([],args)
  | fuel+1, args => do
    match args with
    | ['-','-'] :: r => return ([],r)
    | ('-' :: c :: cs) :: r =>
      let l ← wordOptions letters taking (c :: cs)
      let known := l.filterMap (fun (c,v) => v.map (c,·))
      let (last,r) ← (match l.getLast?, r with
        | some (c,none), [] => fail (txt "No arg for -" ++ c :: txt " option")
        | some (c,none), v :: r => return ([(c,v)],r)
        | _, r => return ([],r) : Run (List (Char × Raw) × List Raw))
      let (more,rest) ← optionsWithin letters taking fuel r
      return (known ++ last ++ more,rest)
    | _ => return ([],args)

/-- The options among arguments, with their values, and the arguments after them. -/
def options (letters taking : List Char) (args : List Raw) : Run (List (Char × Raw) × List Raw) :=
  optionsWithin letters taking (args.length + 1) args

/-- The arguments after options of which there are none. -/
def operands (args : List Raw) : Run (List Raw) := do return (← options [] [] args).2

/-- The variables with a property, each after a text and with its value in quotes. -/
def showVariables (front : Raw) (isShown : Variable → Bool) : Run Unit := do
  for (name,v) in (← get).vars do
    if isShown v then
      let value := match v.value with
        | some t => '=' :: singleQuoted t
        | none => []
      put (front ++ (if front.isEmpty then [] else [' ']) ++ name ++ value ++ ['\n'])

/-- What the status of a terminal is known by. -/
def terminalIdentity : List Raw := [txt "dev",txt "tty"]

/-- Whether a descriptor is a terminal. -/
def isTerminal (fd : Nat) : Run Bool := do
  match ← ask (.statusOf fd) with
  | .ok s => return s.file.identity == terminalIdentity
  | .error _ => return false

end Run
end Script
end JobShell

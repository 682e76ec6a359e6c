import JobShell.System.Script.Builtin.Basic

/-!
# Commands for the surroundings of a script

The current directory is known by the path by which it was reached: `cd` takes
the components of paths as they are written. What files may not allow when they
are made, and how much a script may use, are numbers that are only kept.
-/
namespace JobShell
namespace Script
namespace Run

/-! ### The current directory -/

/-- A path from a directory on, with no component that stands for a directory itself or for the one above. -/
def plainPath (directory path : Raw) : Raw :=
  let doubled := (txt "//").isPrefixOf path && !(txt "///").isPrefixOf path
  let all := if path.head? = some '/' then path else directory ++ '/' :: path
  let parts := (Text.splitOn '/' all).foldl (fun (l : List Raw) part =>
    match part with
    | [] | ['.'] => l
    | ['.','.'] => l.tail
    | part => part :: l) []
  (if doubled then txt "//" else ['/']) ++ Text.join ['/'] parts.reverse

/-- Sets the path by which the current directory was reached; none when it is not known. -/
def setDirectory (reached : Option Raw) (keepsOld : Bool) : Run Unit := do
  if keepsOld then setVariable (txt "OLDPWD") (some (← get).directory) true false
  let path ← (match reached with
    | some p => return p
    | none => ask .directory : Run Raw)
  modify (fun s => { s with directory := path })
  setVariable (txt "PWD") (some path) true false

/-- Goes to a directory; whether that could be done. -/
def enter (physical : Bool) (path : Raw) : Run Bool := do
  let directory := (← get).directory
  let reached := if physical || (directory.isEmpty && path.head? ≠ some '/') then none
    else some (plainPath directory path)
  match ← ask (.enter (reached.getD path)) with
  | .error _ => return false
  | .ok () =>
    setDirectory reached true
    modify (fun s => { s with known := s.known.map (fun k => (k.1,{ k.2 with stale := true })) })
    return true

/-- Whether a path is looked for from the current directory only. -/
def isDirect (path : Raw) : Bool :=
  match path with
  | '/' :: _ | ['.'] | '.' :: '/' :: _ | ['.','.'] | '.' :: '.' :: '/' :: _ => true
  | _ => false

/-- The first directory that a path leads to from one of some directories, and whether it is not the current one. -/
def among (path : Raw) : List Raw → Run (Option (Raw × Bool))
  | [] => return none
  | d :: r => do
    let full := if d.isEmpty then path else d ++ '/' :: path
    match ← ask (.look true full) with
    | .ok s => if s.type = .directory then return some (full,!d.isEmpty) else among path r
    | .error _ => among path r

/-- Whether the last of the options about paths asks for paths without links. -/
def wantsPhysical (given : List (Char × Raw)) : Bool := (given.getLast?).any (·.1 == 'P')

/-- The command `cd`. -/
def cd (args : List Raw) : Run Nat := do
  let (given,args) ← options ['L','P'] [] args
  let physical := wantsPhysical given
  let (path,shown) ← (match args with
    | [] => return ((← value? (txt "HOME")).getD [],false)
    | ['-'] :: _ => return ((← value? (txt "OLDPWD")).getD [],true)
    | p :: _ => return (p,false) : Run (Raw × Bool))
  let finish := fun (target : Raw) (shown : Bool) => do
    if !(← enter physical target) then fail (txt "can\x27t cd to " ++ path)
    if shown then put ((← get).directory ++ ['\n'])
  if isDirect path then finish path shown
  else
    let wanted := if path.isEmpty then ['.'] else path
    let places := match ← value? (txt "CDPATH") with
      | some p => Text.splitOn ':' p
      | none => [[]]
    match ← among wanted places with
    | some (full,other) => finish full (shown || other)
    | none => finish path shown
  return 0

/-- The command `pwd`. -/
def pwd (args : List Raw) : Run Nat := do
  let (given,_) ← options ['L','P'] [] args
  let path ← (if wantsPhysical given then ask .directory else do return (← get).directory : Run Raw)
  put (path ++ ['\n'])
  return 0

/-! ### Limits -/

/-- The letters of what a user may do with files that a mask allows, for one kind of users. -/
def allowedLetters (bits : Nat) : Raw :=
  [(4,'r'),(2,'w'),(1,'x')].filterMap (fun (b,c) => if bits / b % 2 = 0 then some c else none)

/-- The three digits of a mask. -/
def maskDigits (mask : Nat) : List Nat := [mask / 64 % 8,mask / 8 % 8,mask % 8]

/-- Digits with some bits changed as a sign says. -/
def changedBits (sign : Char) (bits old : Nat) : Nat :=
  if sign = '+' then old ||| bits else if sign = '-' then old &&& (7 - bits) else bits

/-- What is allowed after the clauses of a symbolic mode, for the three kinds of users. -/
def applyClauses : List Raw → List Nat → Option (List Nat)
  | [], l => some l
  | clause :: r, l =>
    let who := clause.takeWhile ("ugoa".toList.contains ·)
    let isFor := fun (c : Char) => who.isEmpty || who.contains c || who.contains 'a'
    match clause.drop who.length with
    | sign :: letters =>
      if "+-=".toList.contains sign && letters.all ("rwx".toList.contains ·) then
        let bits := ([(4,'r'),(2,'w'),(1,'x')].filter (fun p => letters.contains p.2)).foldl (fun n p => n + p.1) 0
        let change := fun (c : Char) (old : Nat) => if isFor c then changedBits sign bits old else old
        applyClauses r (List.zipWith change ['u','g','o'] l)
      else none
    | [] => none

/-- The command `umask`. -/
def umask (args : List Raw) : Run Nat := do
  let (given,args) ← options ['S'] [] args
  let mask := (← get).mask
  match args with
  | [] =>
    if given.isEmpty then
      put (Text.join [] (['0'] :: (maskDigits mask).map Numeral.ofNat) ++ ['\n'])
    else
      let parts := List.zipWith (fun c bits => c :: '=' :: allowedLetters bits) ['u','g','o'] (maskDigits mask)
      put (Text.join [','] parts ++ ['\n'])
  | a :: _ =>
    if a.head?.any Char.isDigit then
      if !a.all (fun c => '0' ≤ c && c ≤ '7') then fail (txt "Illegal number: " ++ a)
      modify (fun s => { s with mask := a.foldl (fun n c => n * 8 + (c.toNat - 48)) 0 % 512 })
    else
      match applyClauses (Text.splitOn ',' a) ((maskDigits mask).map (7 - ·)) with
      | some l => modify (fun s => { s with mask := l.foldl (fun n bits => n * 8 + (7 - bits)) 0 })
      | none => fail (txt "Illegal mode: " ++ a)
  return 0

/-- The command `ulimit`: nothing is limited. -/
def ulimit (args : List Raw) : Run Nat := do
  let (_,args) ← options "HSatfdsclpnmvwr".toList [] args
  if args.isEmpty then put (txt "unlimited\n")
  return 0

/-- The command `times`: no time has been used. -/
def times : Run Nat := do
  put (txt "0m0.000000s 0m0.000000s\n0m0.000000s 0m0.000000s\n")
  return 0

end Run
end Script
end JobShell

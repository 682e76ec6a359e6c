import JobShell.Text.Raw

/-!
# Options of programs

Arguments of a program are options and operands. An option is a letter after a
dash, several letters standing after one, or a name after two dashes, which may
be cut short as long as it stays clear which one is meant.
-/
namespace JobShell

/-- Whether an option has a value. -/
inductive Valued where
  | never
  /-- A value may follow in the same argument. -/
  | perhaps
  | always
  deriving DecidableEq, Repr

/-- A name of an option, and the letter that it stands for. -/
structure OptionName where
  name : Raw
  valued : Valued
  letter : Char
  deriving Repr

namespace OptionName

/-- A name without a value. -/
def flag (name : String) (letter : Char) : OptionName := ⟨txt name,.never,letter⟩

/-- A name with a value. -/
def setting (name : String) (letter : Char) : OptionName := ⟨txt name,.always,letter⟩

/-- A name that may have a value. -/
def choice (name : String) (letter : Char) : OptionName := ⟨txt name,.perhaps,letter⟩

end OptionName

/-- The options that a program knows: letters, and names with the letters that they stand for. -/
structure OptionTable where
  letters : List (Char × Valued)
  names : List OptionName
  /-- Options end at the first operand. -/
  inOrder : Bool

/-- An argument as a program understands it. -/
inductive Argument where
  | option (letter : Char) (value : Option Raw)
  | operand (r : Raw)
  /-- What cannot be understood, with the letter that it stands for if there is one, and what is said about it.
      No arguments after it are looked at. -/
  | wrong (letter : Option Char) (complaint : Raw)
  deriving Repr

namespace OptionTable

/-- A table of letters without values. -/
def flags (s : String) : List (Char × Valued) := s.toList.map (·,.never)

/-- Letters with values. -/
def valued (s : String) : List (Char × Valued) := s.toList.map (·,.always)

/-- The names that a name may be the beginning of; a whole name is no beginning of others. -/
def candidates (t : OptionTable) (name : Raw) : List OptionName :=
  match t.names.find? (·.name == name) with
  | some n => [n]
  | none => t.names.filter (fun n => name.isPrefixOf n.name)

/-- Quotes around text. -/
def quoted (r : Raw) : Raw := '\'' :: r ++ ['\'']

/-- An option by its name, given the arguments after it: what it is, and the arguments that are left. Names that
    mean the same are not told apart. -/
def readName (t : OptionTable) (body : Raw) (r : List Raw) : Argument × List Raw :=
  let name := body.takeWhile (· != '=')
  let value := if name.length < body.length then some (body.drop (name.length + 1)) else none
  let named := fun (n : Raw) => quoted (txt "--" ++ n)
  match t.candidates name with
  | [] => (.wrong none (txt "unrecognized option " ++ named body),[])
  | found :: others =>
    if others.any (fun o => o.letter != found.letter || o.valued != found.valued) then
      (.wrong none (txt "option " ++ named body ++ txt " is ambiguous; possibilities:" ++
        (found :: others).flatMap (fun o => ' ' :: named o.name)),[])
    else match found.valued, value, r with
      | .never, some _, _ => (.wrong (some found.letter) (txt "option " ++ named found.name ++ txt " doesn\x27t allow an argument"),[])
      | .always, none, v :: r => (.option found.letter (some v),r)
      | .always, none, [] => (.wrong (some found.letter) (txt "option " ++ named found.name ++ txt " requires an argument"),[])
      | _, value, r => (.option found.letter value,r)

/-- The options of letters after one dash, given the arguments after them. -/
def readLetters (t : OptionTable) : Raw → List Raw → List Argument × List Raw
  | [], r => ([],r)
  | c :: rest, r =>
    match (t.letters.find? (·.1 == c)).map Prod.snd with
    | none => ([.wrong (some c) (txt "invalid option -- " ++ quoted [c])],[])
    | some .never => let more := readLetters t rest r; (.option c none :: more.1,more.2)
    | some .perhaps => ([.option c (if rest.isEmpty then none else some rest)],r)
    | some .always =>
      if !rest.isEmpty then ([.option c (some rest)],r)
      else match r with
        | v :: r => ([.option c (some v)],r)
        | [] => ([.wrong (some c) (txt "option requires an argument -- " ++ quoted [c])],[])

/-- What the arguments mean to a program, one list for each of them, in their order. -/
def meanings (t : OptionTable) : Nat → List Raw → List (List Argument)
  | 0, _ => []
  | _+1, [] => []
  | fuel+1, arg :: r =>
    match arg with
    | ['-','-'] => [r.map .operand]
    | '-' :: '-' :: body => let more := t.readName body r; [more.1] :: meanings t fuel more.2
    | '-' :: c :: letters => let more := t.readLetters (c :: letters) r; more.1 :: meanings t fuel more.2
    | _ => [.operand arg] :: if t.inOrder then [r.map .operand] else meanings t fuel r

/-- The arguments as a program understands them, those of each argument together. -/
def readEach (t : OptionTable) (args : List Raw) : List (List Argument) := t.meanings (args.length + 1) args

/-- The arguments as a program understands them. -/
def read (t : OptionTable) (args : List Raw) : List Argument := (t.readEach args).flatten

end OptionTable

namespace Argument

/-- The operands. -/
def operands (l : List Argument) : List Raw :=
  l.filterMap fun
    | .operand r => some r
    | _ => none

/-- Whether there is an option. -/
def has (letter : Char) (l : List Argument) : Bool :=
  l.any fun
    | .option c _ => c == letter
    | _ => false

/-- What is said about the argument that cannot be understood. -/
def complaint? (l : List Argument) : Option Raw :=
  l.findSome? fun
    | .wrong _ t => some t
    | _ => none

end Argument
end JobShell

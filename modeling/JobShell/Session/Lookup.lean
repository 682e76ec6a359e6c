import JobShell.Session.State

/-!
# Looking up commands

The file that a command runs: the path itself when the name of the command has a
slash, and the first executable file of that name in the search path otherwise.
A file that may not be executed is a reason to refuse, but only when no later
directory has an executable one.
-/
namespace JobShell

/-- Why a command is not run. -/
inductive CommandError where
  | notFound (name : Text)
  | notRunnable (name : Text)
  /-- There is no file to read from. -/
  | noFile (path : Text)
  /-- A process could not be started. -/
  | notStarted (e : Errno) (name : Text)
  /-- A file of a redirection could not be opened. -/
  | notOpened (path : Text) (e : SystemError)
  deriving DecidableEq, Repr

namespace CommandError

/-- What the user is told. -/
def message : CommandError → Text
  | .notFound name => name ++ txt ": command not found"
  | .notRunnable name => name ++ txt ": Permission denied"
  | .noFile path => path ++ txt ": No such file or directory"
  | .notStarted e name => name ++ txt ": " ++ e.message
  | .notOpened path e => path ++ txt ": " ++ e.message

/-- The status of a command that is not run. -/
def status : CommandError → Int
  | .notFound _ => 127
  | .notRunnable _ => 126
  | .noFile _ | .notOpened _ _ => 1
  | .notStarted e _ => if e = Errno.noEntry then 127 else 126

end CommandError

namespace Lookup

/-- The directories of a search path; an empty one stands for the current directory. -/
def directories (path : Text) : List Text :=
  (Text.splitOn ':' path).map (fun d => if d.isEmpty then ['.'] else d)

/-- The first of the files that may be executed. `denied` tells whether one that may not be was passed. -/
def firstRunnable (kindOf : Text → Option FileKind) (name : Text) (denied : Bool) :
    List Text → Except CommandError Text
  | [] => .error (if denied then .notRunnable name else .notFound name)
  | file :: r =>
    match kindOf file with
    | some (.regular true) => .ok file
    | some (.regular false) => firstRunnable kindOf name true r
    | _ => firstRunnable kindOf name denied r

/-- The file that a command runs, given a search path. -/
def file (kindOf : Text → Option FileKind) (path name : Text) : Except CommandError Text :=
  if name.contains '/' then
    match kindOf name with
    | none => .error (.notFound name)
    | some (.regular true) => .ok name
    | some _ => .error (.notRunnable name)
  else if name.isEmpty then .error (.notFound name)
  else firstRunnable kindOf name false ((directories path).map (fun d => FileSystem.inside d name))

end Lookup

section
variable {σ : Type} [Kernel σ]

/-- The file that a command runs. -/
def Lookup.command (s : σ) (name : Text) : Except CommandError Text :=
  Lookup.file (fun path => (Kernel.kindOf s path).toOption)
    (((Kernel.environment s).get? (txt "PATH")).getD []) name

/-- The user is told why a command is not run. -/
def Act.refuse (e : CommandError) : Act σ Int := do
  Act.complain e.message
  Act.log .debug (txt "not run: " ++ e.message)
  return e.status

end
end JobShell

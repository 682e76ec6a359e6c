import JobShell.Session.State

/-!
# The prompt

The prompt shows the last status unless it is zero, the number of jobs unless
there are none, and the current directory, in which the home directory is
written as a tilde.
-/
namespace JobShell
namespace Prompt

/-- A directory with its home written as a tilde. The root is no home to be shortened. -/
def shortened (home : Option Text) (directory : Text) : Text :=
  match home with
  | none => directory
  | some home =>
    if home.isEmpty || home = ['/'] then directory
    else if directory = home then ['~']
    else if home.isPrefixOf directory && (directory.drop home.length).head? = some '/' then
      '~' :: directory.drop home.length
    else directory

/-- The prompt. -/
def text (home : Option Text) (status : Int) (jobs : Nat) (directory : Text) : Text :=
  (if status = 0 then [] else '[' :: Numeral.ofInt status ++ txt "] ") ++
    (if jobs = 0 then [] else Numeral.ofNat jobs ++ txt "j ") ++
    shortened home directory ++ txt " kaze$ "

/-- The prompt of a shell. -/
def ofSession {σ : Type} [Kernel σ] (s : Session σ) : Text :=
  text ((Kernel.environment s.system).get? (txt "HOME")) s.shell.lastStatus s.shell.jobs.length s.shell.directory

end Prompt
end JobShell

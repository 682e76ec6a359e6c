import JobShell.System.Program.Copying
import JobShell.System.Program.Counts
import JobShell.System.Program.Ends
import JobShell.System.Program.Exchange
import JobShell.System.Program.Printing
import JobShell.System.Program.Runs
import JobShell.System.Program.Sending
import JobShell.System.Program.Simple
import JobShell.System.Program.Sorting
import JobShell.System.Script.Invocation
import JobShell.System.Search.Grep

/-!
# The programs of the system

Each program has a name, by which the files of the system refer to it.
-/
namespace JobShell
namespace Program

/-- The program that only ends. -/
def ending (code : Nat) : Program := .exit code

/-- The programs that only work on their arguments and their input: their names, what they end with when something
    cannot be written, and what they do. -/
def tools : List (String × Nat × (List Raw → Routine Nat)) :=
  [("cat",1,Copying.cat),("echo",1,Printing.echo),("grep",2,Search.grep),("head",1,Ends.head),("kill",1,Sending.kill),
    ("printf",1,Printing.printf),("sleep",1,Simple.sleep),("sort",2,Sorting.sort),("tail",1,Ends.tail),
    ("touch",1,Simple.touch),("tr",1,Exchange.tr),("uniq",1,Runs.uniq),("wc",1,Counts.wc),("yes",1,Simple.yes)]

/-- The program of a name, given its arguments, the first of which is what it is called by, and its environment. -/
def ofName (name : Text) (args : List Raw) (environment : Bindings) : Program :=
  let called := args.head?.getD []
  match tools.find? (fun t => txt t.1 == name) with
  | some (_,failure,tool) => (tool args.tail).toProgram called failure
  | none =>
    if name = txt "sh" then Script.program args environment
    else ending (if name = txt "true" then 0 else if name = txt "false" then 1 else 127)

end Program
end JobShell

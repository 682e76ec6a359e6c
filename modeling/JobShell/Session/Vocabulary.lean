import JobShell.Line.Completion
import JobShell.Session.State

/-!
# What a session offers for completion

The commands and files that completion looks at, as the operating system has
them now.
-/
namespace JobShell

section
variable {σ : Type} [Kernel σ]

/-- Whether a path leads to a regular file that may be executed. -/
def Kernel.isRunnable (s : σ) (path : Text) : Bool :=
  match Kernel.kindOf s path with
  | .ok (.regular runnable) => runnable
  | _ => false

/-- The executable files in a directory. -/
def Kernel.executables (s : σ) (directory : Text) : List Text :=
  match Kernel.namesIn s directory with
  | .ok names => names.filter (fun name => Kernel.isRunnable s (FileSystem.inside directory name))
  | .error _ => []

/-- The names in a directory, and whether each is that of a directory. -/
def Kernel.listing (s : σ) (directory : Text) : List (Text × Bool) :=
  match Kernel.namesIn s directory with
  | .ok names => names.map fun name =>
      (name,match Kernel.kindOf s (FileSystem.inside directory name) with
        | .ok .directory => true
        | _ => false)
  | .error _ => []

/-- The search path of the process. -/
def Kernel.searchPath (s : σ) : Text := ((Kernel.environment s).get? (txt "PATH")).getD []

/-- The executable files of the search path, read again when it is another one. The second component
    tells whether they were. -/
def PathCache.renewed (c : PathCache) (s : σ) : PathCache × Bool :=
  (c.refresh (Kernel.searchPath s) (Kernel.executables s),c.path != some (Kernel.searchPath s))

/-- What can be completed with the aliases of a shell. -/
def Vocabulary.renewed (v : Vocabulary) (aliases : Bindings) (s : σ) : Vocabulary × Bool :=
  (⟨(v.path.renewed s).1,aliases.names⟩,(v.path.renewed s).2)

/-- What completion looks at. -/
def Vocabulary.outlook (v : Vocabulary) (status : Int) (s : σ) : Outlook :=
  ⟨v,Kernel.listing s,⟨status,(Kernel.environment s).get?,Kernel.homeOf s⟩⟩

/-- Reads the vocabulary anew, which is noted in the log when the search path was read. -/
def Act.refresh (v : Vocabulary) : Act σ Vocabulary := do
  let s ← get
  let (v,changed) := v.renewed s.shell.aliases s.system
  if changed then Act.log .debug (txt "search path read: " ++ Numeral.ofNat v.path.commands.length ++ txt " commands")
  return v

end
end JobShell

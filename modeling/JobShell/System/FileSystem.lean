import JobShell.System.Errno
import JobShell.Text.Raw

/-!
# The file system

Files stand in a tree of directories. A place in the tree is the list of names
that lead to it from the root; a path is resolved to a place, from the root or
from a current directory, with links followed. Names are bytes, which need not be
the bytes of any text.
-/
namespace JobShell

/-- The names that lead from the root to a place. -/
abbrev Place := List Raw

/-- What stands at a place. -/
inductive Node where
  | directory
  /-- A file with its content; `runnable` when it may be executed. -/
  | file (runnable : Bool) (content : Bytes)
  /-- A link to the path. -/
  | link (target : Raw)
  /-- An executable file of the system, which runs the program of that name. -/
  | program (name : Text)
  /-- The device that takes everything and holds nothing. -/
  | sink
  /-- A device that holds nothing but zeros. It takes everything, or nothing for want of space. -/
  | zeros (takes : Bool)
  /-- The terminal of the process that asks. -/
  | terminal
  /-- What the process that asks has open as a descriptor. -/
  | descriptor (fd : Nat)
  deriving DecidableEq, Repr

/-- What a path leads to. -/
inductive FileKind where
  | directory
  | regular (runnable : Bool)
  | device
  deriving DecidableEq, Repr

/-- The kind of what stands at a place. -/
def Node.kind : Node → FileKind
  | .directory => .directory
  | .file runnable _ => .regular runnable
  | .program _ => .regular true
  | .link _ | .sink | .zeros _ | .terminal | .descriptor _ => .device

/-- The bytes that a program of the system is made of, as far as anybody looks at them. -/
def programContent : Bytes :=
  [0x7f,0x45,0x4c,0x46,2,1,1,0,0,0,0,0,0,0,0,0,3,0,0x3e,0,1,0,0,0,0xf0,0x2b,0,0,0,0,0,0,0x40,0,0,0,0,0,0,0]

/-- The content of what stands at a place. -/
def Node.content : Node → Bytes
  | .file _ content => content
  | .program _ => programContent
  | _ => []

/-- The places that are in use. -/
structure FileSystem where
  nodes : List (Place × Node)

namespace FileSystem

/-- What stands at a place. The root is a directory. -/
def node? (fs : FileSystem) (p : Place) : Option Node :=
  if p.isEmpty then some .directory else (fs.nodes.find? (·.1 == p)).map Prod.snd

/-- The file system with something else at a place. -/
def put (fs : FileSystem) (p : Place) (n : Node) : FileSystem :=
  if fs.nodes.any (·.1 == p) then
    ⟨fs.nodes.map (fun q => if q.1 == p then (p,n) else q)⟩
  else ⟨fs.nodes ++ [(p,n)]⟩

/-- The names in the directory at a place. -/
def names (fs : FileSystem) (p : Place) : List Raw :=
  fs.nodes.filterMap fun q =>
    if q.1.dropLast == p then q.1.getLast? else none

/-- The names of a path. Empty names lead nowhere else. -/
def steps (path : Raw) : List Raw := (Text.splitOn '/' path).filter (!·.isEmpty)

/-- Whether a path ends with a slash. What it leads to must then be a directory. -/
def endsInSlash (path : Raw) : Bool := path.getLast? = some '/'

/-- Where a path leads: to something, or to a name that is free in a directory. -/
inductive Target where
  | found (p : Place) (n : Node)
  | free (p : Place)
  deriving DecidableEq, Repr

/-- Goes on from a place along names, the last of which stands before a slash when `slash`; `links` more links
    are followed, and `fuel` bounds the number of steps. A name before a slash cannot be made a file, so this
    way leads nowhere when one is to be made. -/
def walk (fs : FileSystem) (making : Bool) : Nat → Nat → Place → List Raw → Bool → Except Errno Target
  | 0, _, _, _, _ => .error Errno.tooManyLinks
  | _+1, _, here, [], _ =>
    match fs.node? here with
    | some n => .ok (.found here n)
    | none => .error Errno.noEntry
  | fuel+1, links, here, name :: rest, slash =>
    if name == ['.'] then walk fs making fuel links here rest slash
    else if name == ['.','.'] then walk fs making fuel links here.dropLast rest slash
    else if making && rest.isEmpty && slash then .error Errno.isDirectory
    else if name.length > 255 then .error Errno.nameTooLong
    else
      match fs.node? (here ++ [name]) with
      | none => if rest.isEmpty then .ok (.free (here ++ [name])) else .error Errno.noEntry
      | some (.link target) =>
        match links with
        | 0 => .error Errno.tooManyLinks
        | l+1 =>
          if target.isEmpty then .error Errno.noEntry
          else walk fs making fuel l (if target.head? = some '/' then [] else here) (steps target ++ rest)
            (slash || (rest.isEmpty && endsInSlash target))
      | some .directory => walk fs making fuel links (here ++ [name]) rest slash
      | some n =>
        if rest.isEmpty && !slash then .ok (.found (here ++ [name]) n) else .error Errno.notDirectory

/-- The number of steps that any path may take. -/
def walkLimit : Nat := 4200

/-- The number of links that any path may follow. -/
def linkLimit : Nat := 40

/-- How long no path may be. -/
def pathLimit : Nat := 4096

/-- Where a path leads from a current directory, when something is made there or not. -/
def locate (fs : FileSystem) (making : Bool) (here : Place) (path : Raw) : Except Errno Target :=
  if path.isEmpty then .error Errno.noEntry
  else if path.length ≥ pathLimit then .error Errno.nameTooLong
  else fs.walk making walkLimit linkLimit (if path.head? = some '/' then [] else here) (steps path) (endsInSlash path)

/-- What a path leads to. -/
def find (fs : FileSystem) (here : Place) (path : Raw) : Except Errno (Place × Node) :=
  match fs.locate false here path with
  | .error e => .error e
  | .ok (.found p n) => .ok (p,n)
  | .ok (.free _) => .error Errno.noEntry

/-- What stands at a path, a link not being followed unless a slash comes after it. -/
def findItself (fs : FileSystem) (here : Place) (path : Raw) : Except Errno (Place × Node) :=
  let last := (path.reverse.takeWhile (· != '/')).reverse
  if last.isEmpty || last == ['.'] || last == ['.','.'] then fs.find here path
  else
    let front := path.take (path.length - last.length)
    match fs.find here (if front.isEmpty then ['.'] else front) with
    | .error e => .error e
    | .ok (p,.directory) =>
      match fs.node? (p ++ [last]) with
      | some (.link target) => .ok (p ++ [last],.link target)
      | _ => fs.find here path
    | .ok _ => .error Errno.notDirectory

/-- The content of what a path leads to. A directory has none. -/
def read (fs : FileSystem) (here : Place) (path : Raw) : Except Errno Bytes :=
  match fs.find here path with
  | .error e => .error e
  | .ok (_,.directory) => .error Errno.isDirectory
  | .ok (_,n) => .ok n.content

/-- The place of the file that is written by a path; an empty file is made when there is none. -/
def create (fs : FileSystem) (here : Place) (path : Raw) : Except Errno (Place × FileSystem) :=
  match fs.locate true here path with
  | .error e => .error e
  | .ok (.found _ .directory) => .error Errno.isDirectory
  | .ok (.found p _) => .ok (p,fs)
  | .ok (.free p) => .ok (p,fs.put p (.file false []))

/-- The file system with the content of a file changed. -/
def modify (fs : FileSystem) (p : Place) (f : Bytes → Bytes) : FileSystem :=
  match fs.node? p with
  | some (.file runnable content) => fs.put p (.file runnable (f content))
  | _ => fs

/-- The file system with a directory at a place and at all places that lead to it, where these are free. -/
def makeDirectories (fs : FileSystem) (p : Place) : FileSystem :=
  (List.range p.length).foldl
    (fun fs i =>
      let q := p.take (i+1)
      if (fs.node? q).isNone then fs.put q .directory else fs) fs

/-- Makes the directories along names that are missing, from a directory on, up to the first name at which there can
    be none. A link is never made a directory, also when it leads to nothing. -/
def createAlong (fs : FileSystem) (here : Place) : List Raw → FileSystem
  | [] => fs
  | name :: rest =>
    match fs.walk false walkLimit linkLimit here [name] false with
    | .ok (.found p .directory) => createAlong fs p rest
    | .ok (.free p) => if p = here ++ [name] then createAlong (fs.put p .directory) p rest else fs
    | _ => fs

/-- Makes the directories of a path that are missing. -/
def createDirectories (fs : FileSystem) (here : Place) (path : Raw) : FileSystem :=
  if path.length ≥ pathLimit then fs
  else fs.createAlong (if path.head? = some '/' then [] else here) (steps path)

/-- Puts something at a path, after the directories that lead to it. A file is put where a link at the path leads to. -/
def install (fs : FileSystem) (here : Place) (path : Raw) (n : Node) : FileSystem :=
  let names := steps path
  let fs := fs.createAlong here names.dropLast
  match n with
  | .directory => fs.createAlong here names
  | .file _ _ =>
    match fs.locate true here path with
    | .ok (.found p (.file _ _)) | .ok (.free p) => fs.put p n
    | _ => fs
  | _ =>
    match fs.walk false walkLimit linkLimit here names.dropLast false, names.getLast? with
    | .ok (.found p .directory), some name => fs.put (p ++ [name]) n
    | _, _ => fs

/-- A place as an absolute path. -/
def pathOf (p : Place) : Raw := if p.isEmpty then ['/'] else p.flatMap ('/' :: ·)

/-- A name below a directory. -/
def inside (directory name : Text) : Text :=
  if name.head? = some '/' then name
  else if directory.isEmpty then name
  else if directory.getLast? = some '/' then directory ++ name else directory ++ '/' :: name

/-- A path without its last name. -/
def parent (path : Text) : Text :=
  let front := Text.dropEndWhile (· != '/') (Text.dropEndWhile (· == '/') path)
  let trimmed := Text.dropEndWhile (· == '/') front
  if trimmed.isEmpty && !front.isEmpty then ['/'] else trimmed

/-- Everything below a place, each directory before what it holds and marked with a slash. -/
def tree (fs : FileSystem) : Nat → Place → Raw → List Raw
  | 0, _, _ => []
  | depth+1, p, shown =>
    ((fs.names p).mergeSort Text.atMost).flatMap fun name =>
      match fs.node? (p ++ [name]) with
      | some .directory => (shown ++ name ++ ['/']) :: tree fs depth (p ++ [name]) (shown ++ name ++ ['/'])
      | _ => [shown ++ name]

end FileSystem
end JobShell

import JobShell.System.Machine.Basic

/-!
# Reading, writing and opening

What comes of reading from a description and of writing to one, and how a
description comes from a path. Reading from an empty pipe and writing into a
full one have to wait as long as somebody holds the other end.
-/
namespace JobShell
namespace Machine

/-- What reading ends with. -/
inductive ReadResult where
  | data (b : Bytes) (m : Machine)
  | atEnd
  /-- There is nothing yet. -/
  | wait
  | failed (e : Errno)

/-- Reads at most `limit` bytes. -/
def read (m : Machine) (d : DescriptionId) (limit : Nat) : ReadResult :=
  match m.description? d with
  | some (.file place position append readable writable) =>
    if readable then
      let content := ((m.files.node? place).map Node.content).getD []
      let b := (content.drop position).take limit
      if b.isEmpty then .atEnd
      else .data b { m with descriptions := m.descriptions.set! d
                              (.file place (position + b.length) append readable writable) }
    else .failed Errno.badDescriptor
  | some (.directory _) => .failed Errno.isDirectory
  | some (.sink readable _) => if readable then .atEnd else .failed Errno.badDescriptor
  | some (.zeros _ readable _) => if readable then .data (List.replicate limit 0) m else .failed Errno.badDescriptor
  | some (.pipeReader n) =>
    let b := (m.pipes[n]?).getD []
    if b.isEmpty then (if m.hasEnd (.pipeWriter n) then .wait else .atEnd)
    else .data (b.take limit) { m with pipes := m.pipes.set! n (b.drop limit) }
  | some .terminal => .atEnd
  | some (.pipeWriter _) | some (.keeper _) | none => .failed Errno.badDescriptor

/-- How many bytes a pipe holds. -/
def pipeCapacity : Nat := 65536

/-- What writing ends with. -/
inductive WriteResult where
  /-- Some bytes were written, and these are left. -/
  | written (left : Bytes) (m : Machine)
  /-- There is no space yet. -/
  | wait
  | failed (e : Errno)

/-- Content with bytes written at a position, zeros filling what is missing. -/
def overwrite (content : Bytes) (position : Nat) (b : Bytes) : Bytes :=
  content.take position ++ List.replicate (position - content.length) 0 ++ b ++ content.drop (position + b.length)

/-- Writes bytes. -/
def write (m : Machine) (d : DescriptionId) (b : Bytes) : WriteResult :=
  match m.description? d with
  | some (.file place position append readable writable) =>
    if writable then
      let position := if append then
          (match m.files.node? place with
          | some (.file _ content) => content.length
          | _ => position) else position
      let files := m.files.modify place (fun content => overwrite content position b)
      .written [] { m with
        files := files
        descriptions := m.descriptions.set! d (.file place (position + b.length) append readable writable) }
    else .failed Errno.badDescriptor
  | some (.sink _ writable) => if writable then .written [] m else .failed Errno.badDescriptor
  | some (.zeros takes _ writable) =>
    if !writable then .failed Errno.badDescriptor
    else if takes || b.isEmpty then .written [] m
    else .failed Errno.noSpace
  | some (.keeper n) => .written [] (m.keep n b)
  | some (.pipeWriter n) =>
    if b.isEmpty then .written [] m
    else if m.hasEnd (.pipeReader n) then
      let seen := (m.pipes[n]?).getD []
      let space := pipeCapacity - seen.length
      if space = 0 then .wait
      else .written (b.drop space) { m with pipes := m.pipes.set! n (seen ++ b.take space) }
    else .failed Errno.brokenPipe
  | some .terminal => .written [] (m.keep 0 b)
  | some (.directory _) | some (.pipeReader _) | none => .failed Errno.badDescriptor

/-- The description of a node that is opened. A node that stands for a descriptor leads to what the process has
    open there: a file is opened anew. -/
def describeNode (m : Machine) (p : Process) (place : Place) (n : Node) (append readable writable : Bool) :
    Except Errno Description :=
  match n with
  | .directory => .ok (.directory place)
  | .file _ _ | .program _ | .link _ => .ok (.file place 0 append readable writable)
  | .sink => .ok (.sink readable writable)
  | .zeros takes => .ok (.zeros takes readable writable)
  | .terminal => if m.hasTerminal then .ok .terminal else .error Errno.noDevice
  | .descriptor fd =>
    match (p.description? fd).bind m.description? with
    | none => .error Errno.noEntry
    | some (.file place _ _ _ _) => .ok (.file place 0 append readable writable)
    | some (.sink _ _) => .ok (.sink readable writable)
    | some (.zeros takes _ _) => .ok (.zeros takes readable writable)
    | some (.pipeReader k) | some (.pipeWriter k) => .ok (if readable then .pipeReader k else .pipeWriter k)
    | some d => .ok d

/-- Opens a path for a process. A file that is written is made when it is missing and `make` is set; all of its
    content goes when `cut` is set. -/
def openAs (m : Machine) (p : Process) (path : Raw) (make cut append readable writable : Bool) :
    Except Errno (DescriptionId × Machine) := do
  let located ← m.files.locate make p.here path
  let (place,m) ← match located with
    | .found place .directory => if writable then .error Errno.isDirectory else .ok (place,m)
    | .found place _ => .ok (place,m)
    | .free place =>
      if make then .ok (place,{ m with files := m.files.put place (.file false []) }) else .error Errno.noEntry
  let d ← m.describeNode p place ((m.files.node? place).getD .sink) append readable writable
  let m := match d with
    | .file place _ _ _ _ => if cut then { m with files := m.files.modify place (fun _ => []) } else m
    | _ => m
  return m.describe d

/-- Opens a path as a program asks for it. -/
def openFor (m : Machine) (p : Process) (access : Access) (path : Raw) : Except Errno (DescriptionId × Machine) :=
  match access with
  | .read => m.openAs p path false false false true false
  | .write => m.openAs p path true true false false true
  | .append => m.openAs p path true false true false true
  | .update => m.openAs p path true false false true true
  | .overwrite => m.openAs p path false false false false true

/-- What can be told of a node. -/
def statusOfNode (place : Place) (n : Node) : FileStatus :=
  match n with
  | .directory => ⟨.directory,true,4096,place⟩
  | .file runnable content => ⟨.regular,runnable,content.length,place⟩
  | .program _ => ⟨.regular,true,n.content.length,place⟩
  | .link target => ⟨.link,true,target.length,place⟩
  | .sink | .zeros _ | .terminal | .descriptor _ => ⟨.device,false,0,place⟩

/-- What can be told of a description. -/
def statusOfDescription (m : Machine) (d : DescriptionId) : Except Errno OpenStatus :=
  match m.description? d with
  | none => .error Errno.badDescriptor
  | some (.file place position append _ _) =>
    .ok ⟨statusOfNode place ((m.files.node? place).getD (.file false [])),some position,append⟩
  | some (.directory place) => .ok ⟨statusOfNode place .directory,some 0,false⟩
  | some (.sink _ _) => .ok ⟨⟨.device,false,0,[txt "dev",txt "null"]⟩,some 0,false⟩
  | some (.zeros takes _ _) => .ok ⟨⟨.device,false,0,[txt "dev",txt (if takes then "zero" else "full")]⟩,some 0,false⟩
  | some (.pipeReader n) | some (.pipeWriter n) => .ok ⟨⟨.pipe,false,0,[Numeral.ofNat n]⟩,none,false⟩
  | some (.keeper n) => .ok ⟨⟨.pipe,false,0,[txt "kept",Numeral.ofNat n]⟩,none,false⟩
  | some .terminal => .ok ⟨⟨.device,false,0,[txt "dev",txt "tty"]⟩,none,false⟩

end Machine
end JobShell

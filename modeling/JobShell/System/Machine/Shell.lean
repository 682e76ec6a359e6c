import JobShell.Settings.LogLevel
import JobShell.System.Machine.Schedule

/-!
# A machine under a shell

What a shell asks of its operating system, done by a machine. One process of the
machine is that of the shell; what the shell does by itself is done at once, and
the other processes go on while it waits.
-/
namespace JobShell
namespace Machine

/-- A path as the operating system takes it, unless it holds the character that ends names. -/
def rawPath (path : Text) : Except SystemError Raw :=
  if path.contains '\x00' then .error .nameWithNul else .ok (Raw.ofText path)

/-- What an error of the operating system is for the shell. -/
def lift {α : Type} : Except Errno α → Except SystemError α
  | .ok a => .ok a
  | .error e => .error (.os e)

/-- The process of the shell, unless it has ended. A shell that has ended does nothing any more. -/
def shell? (m : Machine) : Option Process := (m.process? m.current).filter (!·.hasEnded)

/-- The children of the shell in a group. -/
def childrenIn (m : Machine) (group : Pid) : List Process :=
  m.processes.filter (fun p => p.parent == m.current && p.group == group)

/-- The news of a process that is waited for. With `all` an end of a stop is news. -/
def news? (p : Process) (all : Bool) : Option WaitStatus :=
  match p.state with
  | .ended status => some status
  | _ => p.news.filter (fun raw => all || WaitStatus.isStopped raw)

/-- The first news of a group. -/
def firstNews? (m : Machine) (group : Pid) (all : Bool) : Option (Pid × WaitStatus) :=
  (m.childrenIn group).findSome? (fun p => (news? p all).map (fun raw => (p.pid,raw)))

/-- The machine after the shell was told the news of a process. -/
def told (m : Machine) (pid : Pid) : Machine :=
  match m.process? pid with
  | some p => if p.hasEnded then m.forget pid else m.update pid (fun p => { p with news := none })
  | none => m

/-- Waits for news of a group. -/
def waitGroup (group : Pid) (m : Machine) : Waited × Machine :=
  match m.budget with
  | 0 => (.noChild,m)
  | budget+1 =>
    let ran := { m with interrupted := false }.waitFor
      (fun m => m.interrupted || (m.childrenIn group).isEmpty || (m.firstNews? group false).isSome)
    match ran.firstNews? group false with
    | some (pid,raw) => (.changed pid raw,{ ran.told pid with budget := budget })
    | none =>
      if ran.interrupted then (.interrupted,{ ran with budget := budget, interrupted := false })
      else (.noChild,{ ran with budget := budget + 1 })

/-- News of a group, without waiting. -/
def poll (group : Pid) (m : Machine) : Option (Pid × WaitStatus) × Machine :=
  match m.budget with
  | 0 => (none,m)
  | budget+1 =>
    match m.firstNews? group true with
    | some (pid,raw) => (some (pid,raw),{ m.told pid with budget := budget })
    | none => (none,m)

/-- Waits for the end of a process. A signal to the shell does not end the waiting. -/
def waitProcess (pid : Pid) (m : Machine) : Waited × Machine :=
  let ran := m.waitFor (fun m => (m.process? pid).all (·.hasEnded) || m.shell?.isNone)
  match ran.process? pid with
  | some p =>
    match p.state with
    | .ended status => (.changed pid status,ran.forget pid)
    | _ => (.noChild,ran)
  | none => (.noChild,ran)

/-- A copy of the process of the shell, which becomes the shell until it ends. What it writes may be kept. -/
def copyShell (m : Machine) (p : Process) (group : Pid) (descriptors : List (Nat × DescriptionId))
    (output : Option DescriptionId) : Pid × Machine :=
  let c := m.child p group descriptors .shell
  (c.pid,{ m.add c with current := c.pid, callers := ⟨p.pid,output⟩ :: m.callers, clock := m.clock + launchTime })

/-- How long it takes until a copy of a shell whose output is kept has ended. -/
def endTime : Nat := 600

/-- The copy ends with a status some time later, once it has written everything, unless it has ended already. -/
def endCopy (delay : Nat) (status : Int) (m : Machine) : Machine :=
  let m := m.update m.current fun p =>
    { p with task := .program (.exit (status % 256).toNat), ready := m.clock + delay }
  match m.callers with
  | caller :: callers => { m with current := caller.pid, callers := callers }
  | [] => m

/-- The output of a copy is what was kept of it, once nobody can write more. -/
def endCapture (status : Int) (m : Machine) : Bytes × Machine :=
  match m.callers.head?.bind (·.output) with
  | none => ([],m.endCopy 0 status)
  | some d =>
    let copy := m.current
    let m := (m.endCopy endTime status).waitFor (fun m => !m.isHeld d || m.shell?.isNone)
    let output := match m.description? d with
      | some (.keeper n) => m.keptBy n
      | _ => []
    (output,(waitProcess copy m).2)

/-- Writes for the shell to a description. What goes into a pipe is written when the pipe takes it. -/
def writeTo (m : Machine) (p : Process) (d : DescriptionId) (b : Bytes) : Except Errno Machine :=
  if b.isEmpty then .ok m
  else match m.description? d with
    | some (.pipeWriter _) => .ok (m.update p.pid (fun p => { p with pending := p.pending ++ [(d,b)] }))
    | _ =>
      match m.write d b with
      | .written _ m => .ok m
      | .wait => .ok m
      | .failed e => .error e

/-- Writes for the shell to a descriptor. What is written is lost when the descriptor is not open for writing. -/
def writeStandard (m : Machine) (p : Process) (fd : Nat) (b : Bytes) : Except Errno Machine :=
  match p.description? fd with
  | none => .ok m
  | some d =>
    match m.writeTo p d b with
    | .ok m => .ok m
    | .error e => if e = Errno.badDescriptor then .ok m else .error e

/-- Writes for the shell. -/
def writeShell (c : Channel) (b : Bytes) (m : Machine) : Except SystemError Machine :=
  match m.shell? with
  | none => .ok m
  | some p =>
    lift (match c with
      | .output => m.writeStandard p 1 b
      | .errors => m.writeStandard p 2 b
      | .handle h => m.writeTo p h b)

/-- Starts a program for the shell. -/
def spawn (l : Launch) (m : Machine) : Except Errno Pid × Machine :=
  match m.shell? with
  | none => (.error Errno.again,m)
  | some p =>
    match rebindAll true l.rebindings p.descriptors with
    | .error e => (.error e,m)
    | .ok descriptors => m.launch p l.group descriptors l.program l.args

/-- Copies the shell. -/
def fork (group : Pid) (l : List Rebinding) (m : Machine) : Except Errno Pid × Machine :=
  match m.shell? with
  | none => (.error Errno.again,m)
  | some p =>
    match rebindAll false l p.descriptors with
    | .error e => (.error e,m)
    | .ok descriptors =>
      let (pid,m) := m.copyShell p group descriptors none
      (.ok pid,m)

/-- Copies the shell and keeps the output of the copy. -/
def beginCapture (m : Machine) : Except Text Machine :=
  match m.shell? with
  | none => .error (txt "no process")
  | some p =>
    let (_,d,m) := m.openKeeper
    .ok (m.copyShell p p.group (Process.bindDescriptor 1 d p.descriptors) (some d)).2

/-- Opens a file for a shell. -/
def openShell (m : Machine) (mode : FileMode) (path : Raw) : Except Errno (DescriptionId × Machine) :=
  match m.shell? with
  | none => .error Errno.noProcess
  | some p =>
    m.openFor p (match mode with
      | .input => .read
      | .append => .append
      | .output | .error => .write) path

/-- All that can be read at once from a description, from its beginning on. -/
def wholeContent (m : Machine) (d : DescriptionId) : Except Errno Bytes :=
  match m.description? d with
  | some (.file place _ _ _ _) => .ok (((m.files.node? place).map Node.content).getD [])
  | some (.directory _) => .error Errno.isDirectory
  | _ => .ok []

/-- The next bytes of the input of a shell. -/
def readShell (limit : Nat) (m : Machine) : Bytes × Machine :=
  match (m.shell?.bind (·.description? 0)).map (fun d => m.read d limit) with
  | some (.data b m) => (b,m)
  | _ => ([],m)

/-- How much the shell has not read yet of its input, if that is a file. -/
def unreadSize (m : Machine) : Nat :=
  match (m.shell?.bind (·.description? 0)).bind m.description? with
  | some (.file place position _ _ _) =>
    match m.files.node? place with
    | some (.file _ content) => content.length - position
    | _ => 0
  | _ => 0

/-- Opens a path and writes bytes there. Nothing is written when there are none. -/
def writePath (mode : FileMode) (path : Text) (b : Bytes) (m : Machine) : Except SystemError Machine := do
  let path ← rawPath path
  let (d,m) ← lift (m.openShell mode path)
  match m.shell? with
  | none => return m
  | some p => lift (m.writeTo p d b)

/-- Lets a group read from the terminal, zero being that of the shell. -/
def giveTerminal (group : Pid) (m : Machine) : Machine :=
  match m.shell? with
  | none => m
  | some p => { m with terminalGroup := if group = 0 then p.group else group }

/-- Puts a message into the log. -/
def addToLog (l : LogLevel) (t : Text) (m : Machine) : Machine :=
  match m.logging with
  | none => m
  | some (threshold,place) =>
    if l.rank ≤ threshold && m.shell?.isSome then
      { m with files := m.files.modify place (· ++ Utf8.encode ('[' :: l.label ++ txt "] " ++ t ++ ['\n'])) }
    else m

instance : Kernel Machine where
  environment m := (m.shell?.map (·.environment)).getD []
  setEnvironment b m := m.update m.current (fun p => { p with environment := b })
  homeOf m user := m.homes.get? user
  directory m := Raw.toText (FileSystem.pathOf m.here)
  changeDirectory path m := do
    let path ← rawPath path
    match ← lift (m.files.find m.here path) with
    | (here,.directory) => return m.update m.current (fun p => { p with here := here })
    | _ => .error (.os Errno.notDirectory)
  kindOf m path := do
    let path ← rawPath path
    let (_,n) ← lift (m.files.find m.here path)
    return n.kind
  namesIn m path := do
    let path ← rawPath path
    match ← lift (m.files.find m.here path) with
    | (p,.directory) => return (m.files.names p).filterMap Raw.toText?
    | _ => .error (.os Errno.notDirectory)
  contentOf m path := do
    let path ← rawPath path
    let (d,m) ← lift (m.openShell .input path)
    lift (m.wholeContent d)
  appendFile := writePath .append
  replaceFile := writePath .output
  createDirectories path m := { m with files := m.files.createDirectories m.here (Raw.ofText path) }
  openFile mode path m := do
    let path ← rawPath path
    let (d,m) ← lift (m.openShell mode path)
    return (d,m.update m.current (fun p => { p with held := d :: p.held }))
  pipe m :=
    let (r,w,m) := m.openPipe
    .ok ((r,w),m.update m.current (fun p => { p with held := r :: w :: p.held }))
  close h m := m.update m.current (fun p => { p with held := p.held.erase h })
  write c b m := m.writeShell c b
  spawn := spawn
  fork := fork
  endFork := endCopy 0
  beginCapture := beginCapture
  endCapture := endCapture
  signalGroup group n m := if m.shell?.isSome then m.signalPrograms group n else (some Errno.noProcess,m)
  waitGroup := waitGroup
  waitProcess := waitProcess
  poll := poll
  foreground m := m.foreground
  setForeground group m := { m with foreground := group }
  giveTerminal := giveTerminal
  log := addToLog
  events m := m.budget
  log_events l t m := by
    unfold addToLog
    split
    · rfl
    · split <;> rfl
  waitGroup_events g m h := by
    unfold waitGroup at h ⊢
    split at h
    · exact absurd rfl h
    · rename_i budget equal
      simp only [equal] at h ⊢
      split
      · exact Nat.lt_succ_self budget
      · split
        · exact Nat.lt_succ_self budget
        · rename_i none_ notInterrupted
          simp only [none_,notInterrupted,Bool.false_eq_true,if_false] at h
          exact absurd rfl h
  waitProcess_events pid m h := by
    unfold waitProcess at h
    dsimp only at h
    split at h
    · split at h <;> cases h
    · cases h
  poll_events g m h := by
    unfold poll at h ⊢
    split at h
    · cases h
    · rename_i budget equal
      simp only [equal] at h ⊢
      split
      · exact Nat.lt_succ_self budget
      · rename_i none_
        simp only [none_] at h
        cases h

/-- How long the user thinks before a key. -/
def typingPause : Nat := 200000

instance : Console Machine where
  isTerminal m := m.hasTerminal
  readInput := readShell
  awaitTyping m := m.pass typingPause
  typed m := if m.shell?.isSome then m.keys else ⟨[],[]⟩
  setTyped k m := { m with keys := k }
  inputLeft m := m.unreadSize + m.keys.size
  openLog level path m := do
    let path ← rawPath path
    let (p,files) ← lift (m.files.create m.here path)
    return { m with files := files, logging := some (level.rank,p) }
  now m := m.epoch + m.clock / 1000000

end Machine
end JobShell

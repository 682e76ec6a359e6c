import JobShell.Proofs.Session.Continuing
import JobShell.Proofs.Session.OwnCommand
import Mathlib.Data.Multiset.AddSub

/-!
# Getting commands ready

Before the first process of a line is started, the files that its commands run
are found, and then the files of their redirections are opened. When a command
is missing, no file has been opened. When a file cannot be opened, those before
it have been, and they are closed again. In both cases the user is told, and
nothing else comes of the line (`Act.runLine_unprepared`).
-/
namespace JobShell

/-- The files that redirections open, in their order. -/
def Redirection.files (l : List Redirection) : List (FileMode × Text) := l.filterMap fun
  | .file mode path => some (mode,path)
  | .duplicate _ _ => none

/-- The files that the redirections of commands open, command by command. -/
def Invocation.files (l : List Invocation) : List (FileMode × Text) := l.flatMap fun i => Redirection.files i.redirects

/-- Why a file of a redirection is not open. -/
def CommandError.ofOpening (mode : FileMode) (path : Text) (e : SystemError) : CommandError :=
  if mode = .input && e = .os Errno.noEntry then .noFile path else .notOpened path e

section
variable {σ : Type} [Kernel σ]

/-- Why a command cannot be run: it is not built in, and there is no file to run. -/
def Invocation.fault (s : σ) (i : Invocation) : Option CommandError :=
  if isBuiltin i.name then none
  else match Lookup.command s i.name with
    | .error e => some e
    | .ok _ => none

/-- Files are opened in an order, and files that were opened are closed. `held` are the handles that are open in the end. -/
inductive Opens (s : σ) : List (FileMode × Text) → Multiset Handle → σ → Prop where
  | nothing : Opens s [] 0 s
  | opened {l : List (FileMode × Text)} {held : Multiset Handle} {t u : σ} {mode : FileMode} {path : Text} {h : Handle}
      (before : Opens s l held t) (result : Kernel.openFile mode path t = .ok (h,u)) :
      Opens s (l ++ [(mode,path)]) (h ::ₘ held) u
  | closed {l : List (FileMode × Text)} {held : Multiset Handle} {t : σ} {h : Handle} (before : Opens s l (h ::ₘ held) t) :
      Opens s l held (Kernel.close h t)

/-- The system after handles were closed. -/
def Kernel.closeAll (handles : List Handle) (s : σ) : σ := handles.foldl (fun s h => Kernel.close h s) s

/-- Files are opened in an order until one cannot be; then the handles that are open are closed, but for those `kept`. -/
inductive FailsToOpen (s : σ) (files : List (FileMode × Text)) (kept : Multiset Handle) : CommandError → σ → Prop where
  | at (front : List (FileMode × Text)) {mode : FileMode} {path : Text} (rest : List (FileMode × Text))
      {handles : List Handle} {t : σ} {e : SystemError} (order : files = front ++ (mode,path) :: rest)
      (opens : Opens s front (handles + kept) t) (fails : Kernel.openFile mode path t = .error e) :
      FailsToOpen s files kept (.ofOpening mode path e) (Kernel.closeAll handles t)

namespace Opens
variable {s t : σ} {l : List (FileMode × Text)}

theorem closeAll {handles : List Handle} {held : Multiset Handle} (opens : Opens s l (handles + held) t) :
    Opens s l held (Kernel.closeAll handles t) := by
  induction handles generalizing t with
  | nil =>
    rw [Multiset.coe_nil,Multiset.zero_add] at opens
    exact opens
  | cons h r ih =>
    apply ih
    apply Opens.closed
    simpa [← Multiset.cons_coe] using opens

end Opens

namespace FailsToOpen
variable {s t : σ} {files : List (FileMode × Text)} {e : CommandError}

/-- More handles are closed. -/
theorem closeAll {handles : List Handle} {kept : Multiset Handle} (fails : FailsToOpen s files (handles + kept) e t) :
    FailsToOpen s files kept e (Kernel.closeAll handles t) := by
  obtain @⟨front,mode,path,rest,first,u,e,order,opens,fails⟩ := fails
  have both : Kernel.closeAll handles (Kernel.closeAll first u) = Kernel.closeAll (first ++ handles) u := by
    rw [Kernel.closeAll,Kernel.closeAll,Kernel.closeAll,List.foldl_append]
  rw [both]
  refine .at front rest order ?_ fails
  rwa [← Multiset.coe_add,Multiset.add_assoc]

/-- Files that would have come after the one that cannot be opened. -/
theorem append {kept : Multiset Handle} (fails : FailsToOpen s files kept e t) (more : List (FileMode × Text)) :
    FailsToOpen s (files ++ more) kept e t := by
  obtain ⟨front,rest,rfl,opens,fails⟩ := fails
  exact .at front (rest ++ more) (by simp) opens fails

end FailsToOpen

/-- A file takes the place of the one that was open for its descriptor. -/
theorem Wiring.handles_bind (w : Wiring) (h : Handle) (mode : FileMode) :
    (h ::ₘ (w.handles : Multiset Handle)) = (w.bound mode).toList + ((w.bind h mode).handles : Multiset Handle) := by
  rw [Multiset.cons_coe,Multiset.coe_add,Multiset.coe_eq_coe,List.perm_iff_count]
  intro x
  cases mode
  all_goals
    simp only [handles,bound,bind,Option.toList_some,List.count_append,List.count_cons,List.count_nil]
    omega

namespace Act

theorem yields_closeAll (handles : List Handle) (s : Session σ) :
    Yields (closeAll handles) s () ⟨s.shell,Kernel.closeAll handles s.system⟩ := yields_modifySystem _ s

section
variable {s : σ} (shell : Shell)

/-- What comes of opening files. -/
inductive Opening {α : Type} (s : σ) (files : List (FileMode × Text)) (kept : Multiset Handle) (handles : α → List Handle)
    (shell : Shell) : Except CommandError α → Session σ → Prop where
  | opened {a : α} {t : σ} (opens : Opens s files (handles a + kept) t) : Opening s files kept handles shell (.ok a) ⟨shell,t⟩
  | failed {e : CommandError} {t : σ} (fails : FailsToOpen s files kept e t) :
      Opening s files kept handles shell (.error e) ⟨shell,t⟩

/-- Redirections come to open files, or to the first file that cannot be opened. -/
theorem exists_openRedirects (l : List Redirection) (w : Wiring) {kept : Multiset Handle} {t : σ}
    {done : List (FileMode × Text)} (opens : Opens s done (w.handles + kept) t) :
    ∃ r u, Yields (openRedirects l w) ⟨shell,t⟩ r u ∧
      Opening s (done ++ Redirection.files l) kept Wiring.handles shell r u := by
  induction l generalizing w t done with
  | nil => exact ⟨_,_,yields_pure _ _,.opened (by simpa [Redirection.files] using opens)⟩
  | cons r l ih =>
    cases r with
    | duplicate d source => exact ih _ opens
    | file mode path =>
      have files : done ++ Redirection.files (.file mode path :: l) = done ++ [(mode,path)] ++ Redirection.files l := by
        simp [Redirection.files]
      rw [files]
      cases result : Kernel.openFile mode path t with
      | ok p =>
        obtain ⟨h,u⟩ := p
        have next := opens.opened result
        rw [← Multiset.cons_add,w.handles_bind h mode,Multiset.add_assoc] at next
        obtain ⟨r,v,later,opening⟩ := ih (w.bind h mode) next.closeAll
        exact ⟨r,v,(yields_attempt result).bind ((yields_closeAll _ _).bind later),opening⟩
      | error e =>
        have fails : FailsToOpen s (done ++ [(mode,path)]) kept (.ofOpening mode path e) (Kernel.closeAll w.handles t) :=
          .at done [] rfl opens result
        exact ⟨_,_,(yields_attempt_error result).bind ((yields_closeAll _ _).bind (yields_pure _ _)),
          .failed (fails.append _)⟩

/-- So do the redirections of commands: when a file cannot be opened, those of the commands before are closed as well. -/
theorem exists_openAll (l : List Invocation) {kept : Multiset Handle} {t : σ} {done : List (FileMode × Text)}
    (opens : Opens s done kept t) :
    ∃ r u, Yields (openAll l) ⟨shell,t⟩ r u ∧
      Opening s (done ++ Invocation.files l) kept (List.flatMap Wiring.handles) shell r u := by
  induction l generalizing kept t done with
  | nil =>
    refine ⟨_,_,yields_pure _ _,.opened ?_⟩
    rw [List.flatMap_nil,Multiset.coe_nil,Multiset.zero_add]
    simpa [Invocation.files] using opens
  | cons i l ih =>
    have files : done ++ Invocation.files (i :: l) = done ++ Redirection.files i.redirects ++ Invocation.files l := by
      simp [Invocation.files]
    have start : Opens s done ((Wiring.inherited.handles : Multiset Handle) + kept) t := by
      change Opens s done (0 + kept) t
      rwa [Multiset.zero_add]
    obtain ⟨r,u,first,opening⟩ := exists_openRedirects shell i.redirects .inherited start
    rw [files]
    cases opening with
    | failed fails => exact ⟨_,_,first.bind (yields_pure _ _),.failed (fails.append _)⟩
    | @opened w _ opens =>
      obtain ⟨r,v,rest,opening⟩ := ih opens
      cases opening with
      | failed fails =>
        exact ⟨_,_,first.bind (rest.bind ((yields_closeAll _ _).bind (yields_pure _ _))),.failed fails.closeAll⟩
      | opened opens =>
        refine ⟨_,_,first.bind (rest.bind (yields_pure _ _)),.opened ?_⟩
        rw [List.flatMap_cons,← Multiset.coe_add,Multiset.add_comm (w.handles : Multiset Handle),Multiset.add_assoc]
        exact opens

/-- The first command that cannot be run is the one that is reported. -/
theorem yields_lookUpAll_error {l : List Invocation} {e : CommandError}
    (missing : l.findSome? (Invocation.fault s) = some e) : Yields (lookUpAll l) ⟨shell,s⟩ (.error e) ⟨shell,s⟩ := by
  induction l with
  | nil => cases missing
  | cons i l ih =>
    rw [List.findSome?_cons,Invocation.fault] at missing
    rw [lookUpAll]
    by_cases builtin : isBuiltin i.name = true
    · rw [if_pos builtin] at missing ⊢
      exact (ih missing).bind (yields_pure _ _)
    · rw [if_neg builtin] at missing ⊢
      refine (yields_system _).bind ?_
      cases found : Lookup.command s i.name with
      | error e' =>
        simp only [found] at missing ⊢
        cases missing
        exact yields_pure _ _
      | ok file =>
        simp only [found] at missing ⊢
        exact (ih missing).bind (yields_pure _ _)

theorem exists_lookUpAll {l : List Invocation} (found : l.findSome? (Invocation.fault s) = none) :
    ∃ files, Yields (lookUpAll l) ⟨shell,s⟩ (.ok files) ⟨shell,s⟩ := by
  induction l with
  | nil => exact ⟨[],yields_pure _ _⟩
  | cons i l ih =>
    rw [List.findSome?_cons,Invocation.fault] at found
    rw [lookUpAll]
    by_cases builtin : isBuiltin i.name = true
    · rw [if_pos builtin] at found ⊢
      obtain ⟨files,rest⟩ := ih found
      exact ⟨_,rest.bind (yields_pure _ _)⟩
    · rw [if_neg builtin] at found ⊢
      cases program : Lookup.command s i.name with
      | error e =>
        simp only [program] at found
        cases found
      | ok file =>
        simp only [program] at found
        obtain ⟨files,rest⟩ := ih found
        refine ⟨some file :: files,(yields_system _).bind ?_⟩
        simp only [program]
        exact rest.bind (yields_pure _ _)

/-- A command that is not found is not ready, and nothing has happened. -/
theorem yields_prepare_error {l : List Invocation} {e : CommandError}
    (missing : l.findSome? (Invocation.fault s) = some e) : Yields (prepare l) ⟨shell,s⟩ (.error e) ⟨shell,s⟩ :=
  (yields_lookUpAll_error shell missing).bind (yields_pure _ _)

/-- Commands that are all found are ready when their files are open. -/
theorem exists_prepare {l : List Invocation} (found : l.findSome? (Invocation.fault s) = none) :
    (∃ stages handles t, Yields (prepare l) ⟨shell,s⟩ (.ok stages) ⟨shell,t⟩ ∧
      Opens s (Invocation.files l) handles t) ∨
    ∃ e t, Yields (prepare l) ⟨shell,s⟩ (.error e) ⟨shell,t⟩ ∧ FailsToOpen s (Invocation.files l) 0 e t := by
  obtain ⟨files,looked⟩ := exists_lookUpAll shell found
  obtain ⟨r,t,opened,opening⟩ := exists_openAll shell l (.nothing (s := s))
  cases opening with
  | opened opens => exact .inl ⟨_,_,_,looked.bind (opened.bind (yields_pure _ _)),opens⟩
  | failed fails => exact .inr ⟨_,_,looked.bind (opened.bind (yields_pure _ _)),fails⟩

/-! ### Why -/

theorem eq_of_firstRunnable {kindOf : Text → Option FileKind} {name : Text} {denied : Bool} {files : List Text}
    {e : CommandError} (failed : Lookup.firstRunnable kindOf name denied files = .error e) :
    e = .notFound name ∨ e = .notRunnable name := by
  induction files generalizing denied with
  | nil =>
    cases denied with
    | false => exact .inl (Except.error.inj failed).symm
    | true => exact .inr (Except.error.inj failed).symm
  | cons file r ih =>
    rw [Lookup.firstRunnable] at failed
    split at failed
    · cases failed
    · exact ih failed
    · exact ih failed

/-- A command has no file to run, or one that may not be run. -/
theorem eq_of_fault {i : Invocation} {e : CommandError} (missing : i.fault s = some e) :
    e = .notFound i.name ∧ e.status = 127 ∨ e = .notRunnable i.name ∧ e.status = 126 := by
  have reason : e = .notFound i.name ∨ e = .notRunnable i.name := by
    rw [Invocation.fault] at missing
    split at missing
    · cases missing
    · cases found : Lookup.command s i.name with
      | ok file =>
        rw [found] at missing
        cases missing
      | error e' =>
        rw [found] at missing
        obtain rfl : e' = e := Option.some.inj missing
        rw [Lookup.command,Lookup.file] at found
        split at found
        · split at found
          · exact .inl (Except.error.inj found).symm
          · cases found
          · exact .inr (Except.error.inj found).symm
        · split at found
          · exact .inl (Except.error.inj found).symm
          · exact eq_of_firstRunnable found
  rcases reason with rfl | rfl
  · exact .inl ⟨rfl,rfl⟩
  · exact .inr ⟨rfl,rfl⟩

theorem status_ofOpening (mode : FileMode) (path : Text) (e : SystemError) :
    (CommandError.ofOpening mode path e).status = 1 := by
  rw [CommandError.ofOpening]
  split <;> rfl

theorem ofOpening_eq_noFile_iff {mode : FileMode} {path : Text} {e : SystemError} :
    CommandError.ofOpening mode path e = .noFile path ↔ mode = .input ∧ e = .os Errno.noEntry := by
  rw [CommandError.ofOpening]
  split
  · rename_i missing
    simpa using missing
  · rename_i other
    simpa using other

/-! ### The line -/

end

/-- How the output of a command is had in a line in which commands are nested at most `depth` deep. -/
def captureAt : Nat → Capture σ
  | 0 => refuseCapture
  | depth+1 => captureWith (runWithin depth)

theorem runWithin_eq (depth : Nat) (line : Text) :
    (runWithin depth line : Act σ CommandOutcome) = runWith (captureAt depth) line := by
  cases depth <;> rfl

theorem steady_captureAt (depth : Nat) (command : Text) : Steady (captureAt depth command : Act σ Text) := by
  cases depth with
  | zero => exact (steady_log _ _).bind fun _ => steady_pure _
  | succ depth => exact steady_captureWith _ command

/-- The commands of a line with their words expanded. -/
def expandLine (aliases : Bindings) (line : Text) (p : Pipeline) : Act σ (List Invocation) :=
  expandCommands (captureAt (captureDepth aliases line)) p.commands

/-- A line whose commands are refused with an error, when the system has come to a state. The user is told, and the line
    has the status of the error; when the user cannot be told, the shell breaks down as it is, without a new status. -/
def Refused (line : Text) (s : Session σ) (e : CommandError) (before : σ) : Prop :=
  match Kernel.write .errors (Utf8.encode (message e.message)) before with
  | .ok told => Yields (runLine line) s ⟨e.status,none⟩
      ⟨{ s.shell with lastStatus := e.status },Kernel.log .debug (txt "not run: " ++ e.message) told⟩
  | .error lost => (runLine line).run s = (.error (.untold lost),⟨s.shell,before⟩)

theorem Refused.yields {line : Text} {s : Session σ} {e : CommandError} {before told : σ} (refused : Refused line s e before)
    (wrote : Kernel.write .errors (Utf8.encode (message e.message)) before = .ok told) :
    Yields (runLine line) s ⟨e.status,none⟩
      ⟨{ s.shell with lastStatus := e.status },Kernel.log .debug (txt "not run: " ++ e.message) told⟩ := by
  rw [Refused,wrote] at refused
  exact refused

/-- A line whose commands are not ready. -/
theorem refused_of_unprepared {line : Text} {s : Session σ} {p : Pipeline} {l : List Invocation} {e : CommandError}
    {t u : σ} (parsed : Pipeline.parse s.surroundings s.shell.aliases.get? line = .ok (some p))
    (expanded : Yields (expandLine s.shell.aliases line p) s l ⟨s.shell,t⟩) (others : ownCommand? p.background l = none)
    (unprepared : Yields (prepare l) ⟨s.shell,Kernel.log .info (txt "exec: " ++ displayed line) t⟩ (.error e)
      ⟨s.shell,u⟩) :
    Refused line s e u := by
  -- Up to the refusal nothing breaks down, so that this decides about the line.
  have words : Yields (expandCommands (captureAt (captureDepth s.shell.aliases line)) p.commands) s l ⟨s.shell,t⟩ := expanded
  have ran : (runLine line).run s = (do
      let status ← refuse e
      modifyShell (fun s => { s with lastStatus := status })
      return ⟨status,none⟩ : Act σ CommandOutcome).run ⟨s.shell,u⟩ := by
    rw [runLine,(yields_shell s).run_bind,runWithin_eq,runWith,(yields_shell s).run_bind,(yields_surroundings s).run_bind]
    simp only [parsed]
    rw [runPipeline,bind_assoc,words.run_bind]
    simp only [others]
    have logged : Yields (log .info (txt "exec: " ++ displayed line)) ⟨s.shell,t⟩ () _ := yields_modifySystem _ _
    rw [bind_assoc,logged.run_bind,bind_assoc,unprepared.run_bind]
    simp only [bind_assoc,pure_bind]
  rw [Refused]
  split
  · rename_i told wrote
    have refused : Yields (refuse e) ⟨s.shell,u⟩ e.status _ :=
      (yields_tell wrote).bind ((yields_modifySystem _ _).bind (yields_pure _ _))
    exact ran.trans (refused.bind ((yields_modifyShell _ _).bind (yields_pure _ _)))
  · rename_i lost failed
    have broken : (refuse e).run ⟨s.shell,u⟩ = (.error (.untold lost),⟨s.shell,u⟩) := by
      rw [refuse,complain,run_bind_of_run (run_tell_error failed)]
      rfl
    rw [ran,run_bind_of_run broken]
    rfl

/-- **A line whose commands are not ready.** The words of a line are expanded, which leaves the shell as it is. Unless the
    line is one command that the shell runs itself, the files that the commands run are looked for. For the first command
    that cannot be run the line is refused with the status 127 or 126, and no file has been opened. If there is none, the
    files of the redirections are opened, command by command and as they are written. For the first that cannot be opened
    the line is refused with the status 1; that there is no such file is said of a file to read from only. Those before it
    are closed again. The system is then what it was before but for these files and the message, so nothing has been
    started, and the shell knows no more than the status, which it does not know when the message is lost. -/
theorem runLine_unprepared (s : Session σ) {line : Text} {p : Pipeline}
    (parsed : Pipeline.parse s.surroundings s.shell.aliases.get? line = .ok (some p)) :
    ∃ l t, Yields (expandLine s.shell.aliases line p) s l ⟨s.shell,t⟩ ∧
      (ownCommand? p.background l = none →
        let before := Kernel.log .info (txt "exec: " ++ displayed line) t
        (∀ front i rest e, l = front ++ i :: rest → (∀ j ∈ front, j.fault before = none) → i.fault before = some e →
          Yields (prepare l) ⟨s.shell,before⟩ (.error e) ⟨s.shell,before⟩ ∧
          Refused line s e before ∧
          (e = .notFound i.name ∧ e.status = 127 ∨ e = .notRunnable i.name ∧ e.status = 126)) ∧
        ((∀ i ∈ l, i.fault before = none) →
          (∃ stages handles after, Yields (prepare l) ⟨s.shell,before⟩ (.ok stages) ⟨s.shell,after⟩ ∧
            Opens before (Invocation.files l) handles after) ∨
          ∃ (front : List (FileMode × Text)) (mode : FileMode) (path : Text) (rest : List (FileMode × Text))
            (handles : List Handle) (u : σ) (err : SystemError),
            Invocation.files l = front ++ (mode,path) :: rest ∧ Opens before front handles u ∧
            Kernel.openFile mode path u = .error err ∧
            let e := CommandError.ofOpening mode path err
            let after := Kernel.closeAll handles u
            Yields (prepare l) ⟨s.shell,before⟩ (.error e) ⟨s.shell,after⟩ ∧
            Refused line s e after ∧ e.status = 1 ∧
            (e = .noFile path ↔ mode = .input ∧ err = .os Errno.noEntry))) := by
  obtain ⟨l,⟨shell,t⟩,expanded,same⟩ := steady_expandCommands (steady_captureAt (captureDepth s.shell.aliases line))
    (fun w mem => Pipeline.written_of_parse parsed mem) s
  obtain rfl : shell = s.shell := same
  refine ⟨l,t,expanded,?_⟩
  intro others before
  constructor
  · intro front i rest e order found missing
    have leftmost : l.findSome? (Invocation.fault before) = some e :=
      List.findSome?_eq_some_iff.mpr ⟨front,i,rest,order,missing,found⟩
    have refused := yields_prepare_error s.shell leftmost
    exact ⟨refused,refused_of_unprepared parsed expanded others refused,eq_of_fault missing⟩
  · intro found
    have all : l.findSome? (Invocation.fault before) = none := List.findSome?_eq_none_iff.mpr found
    rcases exists_prepare s.shell all with ready | ⟨e,after,refused,fails⟩
    · exact .inl ready
    · obtain @⟨front,mode,path,rest,handles,u,err,order,opens,failed⟩ := fails
      rw [Multiset.add_zero] at opens
      exact .inr ⟨front,mode,path,rest,handles,u,err,order,opens,failed,refused,
        refused_of_unprepared parsed expanded others refused,status_ofOpening _ _ _,ofOpening_eq_noFile_iff⟩

/-- A line whose second command is missing, and which has a file to write to before and after it; and a line of built-in
    commands whose second file is missing. -/
theorem runLine_unprepared_missing :
    let s := freshSession
    let word := fun t => Word.mk (txt t) [] false
    let missing : Pipeline := ⟨[⟨[word "pwd"],[.file .output (word "o")]⟩,⟨[word "nosuch"],[.file .error (word "e")]⟩,
      ⟨[word "cd"],[.file .input (word "i")]⟩],false⟩
    let unread : Pipeline := ⟨[⟨[word "pwd"],[.duplicate 2 1,.file .output (word "o")]⟩,
      ⟨[word "cd"],[.file .input (word "i")]⟩],false⟩
    Pipeline.parse s.surroundings s.shell.aliases.get? (txt "pwd > o | nosuch 2> e | cd < i") = .ok (some missing) ∧
    Pipeline.parse s.surroundings s.shell.aliases.get? (txt "pwd 2>&1 > o | cd < i") = .ok (some unread) ∧
    (∃ t told, Kernel.write .errors (Utf8.encode (txt "kaze: nosuch: command not found\n")) t = .ok told ∧
      Yields (runLine (txt "pwd > o | nosuch 2> e | cd < i")) s ⟨127,none⟩
        ⟨{ s.shell with lastStatus := 127 },Kernel.log .debug (txt "not run: nosuch: command not found") told⟩) ∧
    ∃ t told, Kernel.write .errors (Utf8.encode (txt "kaze: i: No such file or directory\n")) t = .ok told ∧
      Yields (runLine (txt "pwd 2>&1 > o | cd < i")) s ⟨1,none⟩
        ⟨{ s.shell with lastStatus := 1 },Kernel.log .debug (txt "not run: i: No such file or directory") told⟩ := by
  intro s word missing unread
  have first : Pipeline.parse s.surroundings s.shell.aliases.get? (txt "pwd > o | nosuch 2> e | cd < i") =
      .ok (some missing) := rfl
  have second : Pipeline.parse s.surroundings s.shell.aliases.get? (txt "pwd 2>&1 > o | cd < i") =
      .ok (some unread) := rfl
  let read : Invocation := ⟨[txt "cd"],[.file .input ['i']]⟩
  refine ⟨first,second,?_,?_⟩
  · let written : Invocation := ⟨[txt "pwd"],[.file .output ['o']]⟩
    let nosuch : Invocation := ⟨[txt "nosuch"],[.file .error ['e']]⟩
    have words : Yields (expandLine s.shell.aliases (txt "pwd > o | nosuch 2> e | cd < i") missing) s
        [written,nosuch,read] s := rfl
    obtain ⟨l,t,expanded,unprepared⟩ := runLine_unprepared s first
    obtain ⟨rfl,here⟩ := expanded.unique words
    obtain rfl : t = s.system := congrArg Session.system here
    obtain ⟨lookups,-⟩ := unprepared rfl
    have builtin : ∀ j ∈ [written],
        j.fault (Kernel.log .info (txt "exec: " ++ displayed (txt "pwd > o | nosuch 2> e | cd < i")) s.system) = none := by
      simp only [List.mem_singleton,forall_eq]
      rfl
    obtain ⟨-,refused,-⟩ := lookups [written] nosuch [read] (.notFound (txt "nosuch")) rfl builtin rfl
    exact ⟨Kernel.log .info (txt "exec: " ++ displayed (txt "pwd > o | nosuch 2> e | cd < i")) s.system,_,rfl,refused.yields rfl⟩
  · let written : Invocation := ⟨[txt "pwd"],[.duplicate 2 1,.file .output ['o']]⟩
    let before := Kernel.log .info (txt "exec: " ++ displayed (txt "pwd 2>&1 > o | cd < i")) s.system
    have words : Yields (expandLine s.shell.aliases (txt "pwd 2>&1 > o | cd < i") unread) s [written,read] s := rfl
    obtain ⟨l,t,expanded,unprepared⟩ := runLine_unprepared s second
    obtain ⟨rfl,here⟩ := expanded.unique words
    obtain rfl : t = s.system := congrArg Session.system here
    obtain ⟨-,files⟩ := unprepared rfl
    have builtin : ∀ i ∈ [written,read], i.fault before = none := by
      simp only [List.mem_cons,List.not_mem_nil,or_false,forall_eq_or_imp,forall_eq]
      exact ⟨rfl,rfl⟩
    let ended := (prepare [written,read]).run ⟨s.shell,before⟩
    have failed : ended.1 = .ok (.error (.noFile ['i'])) := by decide +kernel
    have told : (Kernel.write .errors (Utf8.encode (txt "kaze: i: No such file or directory\n")) ended.2.system).toBool :=
      by decide +kernel
    have opened : Yields (prepare [written,read]) ⟨s.shell,before⟩ (.error (.noFile ['i'])) ended.2 := Prod.ext failed rfl
    clear_value ended
    rcases files builtin with ⟨stages,handles,after,ready,-⟩ | ⟨front,mode,path,rest,handles,u,err,-,-,-,prepared,refused,-⟩
    · cases (opened.unique ready).1
    · obtain ⟨error,here⟩ := opened.unique prepared
      rw [← Except.error.inj error] at refused
      rw [here] at told
      cases wrote : Kernel.write .errors (Utf8.encode (txt "kaze: i: No such file or directory\n"))
          (Kernel.closeAll handles u) with
      | error e =>
        rw [wrote] at told
        cases told
      | ok told => exact ⟨_,told,wrote,refused.yields wrote⟩

end Act
end
end JobShell

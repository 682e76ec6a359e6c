import JobShell.Job.Basic

/-!
# The table of jobs

Jobs stand in the table in the order in which they came. A new job takes the
least number that no job of the table has. A job that is done is removed once
the user was told so, by a listing or by a notice before the prompt.
-/
namespace JobShell

/-- The jobs of a shell, in the order in which they came. -/
abbrev JobTable := List Job

namespace JobTable

/-- The least number from `n` on that no job has, looking at `fuel` numbers at most. -/
def freeFrom (t : JobTable) (n : Nat) : Nat → Nat
  | 0 => n
  | fuel+1 => if t.any (·.id == n) then freeFrom t (n+1) fuel else n

/-- The least positive number that no job has; one more number than there are jobs is enough to look at. -/
def freeId (t : JobTable) : Nat := freeFrom t 1 t.length

/-- The table with a job added, and the number it was given. -/
def adopt (t : JobTable) (j : Job) : JobTable × Nat := (t ++ [{ j with id := t.freeId }],t.freeId)

/-- The job with a number. -/
def job? (t : JobTable) (id : Nat) : Option Job := t.find? (·.id == id)

/-- The table with the first job of a number changed. -/
def modify (id : Nat) (f : Job → Job) : JobTable → JobTable
  | [] => []
  | j :: r => if j.id == id then f j :: r else j :: modify id f r

/-- The table without the first job of a number. -/
def remove (id : Nat) : JobTable → JobTable
  | [] => []
  | j :: r => if j.id == id then r else j :: remove id r

/-- The greatest number of a job. -/
def highestId? (t : JobTable) : Option Nat := (t.map (·.id)).max?

/-- The number that an argument names: a number with or without a percent sign,
    or the greatest one when there is no argument. -/
def resolve (t : JobTable) : Option Text → Except JobError Nat
  | none =>
    match t.highestId? with
    | some id => .ok id
    | none => .error .noCurrentJob
  | some arg =>
    let digits := if arg.head? = some '%' then arg.tail else arg
    match Numeral.readNat Numeral.maxNat64 digits with
    | some id => if (t.job? id).isSome then .ok id else .error (.noSuchJob arg)
    | none => .error (.noSuchJob arg)

/-- The table after a report: it goes to the first job that has a process with the number. -/
def mark (pid : Pid) (raw : WaitStatus) : JobTable → JobTable
  | [] => []
  | j :: r => if j.hasPid pid then j.mark pid raw :: r else j :: mark pid raw r

/-- The groups of the jobs that are not done. -/
def liveGroups (t : JobTable) : List Pid := (t.filter (!·.isDone)).map (·.group)

/-- The line of a job in a listing. -/
def listLine (j : Job) : Text :=
  '[' :: Numeral.ofNat j.id ++ txt "]  " ++ Text.padEnd 8 j.state.label ++ txt "  " ++ j.command ++ ['\n']

/-- A job after it was shown: one that is done is known to the user. -/
def shown (j : Job) : Job := if j.isDone then { j with notified := true } else j

/-- The jobs that are not both done and known to the user. -/
def dropNotified (t : JobTable) : JobTable := t.filter (fun j => !(j.notified && j.isDone))

/-- The listing of all jobs, and the table after it. -/
def list (t : JobTable) : Text × JobTable := (t.flatMap listLine,dropNotified (t.map shown))

/-- The notice that a job is done. -/
def notice (j : Job) : Text :=
  '[' :: Numeral.ofNat j.id ++ txt "]   Done   " ++ j.command ++ ['\n']

/-- The notices on jobs that are done and not known to be, and the table after them. -/
def notify (t : JobTable) : Text × JobTable :=
  ((t.filter (fun j => j.isDone && !j.notified)).flatMap notice,
    dropNotified (t.map shown))

end JobTable
end JobShell

import JobShell.Jobs.Status

/-!
# Jobs

A job is a pipeline the shell started: its id, the pid it tracks (the last stage), the
process group of all stages, the stages not yet reaped, the display text, its status,
whether it runs in the background, and its exit status once done.
-/
namespace JobShell

structure Job where
  id : Int
  pid : Int
  pgid : Int
  pids : List Int
  command : String
  status : JobStatus
  background : Bool
  exitStatus : Int
  deriving DecidableEq, Repr, Inhabited

namespace Job

/-- The process group to signal: the recorded group when positive, else the pid. -/
def group (j : Job) : Int := if j.pgid > 0 then j.pgid else j.pid

/-- Drops the first occurrence of `pid` from the unreaped stages. -/
def forget (j : Job) (pid : Int) : Job := { j with pids := j.pids.erase pid }

/-- The unreaped stages other than the tracked pid. -/
def stragglers (j : Job) : List Int := j.pids.filter (· != j.pid)

/-- The job after a wait reported `w` for its tracked pid: an exit or a kill makes it
Done with that exit status and forgets the pid, a stop makes it Stopped, a continue
Running; any other word leaves it as it was. -/
def applyWait (j : Job) (w : WaitStatus) : Job :=
  if w.ended then { j.forget j.pid with status := .done, exitStatus := w.shellStatus }
  else if w.stopped then { j with status := .stopped }
  else if w.continued then { j with status := .running }
  else j

/-- Applies a wait status and tells whether the job's status changed. -/
def record (j : Job) (w : WaitStatus) : Bool × Job :=
  let j' := j.applyWait w
  (j'.status != j.status, j')

end Job

end JobShell

import JobShell.Shell.State

/-!
# Job control

Moving jobs between foreground and background, and catching the job table up with what
happened to the children.

`foreground` continues a stopped job and waits for it: a stop puts it back in the
background as Stopped (with a notice on standard output), an exit or a kill records its
status, logs it as done and removes it. `background` continues a job without waiting.
`reconcile` polls every job without blocking and logs each change of status; on a table with
an empty slot it faults, and the process ends there.
-/
namespace JobShell

open ShellM

/-- The notice printed when a foreground job stops. -/
def stopNotice (j : Job) : String :=
  "\n[" ++ toString j.id ++ "]+  Stopped                 " ++ j.command ++ "\n"

/-- Continues a job if it is stopped and waits until it exits or stops again. Gives the exit
status, 0 for a stop and 1 when the wait fails. -/
def resumeAndWait (id : Int) (j : Job) : ShellM Int := do
  if j.status == .stopped then
    match ← kill (-j.group) sigCont with
    | some e => if e != .srch then log ("ushell: continue job " ++ toString j.id ++ ": " ++ e.message)
    | none => pure ()
  updateJob id fun j => { j with status := .running, background := false }
  jobEvent Event.resumed id
  match ← waitFor j.pid WaitOptions.untraced with
  | .error e =>
    log ("ushell: wait " ++ toString j.pid ++ ": " ++ e.message)
    return 1
  | .ok ws =>
    if ws.stopped then
      updateJob id fun j => { j with status := .stopped, background := true }
      match ← job? id with
      | some j => say (stopNotice j)
      | none => pure ()
      jobEvent Event.stopped id
      return 0
    else
      updateJob id fun j => (j.record ws).2
      jobEvent Event.finished id
      let exitStatus := ((← job? id).map (·.exitStatus)).getD 0
      match (← jobs).remove id with
      | .ok t => setJobs t
      | .error _ => pure ()
      return exitStatus

/-- Gives a job the terminal, continues it if it is stopped, and waits until it exits or
stops again, as `resumeAndWait` says; the keyboard signals go to the job's group meanwhile. -/
def foreground (id : Int) : ShellM Int := do
  let some j ← job? id | return 1
  withForeground j.group (resumeAndWait id j)

/-- Continues a job in the background; a failed signal is returned. -/
def background (id : Int) : ShellM (Option Errno) := do
  let some j ← job? id | return none
  match ← kill (-j.group) sigCont with
  | some e => return some e
  | none =>
    updateJob id fun j => { j with status := .running, background := true }
    jobEvent Event.resumed id
    return none

/-- Polls the jobs and logs every change: done, stopped or running again. A table with an
empty slot faults. -/
def reconcile : ShellM Unit := do
  let s ← get
  match s.shell.jobs.reconcile s.world.system with
  | .error f => crash f
  | .ok (ids, t, sys) =>
    setJobs t
    modifyWorld fun w => { w with system := sys }
    for id in ids do
      match ← job? id with
      | some j =>
        match j.status with
        | .done => jobEvent Event.finished id
        | .stopped => jobEvent Event.stopped id
        | .running => jobEvent Event.resumed id
      | none => pure ()

/-- Clears the child-exited flag and tells whether it was set. -/
def takeChildExited : ShellM Bool := do
  let flag := (← shell).childExited
  modifyShell fun s => { s with childExited := false }
  return flag

/-- After a command: when a child changed state, catches the table up and drops the
jobs that are done. -/
def reapChildren : ShellM Unit := do
  if ← takeChildExited then
    reconcile
    let (_, t) := (← jobs).cleanup
    setJobs t

/-- Catches the table up whether or not a child signalled, as the job builtins do. -/
def catchUp : ShellM Unit := do
  let _ ← takeChildExited
  reconcile

end JobShell

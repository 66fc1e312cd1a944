import JobShell.Shell.Stage
import JobShell.Command.Pipeline

/-!
# Running pipelines

A pipeline with one stage that is a builtin or a tool, with no redirection, no prefix
assignment and not in the background, runs inside the shell. Any other pipeline gets a
process group: one child per stage, the stages joined by pipes.

A background group is registered as a job and its id and pid are printed. The shell
waits for a foreground group stage by stage: the last stage's status is the pipeline's,
and a stage that stops turns the stages not yet reaped into a Stopped job. A pipeline
that cannot be set up gives -1, after the reason is logged and recorded as an event: the
pipes are made first, then the stages are started one by one, and when a stage cannot be
started the ones already started are killed and reaped.
-/
namespace JobShell

open ShellM

/-- The status of a pipeline that could not be set up. -/
def execFailure : Int := -1

/-- The program the shell starts for every stage. -/
def launcherPath : String := "/nonexistent/ushell-stage"

/-- The processes started for a pipeline: the group's id and each stage's pid. -/
structure Group where
  pgid : Int
  pids : List Int
  deriving Repr

/-- The pid of the last stage, whose status is the pipeline's. -/
def Group.last (g : Group) : Int := g.pids.getLastD 0

/-- The state a stage's process is left in: a stage that read from a stage still there
is held back until that one ends. -/
def stageState (e : Host.ShEnd) (upstream : Option Int) (reads : Bool) : Host.ProcState :=
  let ended (ws : WaitStatus) : Host.ProcState :=
    match upstream with
    | some up => if reads then .held ws up else .zombie ws
    | none => .zombie ws
  match e with
  | .exited code => ended (WaitStatus.ofExit code)
  | .killed sig => ended (WaitStatus.ofSignal sig)
  | .stopped sig rest =>
    .stopped sig false { rest with stdout := if rest.stdout == .pipe then .discard else rest.stdout }

/-- Starts the stages of a pipeline on the host, one after the other, each reading what
the one before wrote; the first is the group leader. -/
def startGroup (p : Pipeline) (ps : Host.Procs) : ShellM Group := do
  let environ := (← shell).env.environ
  let snapshot := (← jobs).snapshot
  let cwd := (← world).cwd
  let n := p.stages.length
  let mut ps := ps
  let mut pids : Array Int := #[]
  let mut pgid : Int := 0
  let mut input : Host.Source := .terminal
  let mut upstream : Option Int := none
  for (stage, i) in p.stages.zipIdx do
    let (pid, ps') := ps.fresh
    ps := ps'
    if i == 0 then pgid := pid
    let builtin := isBuiltin stage.name
    let env := environ ++ stage.env ++ (if builtin then [jobsVariable ++ "=" ++ snapshot] else [])
    let sink : Host.Sink := if i + 1 == n then .terminal else .pipe
    let h ← host
    let (e, h) := runStage { h with piped := "" } (stageArgs stage) env cwd pid.toNat input sink
    setHost h
    let st := stageState e upstream (!builtin)
    ps := ps.add { pid, pgid, state := st }
    pids := pids.push pid
    input := .own { data := h.piped }
    upstream := match st with
      | .stopped _ _ _ | .held _ _ => some pid
      | _ => none
  modifyWorld fun w => { w with system := .live ps }
  return { pgid, pids := pids.toList }

/-- Kills and reaps the stages started so far. Before the first stage started there is no
group, and nothing is signalled. -/
def abort (g : Group) : ShellM Unit := do
  if g.pgid == 0 then return
  let _ ← kill (-g.pgid) sigKill
  g.pids.forM fun pid => do
    let _ ← waitFor pid 0

/-- Starts the stages one after the other, the first leading the group. When a stage cannot
be started, the group started so far is aborted and the stage is named in the error. -/
def launchStages (g : Group) : List Command → ShellM (Except String Group)
  | [] => return .ok g
  | stage :: rest => do
    match ← launch with
    | .error e =>
      abort g
      return .error (stage.name ++ ": fork/exec " ++ launcherPath ++ ": " ++ e.message)
    | .ok pid =>
      launchStages { pgid := if g.pgid == 0 then pid else g.pgid, pids := g.pids ++ [pid] } rest

/-- Starts a process group for the pipeline: the pipes between its stages first, then the
stages. A live host runs them as it starts them; elsewhere the system answers each request. -/
def spawn (p : Pipeline) : ShellM (Except String Group) := do
  match (← world).system with
  | .live ps => return .ok (← startGroup p ps)
  | sys =>
    match sys.pipeError p.stages.length with
    | some e => return .error ("pipe: pipe2: " ++ e.message)
    | none => launchStages { pgid := 0, pids := [] } p.stages

/-- Registers stages of a foreground pipeline that were not reaped as a job. When the
table is full they are continued and left untracked. -/
def adopt (text : String) (g : Group) (pids : List Int) (st : JobStatus) : ShellM (Option Int) := do
  match (← jobs).add g.last text (st == .stopped) with
  | .error e =>
    log ("ushell: " ++ e.message ++ ", resuming pipeline untracked")
    let _ ← kill (-g.pgid) sigCont
    setJobs ((← jobs).untrack pids)
    return none
  | .ok (id, t) =>
    setJobs t
    updateJob id fun j => { j with pgid := g.pgid, pids := pids, status := st }
    return some id

/-- Registers a background pipeline as a job and announces it. -/
def registerBackground (p : Pipeline) (g : Group) : ShellM Unit := do
  match (← jobs).add g.last p.display true with
  | .error e =>
    log ("ushell: " ++ e.message ++ ", pipeline runs untracked")
    setJobs ((← jobs).untrack g.pids)
  | .ok (id, t) =>
    setJobs t
    updateJob id fun j => { j with pgid := g.pgid, pids := g.pids }
    match ← job? id with
    | some j =>
      say ("[" ++ toString j.id ++ "] " ++ toString j.pid ++ "\n")
      jobEvent Event.started id
    | none => pure ()

/-- Waits for the stages in order, the keyboard signals going to the group meanwhile. A failed
wait for the last stage leaves the group to later reconciliation as a Running job; a stop
makes the remaining stages a Stopped job. -/
def waitPipeline (p : Pipeline) (g : Group) : ShellM Int :=
  withForeground g.pgid (go g.pids 0)
where
  go : List Int → Int → ShellM Int
    | [], status => return status
    | pid :: rest, status => do
      match ← waitFor pid WaitOptions.untraced with
      | .error e =>
        log ("ushell: wait " ++ toString pid ++ ": " ++ e.message)
        if pid == g.last then
          let _ ← adopt p.display g (pid :: rest) .running
          return execFailure
        go rest status
      | .ok ws =>
        if ws.stopped then
          match ← adopt p.display g (pid :: rest) .stopped with
          | some id =>
            match ← job? id with
            | some j => say (stopNotice j)
            | none => pure ()
            jobEvent Event.stopped id
          | none => pure ()
          return 0
        go rest (if pid == g.last then ws.shellStatus else status)

/-- Runs a pipeline and gives its exit status. -/
def execute (p : Pipeline) : ShellM Int := do
  if p.stages.isEmpty then return 0
  match p.validate with
  | .error e =>
    log ("ushell: " ++ e.message)
    return execFailure
  | .ok () =>
    if let [stage] := p.stages then
      if !p.hasRedirect && !p.background && stage.env.isEmpty then
        if isBuiltin stage.name then
          return ← runBuiltin stage.name stage.args
        if let some tool := Tool.find? stage.name then
          return ← runTool tool stage.args (← world).environ
    match ← spawn p with
    | .error err =>
      log ("ushell: " ++ err)
      recordEvent (.execFailed p.display err)
      return execFailure
    | .ok g =>
      if p.background then
        registerBackground p g
        return 0
      waitPipeline p g

end JobShell

import JobShell.Shell.Exec
import JobShell.Shell.Expansion
import JobShell.Script.Parser

/-!
# Running command lines

The shell runs what it parses statement by statement: simple commands, declarations and
pipes become pipelines, `&&` and `||` run their right side on success or failure of the
left, `if` runs the branch of the first condition that succeeds, and `{ …; }` runs its
body. Every other construct is parsed but refused. A refused or failed statement prints
its error and sets the status to 2; the statements after it still run, unless the shell
was told to quit.

A command with only assignments changes the shell's variables, except in a pipeline or
in the background, where it runs as `true`.

A line is parsed whole before anything runs. A script is parsed and run a line at a
time, so that a syntax error further down stops it only there.
-/
namespace JobShell

open ShellM Script

/-- The stages of a pipe, left to right. -/
def pipeStages (s : Stmt) : List Stmt :=
  match s with
  | .mk (some (.binary .pipe x y)) _ _ _ _ => pipeStages x ++ pipeStages y
  | _ => [s]

/-- Builds the stages of a pipeline statement; `none` when it was a lone assignment
command, which has been applied to the shell. -/
def pipelineOf (s : Stmt) : ShellM (Except String (Option Pipeline)) := do
  let stages := pipeStages s
  let single := stages.length == 1 && !s.background
  let mut built : Array Command := #[]
  for stage in stages do
    let cmd? ← match stage.cmd with
      | some (.call assigns args) => buildCommand assigns args stage.redirs
      | some (.decl variant args) => buildDecl variant args stage.redirs
      | _ => pure (.error (unsupported stage.pos "compound command in a pipeline"))
    match cmd? with
    | .error e => return .error e
    | .ok cmd =>
      if cmd.args.isEmpty then
        if single then
          for pair in cmd.env do
            let (k, v) := splitPair pair
            modifyShell fun sh => { sh with env := sh.env.set k v }
          setStatus 0
          return .ok none
        built := built.push { cmd with args := ["true"] }
      else built := built.push cmd
  return .ok (some { stages := built.toList, background := s.background })

/-- Runs a pipeline statement. -/
def runPipeline (s : Stmt) : ShellM (Except String Unit) := do
  match ← pipelineOf s with
  | .error e => return .error e
  | .ok none => return .ok ()
  | .ok (some p) =>
    if (← shell).stage then
      log ("ushell: " ++ p.display ++ ": no job control in this shell")
      setStatus 1
      return .ok ()
    let code ← execute p
    setStatus code
    if code == execFailure then log "ushell: execution failed"
    return .ok ()

mutual

/-- Runs statements in order until one makes the shell quit. -/
def runStmts : List Stmt → ShellM Unit
  | [] => pure ()
  | s :: rest => do
    if (← shell).quit then return
    match ← runStmt s with
    | .error e =>
      log ("ushell: " ++ e)
      setStatus 2
    | .ok () => pure ()
    runStmts rest
termination_by stmts => (sizeOf stmts, 0)

/-- Runs one statement; `!` inverts its status. -/
def runStmt (s : Stmt) : ShellM (Except String Unit) := do
  match ← runCommand s with
  | .error e => return .error e
  | .ok () =>
    if s.negated then
      let st ← status
      setStatus (if st == 0 then 1 else 0)
    return .ok ()
termination_by (sizeOf s, 2)

/-- Runs the command of a statement. -/
def runCommand (s : Stmt) : ShellM (Except String Unit) :=
  match s with
  | .mk (some (.call _ _)) _ _ _ _ | .mk (some (.decl _ _)) _ _ _ _
  | .mk (some (.binary .pipe _ _)) _ _ _ _ => runPipeline s
  | .mk (some (.binary .pipeAll _ _)) pos _ _ _ =>
    return .error (unsupported pos BinOp.pipeAll.text)
  | .mk (some (.binary op x y)) pos _ background _ => do
    if background then return .error (unsupported pos "background command list")
    match ← runStmt x with
    | .error e => return .error e
    | .ok () =>
      if (← shell).quit then return .ok ()
      if (op == .and) == ((← status) == 0) then runStmt y else return .ok ()
  | .mk (some (.cond clauses)) pos _ background redirs => do
    if background || !redirs.isEmpty then
      return .error (unsupported pos "redirected or background if")
    runClauses clauses
    return .ok ()
  | .mk (some (.block body)) pos _ background redirs => do
    if background || !redirs.isEmpty then
      return .error (unsupported pos "redirected or background block")
    runStmts body
    return .ok ()
  | .mk (some (.other kind)) pos _ _ _ => return .error (unsupported pos kind)
  | .mk none pos _ _ _ => return .error (unsupported pos "redirection without a command")
termination_by (sizeOf s, 1)

/-- Runs the first branch whose condition succeeds; the `else` branch has no condition.
With no branch taken the status is 0. -/
def runClauses : List (List Stmt × List Stmt) → ShellM Unit
  | [] => setStatus 0
  | (cond, body) :: rest => do
    if cond.isEmpty then
      runStmts body
      return
    runStmts cond
    if (← shell).quit then return
    if (← status) == 0 then
      runStmts body
      return
    runClauses rest
termination_by clauses => (sizeOf clauses, 0)

end

/-- Parses and runs one command line; gives the status. -/
def runLine (line : String) : ShellM Int := do
  match parse line with
  | .error e =>
    log ("ushell: syntax error: " ++ e.message)
    setStatus 2
  | .ok stmts =>
    runStmts stmts
    reapChildren
  status

/-- Runs a script a line at a time; `name` prefixes its syntax error. -/
def runScript (text : String) (name : String) : ShellM Int := do
  let (groups, err) := parseLines text
  let mut stopped := false
  for group in groups do
    runStmts group
    reapChildren
    if (← shell).quit then
      stopped := true
      break
  if !stopped then
    if let some e := err then
      log ((if name.isEmpty then shellName else name) ++ ": syntax error: " ++ e.message)
      setStatus 2
  status

/-- Runs the startup commands of the configuration. -/
def runStartup : ShellM Unit := do
  for line in (← shell).settings.startup.getD [] do
    if (← shell).quit then break
    let _ ← runLine line

/-- The signals the shell reacts to. -/
inductive ShellSignal where
  | child
  | interrupt
  | suspend
  deriving DecidableEq, Repr

/-- What the shell does on a signal: a child's change is noted for the next catch-up. An
interrupt or a suspend request goes to the process group in the foreground, if there is one;
otherwise an interrupt starts a fresh line and a suspend request is ignored. -/
def handleSignal : ShellSignal → ShellM Unit
  | .child => modifyShell fun s => { s with childExited := true }
  | .interrupt => do
    let pgid := (← shell).foreground
    if pgid != 0 then
      let _ ← kill (-pgid) sigInt
    else say "\n"
  | .suspend => do
    let pgid := (← shell).foreground
    if pgid != 0 then
      let _ ← kill (-pgid) sigTstp

end JobShell

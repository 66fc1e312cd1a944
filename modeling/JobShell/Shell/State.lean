import JobShell.Env
import JobShell.Config.Settings
import JobShell.Jobs.Table
import JobShell.Fs.Tree
import JobShell.Tools.Run
import JobShell.Jobs.Snapshot
import JobShell.Fs.Path
import JobShell.Host.Procs

/-!
# The shell's state

A session is the shell — its variables, aliases, job table, last status and whether it
was told to quit — together with the world it runs in: the file tree and working
directory, the shared standard input, what it wrote to standard output and error, the
events it logged, and the system that answers its waits and signals.

The system is scripted (waits are answered from queued replies and every signal
misses, since the groups it would go to do not exist; the program that runs a stage does not
exist either, unless the script hands out processes), frozen (a stage's copy of the job
table, where nothing ever changes), or live: the shell's children are processes of the
host, which run, stop and end.
-/
namespace JobShell

/-- An entry of the event log. -/
inductive Event where
  | job (name : String) (j : Job)
  | execFailed (command : String) (error : String)
  deriving Repr

namespace Event

def started : String := "job_started"
def stopped : String := "job_stopped"
def resumed : String := "job_resumed"
def finished : String := "job_done"

/-- The fields of the log entry for an event, besides its time. -/
def fields : Event → List (String × JsonValue)
  | .job name j =>
    [("event", .string name), ("session_id", .string ""), ("job_id", .ofInt j.id),
     ("pid", .ofInt j.pid), ("pgid", .ofInt j.group), ("command", .string j.command),
     ("status", .string j.status.name), ("background", .bool j.background),
     ("exit_status", .ofInt j.exitStatus)]
  | .execFailed command error =>
    [("event", .string "exec_failed"), ("session_id", .string ""),
     ("command", .string command), ("error", .string error)]

end Event

/-- Signal numbers. -/
def sigInt : Nat := 2
def sigKill : Nat := 9
def sigTerm : Nat := 15
def sigCont : Nat := 18
def sigStop : Nat := 19
def sigTstp : Nat := 20

/-- What answers waits and signals. -/
inductive System where
  | scripted (waits : WaitScript)
  | frozen
  | live (procs : Host.Procs)

namespace System

def wait : System → Int → Nat → WaitReply × System
  | .scripted w, pid, opts => let (r, w) := w.answer pid opts; (r, .scripted w)
  | .frozen, _, _ => (WaitReply.nothing, .frozen)
  | .live ps, pid, opts => let (r, ps) := ps.wait pid opts; (r, .live ps)

/-- How many replies in a row may fail to settle a wait for `pid`. -/
def replyBound : System → Int → Nat
  | .scripted w, pid => (w.queueOf pid).length
  | _, _ => 0

/-- The error that making the pipes between `n` stages fails with, if it does. -/
def pipeError : System → Nat → Option Errno
  | .scripted w, n => if 2 ≤ n then w.pipeError else none
  | _, _ => none

/-- Answers a request to start a stage's process: its pid or the error, and the system after.
A scripted system answers from its script; elsewhere the stage program does not exist. A live
host is never asked: it runs its stages itself. -/
def launch : System → Except Errno Int × System
  | .scripted w =>
    match w.launches with
    | r :: rest => (r, .scripted { w with launches := rest })
    | [] => (.error .noent, .scripted w)
  | sys => (.error .noent, sys)

end System

instance : Waiter System where
  wait := System.wait
  interruptBound := System.replyBound

structure Shell where
  env : Env
  settings : Settings := Settings.builtin
  jobs : Table := Table.empty Table.defaultCapacity
  aliases : List (String × String) := []
  history : List String := []
  lastRet : Int := 0
  quit : Bool := false
  exitCode : Int := 0
  /-- Set by SIGCHLD, cleared when the shell catches up with its children. -/
  childExited : Bool := false
  /-- The process group that keyboard signals go to while it has the terminal; 0 while the
  shell itself is in the foreground. -/
  foreground : Int := 0
  /-- A stage's shell runs one builtin and has no job control. -/
  stage : Bool := false

/-- A fault that ended the process, with what it had written to standard output and error
by then. -/
structure Crash where
  fault : Fault
  out : String
  err : String

structure World where
  tree : Fs.Tree
  cwd : List String
  input : Input := {}
  out : String := ""
  err : String := ""
  system : System
  events : Array Event := #[]
  /-- Whether events are logged at all. -/
  recording : Bool := true
  /-- The shell's own process id. -/
  pid : Nat := 1
  /-- The environment the shell process was started with. -/
  environ : List String := []
  /-- The first fault, if one ended the process: nothing written after it reaches anyone. -/
  crashed : Option Crash := none

structure Session where
  shell : Shell
  world : World

abbrev ShellM := StateM Session

namespace ShellM

def shell : ShellM Shell := return (← get).shell

def world : ShellM World := return (← get).world

def modifyShell (f : Shell → Shell) : ShellM Unit :=
  modify fun s => { s with shell := f s.shell }

def modifyWorld (f : World → World) : ShellM Unit :=
  modify fun s => { s with world := f s.world }

/-- Writes to standard output. -/
def say (text : String) : ShellM Unit :=
  modifyWorld fun w => { w with out := w.out ++ text }

/-- Writes to standard error. -/
def warn (text : String) : ShellM Unit :=
  modifyWorld fun w => { w with err := w.err ++ text }

/-- A fault ends the process: what it has written so far is all that it writes. -/
def crash (f : Fault) : ShellM Unit :=
  modifyWorld fun w => { w with crashed := w.crashed <|> some ⟨f, w.out, w.err⟩ }

/-- A diagnostic line on standard error. -/
def log (text : String) : ShellM Unit := warn (text ++ "\n")

def setStatus (n : Int) : ShellM Unit := modifyShell fun s => { s with lastRet := n }

def status : ShellM Int := return (← shell).lastRet

def jobs : ShellM Table := return (← shell).jobs

def setJobs (t : Table) : ShellM Unit := modifyShell fun s => { s with jobs := t }

/-- Rewrites a job of the table. -/
def updateJob (id : Int) (f : Job → Job) : ShellM Unit := do
  match (← jobs).update? id f with
  | some t => setJobs t
  | none => pure ()

def job? (id : Int) : ShellM (Option Job) := return (← jobs).get? id

/-- Logs an event about a job, as it is now in the table. -/
def jobEvent (name : String) (id : Int) : ShellM Unit := do
  if (← world).recording then
    match ← job? id with
    | some j => modifyWorld fun w => { w with events := w.events.push (.job name j) }
    | none => pure ()

def recordEvent (e : Event) : ShellM Unit := do
  if (← world).recording then
    modifyWorld fun w => { w with events := w.events.push e }

/-- One wait call. -/
def waitOnce (pid : Int) (opts : Nat) : ShellM WaitReply := do
  let w ← world
  let (r, sys) := w.system.wait pid opts
  modifyWorld fun w => { w with system := sys }
  return r

/-- Waits until `pid` itself changes state: interrupted waits and replies about other
processes are asked again. -/
def waitFor (pid : Int) (opts : Nat) : ShellM (Except Errno WaitStatus) := do
  let bound := (← world).system.replyBound pid + 1
  go bound
where
  go : Nat → ShellM (Except Errno WaitStatus)
    | 0 => do
      let r ← waitOnce pid opts
      return match r.err with
        | some e => .error e
        | none => .ok r.status
    | n + 1 => do
      let r ← waitOnce pid opts
      match r.err with
      | some .intr => go n
      | some e => return .error e
      | none => if r.pid == pid then return .ok r.status else go n

/-- The part of the world the host's processes share. -/
def host : ShellM Host.Host := do
  let w ← world
  return { tree := w.tree, input := w.input, out := w.out, err := w.err }

def setHost (h : Host.Host) : ShellM Unit :=
  modifyWorld fun w => { w with tree := h.tree, input := h.input, out := h.out, err := h.err }

/-- Sends a signal to a process, or to a process group when the target is negative. The
groups of a scripted system do not exist; it keeps the signal. -/
def kill (target : Int) (sig : Nat) : ShellM (Option Errno) := do
  match (← world).system with
  | .live ps =>
    let (e, ps, h) := ps.signal (← host) target sig
    setHost h
    modifyWorld fun w => { w with system := .live ps }
    return e
  | .scripted s =>
    modifyWorld fun w => { w with system := .scripted { s with signals := s.signals.push (target, sig) } }
    return some .srch
  | .frozen => return some .srch

/-- Asks the system to start a stage's process. -/
def launch : ShellM (Except Errno Int) := do
  let (r, sys) := (← world).system.launch
  modifyWorld fun w => { w with system := sys }
  return r

/-- Runs `m` with the keyboard signals going to the process group `pgid`, and gives them back
to the shell after it. -/
def withForeground {α : Type} (pgid : Int) (m : ShellM α) : ShellM α := do
  modifyShell fun s => { s with foreground := pgid }
  let r ← m
  modifyShell fun s => { s with foreground := 0 }
  return r

/-- Runs a tool on the session's files and streams. -/
def runTool (tool : List String → ToolM Int) (args : List String) (environ : List String) :
    ShellM Int := do
  let w ← world
  let st : ToolState := { tree := w.tree, cwd := w.cwd, input := w.input, environ }
  let (code, st) := (tool args).run st
  modifyWorld fun w => { w with tree := st.tree, input := st.input,
                                 out := w.out ++ st.out, err := w.err ++ st.err }
  return code

end ShellM

/-- A new shell working in `cwd`: its variables come from `environ`, then the
configured environment, exported, and `PWD` names the directory. -/
def Session.start (settings : Settings) (environ : List String) (tree : Fs.Tree)
    (cwd : List String) (stdin : String) (system : System) (processEnv : List String) :
    Session :=
  let env := (settings.environment.getD []).foldl (fun e (kv : String × String) => e.setenv kv.1 kv.2)
    (Env.ofEnviron environ)
  { shell := { env := env.setenv "PWD" (Fs.render cwd), settings,
                aliases := settings.aliases.getD [] }
    world := { tree, cwd, input := { data := stdin }, system, environ := processEnv } }

end JobShell

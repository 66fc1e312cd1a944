import JobShell.Host.Sh
import JobShell.Jobs.Waiter

/-!
# The host's processes

The children a shell starts, as the kernel keeps them for their parent: a child is
stopped (with what it still has to do), done but held back, a zombie whose status waits
to be collected, or reaped.

Stages run as soon as they are started, one after the other, each reading what the one
before wrote. A stage that reads its input from a stage that stopped cannot really have
finished: it would be waiting for more input. Its end is held back until the stage before
it is gone, so that waits see it as still running until then.

Waits follow `wait4`: a zombie is reaped and its status returned, a stop is reported once
to a caller that asked for stops, and otherwise the caller either hears "nothing yet" or,
when it would block, learns that there is nothing to wait for (a blocked wait would never
end here, since nothing runs in the meantime).

Signals go to a process or, with a negative target, to a whole group: continuing a
stopped script runs the rest of it, and `SIGKILL` ends a process.
-/
namespace JobShell.Host

/-- What a child is doing. -/
inductive ProcState where
  /-- Stopped by `sig`; `reported` once a wait has said so; `rest` is what continuing it
  runs. -/
  | stopped (sig : Nat) (reported : Bool) (rest : Sh)
  /-- Done, but reading from `upstream`, which is still there. -/
  | held (ws : WaitStatus) (upstream : Int)
  | zombie (ws : WaitStatus)
  | reaped
  deriving Inhabited

structure Proc where
  pid : Int
  pgid : Int
  state : ProcState
  deriving Inhabited

def Proc.alive (p : Proc) : Bool :=
  match p.state with
  | .reaped => false
  | _ => true

/-- Whether the process can still write to a pipe: it has not ended. -/
def Proc.running (p : Proc) : Bool :=
  match p.state with
  | .stopped _ _ _ | .held _ _ => true
  | _ => false

/-- The children of the shell, and the next free process id. -/
structure Procs where
  procs : List Proc := []
  nextPid : Int := 4000
  deriving Inhabited

namespace Procs

def find? (ps : Procs) (pid : Int) : Option Proc := ps.procs.find? (·.pid == pid)

/-- A fresh process id. -/
def fresh (ps : Procs) : Int × Procs := (ps.nextPid, { ps with nextPid := ps.nextPid + 1 })

def add (ps : Procs) (p : Proc) : Procs := { ps with procs := ps.procs ++ [p] }

def setState (ps : Procs) (pid : Int) (st : ProcState) : Procs :=
  { ps with procs := ps.procs.map fun p => if p.pid == pid then { p with state := st } else p }

/-- Ends a process with a status; the processes held back on it end too. -/
def finish (ps : Procs) (pid : Int) (ws : WaitStatus) : Procs :=
  go (ps.procs.length + 1) (ps.setState pid (.zombie ws)) pid
where
  go : Nat → Procs → Int → Procs
    | 0, ps, _ => ps
    | n + 1, ps, up =>
      match ps.procs.find? fun p => match p.state with
          | .held _ u => u == up
          | _ => false with
      | some p =>
        match p.state with
        | .held ws _ => go n (ps.setState p.pid (.zombie ws)) p.pid
        | _ => ps
      | none => ps

/-- Answers a wait for `pid`. -/
def wait (ps : Procs) (pid : Int) (opts : Nat) : WaitReply × Procs :=
  let block : WaitReply :=
    if opts &&& WaitOptions.noHang != 0 then WaitReply.nothing else WaitReply.failure .child
  match ps.find? pid with
  | none => (WaitReply.failure .child, ps)
  | some p =>
    match p.state with
    | .reaped => (WaitReply.failure .child, ps)
    | .zombie ws => (⟨pid, ws, none⟩, ps.setState pid .reaped)
    | .stopped sig false rest =>
      if opts &&& WaitOptions.untraced != 0 then
        (⟨pid, WaitStatus.ofStop sig, none⟩, ps.setState pid (.stopped sig true rest))
      else (block, ps)
    | .stopped _ true _ => (block, ps)
    | .held _ _ => (block, ps)

/-- The state a script's end leaves its process in. -/
def ended (ps : Procs) (pid : Int) : ShEnd → Procs
  | .exited code => ps.finish pid (WaitStatus.ofExit code)
  | .killed sig => ps.finish pid (WaitStatus.ofSignal sig)
  | .stopped sig rest => ps.setState pid (.stopped sig false rest)

/-- Delivers a signal to one process. -/
def deliver (ps : Procs) (h : Host) (p : Proc) (sig : Nat) : Procs × Host :=
  match p.state, sig with
  | .stopped _ _ rest, 18 =>
    let (e, h) := exec shFuel rest h
    (ps.ended p.pid e, h)
  | .stopped _ _ _, 9 => (ps.finish p.pid (WaitStatus.ofSignal 9), h)
  | _, _ => (ps, h)

/-- Sends a signal to a process, or to a process group when the target is negative. -/
def signal (ps : Procs) (h : Host) (target : Int) (sig : Nat) : Option Errno × Procs × Host :=
  let targets := ps.procs.filter fun p =>
    p.alive && (if target < 0 then p.pgid == -target else p.pid == target)
  if targets.isEmpty then (some .srch, ps, h)
  else
    let (ps, h) := targets.foldl (fun (acc : Procs × Host) p =>
      match acc.1.find? p.pid with
      | some cur => acc.1.deliver acc.2 cur sig
      | none => acc) (ps, h)
    (none, ps, h)

end Procs

end JobShell.Host

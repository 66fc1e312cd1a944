import JobShell.Sys.Errno
import JobShell.Jobs.Status

/-!
# Waiting for children

A wait asks about one pid with a set of option bits and gets back a reply shaped like the
kernel's: a pid and a status word when something changed, pid zero when nothing did
(only with `noHang`), or an error. `Waiter` is the interface the job table waits through;
`WaitScript` is a waiter whose replies are queued in advance, one first-in first-out queue
per pid, and which records every call it answers. It stands for a whole scripted host: it
also answers the requests to make a pipe or to start a process from its script, and keeps
the signals it is sent, none of which reaches a process.
-/
namespace JobShell

/-- Option bits of a wait. -/
def WaitOptions.noHang : Nat := 1
def WaitOptions.untraced : Nat := 2
def WaitOptions.continued : Nat := 8
/-- The options of a status poll: return at once, and report stops and continues too. -/
def WaitOptions.poll : Nat := 11

structure WaitReply where
  pid : Int
  status : WaitStatus
  err : Option Errno
  deriving DecidableEq, Repr, Inhabited

namespace WaitReply

def nothing : WaitReply := ⟨0, ⟨0⟩, none⟩

def failure (e : Errno) : WaitReply := ⟨-1, ⟨0⟩, some e⟩

def interrupted (r : WaitReply) : Bool := r.err == some .intr

end WaitReply

/-- Something that answers waits, with a bound on how many interrupted replies in a row it
can still give for a pid, so that retrying after an interruption ends. -/
class Waiter (σ : Type) where
  wait : σ → Int → Nat → WaitReply × σ
  interruptBound : σ → Int → Nat

/-- Waits for `pid`, asking again after an interrupted reply. -/
def waitPastInterrupts {σ : Type} [Waiter σ] (w : σ) (pid : Int) (opts : Nat) :
    WaitReply × σ :=
  go (Waiter.interruptBound w pid + 1) w
where
  go : Nat → σ → WaitReply × σ
    | 0, w => Waiter.wait w pid opts
    | n + 1, w =>
      let (r, w') := Waiter.wait w pid opts
      if r.interrupted then go n w' else (r, w')

/-- A queued reply: a pid to report (the asked pid by default), a status word, or an
error. -/
structure WaitEntry where
  pid : Option Int := none
  status : WaitStatus := ⟨0⟩
  err : Option Errno := none
  deriving DecidableEq, Repr, Inhabited

/-- Replies queued per pid, the pids known to be gone, and the log of calls; then how the
host answers the requests that set a pipeline up, and the signals it was sent. -/
structure WaitScript where
  queues : List (Int × List WaitEntry) := []
  gone : List Int := []
  calls : Array (Int × Nat) := #[]
  /-- The answers to the requests to start a process, in turn: the new process's pid, or the
  error. Once none is left, the program to start does not exist. -/
  launches : List (Except Errno Int) := []
  /-- The error every request for a pipe fails with, if pipes cannot be made. -/
  pipeError : Option Errno := none
  /-- Every signal sent, with its target. -/
  signals : Array (Int × Nat) := #[]
  deriving Repr, Inhabited

namespace WaitScript

def queueOf (s : WaitScript) (pid : Int) : List WaitEntry :=
  match s.queues.find? (·.1 == pid) with
  | some (_, q) => q
  | none => []

def setQueue (s : WaitScript) (pid : Int) (q : List WaitEntry) : WaitScript :=
  { s with queues := (pid, q) :: s.queues.filter (·.1 != pid) }

/-- Appends replies to a pid's queue. -/
def push (s : WaitScript) (pid : Int) (es : List WaitEntry) : WaitScript :=
  s.setQueue pid (s.queueOf pid ++ es)

/-- Answers one wait: the next queued reply for the pid; with an empty queue, no child
if the pid is gone or the caller would block, and "nothing yet" otherwise. An exit or a
kill reported for the asked pid marks it gone. -/
def answer (s : WaitScript) (pid : Int) (opts : Nat) : WaitReply × WaitScript :=
  let s := { s with calls := s.calls.push (pid, opts) }
  match s.queueOf pid with
  | e :: rest =>
    let s := s.setQueue pid rest
    match e.err with
    | some err => (WaitReply.failure err, s)
    | none =>
      let reported := e.pid.getD pid
      let s := if reported == pid && e.status.ended && !s.gone.contains pid then
          { s with gone := pid :: s.gone }
        else s
      (⟨reported, e.status, none⟩, s)
  | [] =>
    if s.gone.contains pid || opts &&& WaitOptions.noHang == 0 then
      (WaitReply.failure .child, s)
    else (WaitReply.nothing, s)

instance : Waiter WaitScript where
  wait := answer
  interruptBound s pid := (s.queueOf pid).length

/-- Forgets the calls logged so far. -/
def clearCalls (s : WaitScript) : WaitScript := { s with calls := #[] }

end WaitScript

/-- A waiter that never sees a change: it answers every wait with "nothing yet". -/
structure FrozenWaiter where
  deriving Repr, Inhabited

instance : Waiter FrozenWaiter where
  wait w _ _ := (WaitReply.nothing, w)
  interruptBound _ _ := 0

end JobShell

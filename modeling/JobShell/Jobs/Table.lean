import JobShell.Jobs.Job
import JobShell.Jobs.Waiter
import JobShell.Text.Utf8

/-!
# The job table

An ordered, bounded list of jobs. Order is recency: the last job is the current one and the
one before it the previous one. Ids grow with every add and are never reused; `lastId` is
the last id handed out. Pids that the shell started but tracks in no job wait in
`untracked` until a reconciliation reaps them.

A slot of a table read back from a snapshot may hold no job (`none`); the operations of
the table itself only ever store jobs. A reconciliation reads the status of every slot in
turn, and an empty one faults (`Fault.nilJob`): the process panics there. The lookups and
`cleanup` are stated for tables whose slots all hold jobs, which are the tables the shell
builds.
-/
namespace JobShell

/-- The default capacity of a table. -/
def Table.defaultCapacity : Int := 64

/-- The byte bound on a stored display text. -/
def Table.commandLimit : Nat := 1024

inductive TableError where
  | full | noSuchJob | invalidPid
  deriving DecidableEq, Repr

def TableError.message : TableError → String
  | .full => "job table full"
  | .noSuchJob => "no such job"
  | .invalidPid => "invalid pid"

/-- A fault the table does not guard against: reading the job of a slot that holds none
dereferences nothing, and the process panics. -/
inductive Fault where
  | nilJob
  deriving DecidableEq, Repr

/-- The runtime's text for a fault. -/
def Fault.message : Fault → String
  | .nilJob => "runtime error: invalid memory address or nil pointer dereference"

structure Table where
  slots : List (Option Job) := []
  /-- Whether the table ever held a job list; a fresh table holds none. -/
  listed : Bool := false
  lastId : Int := 0
  capacity : Int := Table.defaultCapacity
  untracked : List Int := []
  deriving Repr, Inhabited

open Utf8 in
/-- While the last character of the bytes reads as the one-byte replacement, drops the last
byte. -/
def trimPartial (p : List UInt8) : List UInt8 :=
  if p = [] then p
  else if (decodeLastRune p).1 ≠ runeError ∨ 1 < (decodeLastRune p).2 then p
  else trimPartial p.dropLast
termination_by p.length
decreasing_by simp only [List.length_dropLast]; exact Nat.sub_lt (List.length_pos_iff.mpr ‹_›) Nat.one_pos

/-- A display text's bytes as stored: whole below the limit, else cut to `limit - 1` bytes and
trimmed of a partial character at the end. -/
def truncateBytes (p : List UInt8) : List UInt8 :=
  if p.length < Table.commandLimit then p else trimPartial (p.take (Table.commandLimit - 1))

/-- A display text as stored: the text of its stored bytes. The cut of a text always ends
between two characters, so the bytes read back as text (`truncateCommand_eq_prefixWithin`). -/
def truncateCommand (s : String) : String :=
  if s.utf8ByteSize < Table.commandLimit then s
  else String.fromUTF8! (truncateBytes s.toByteArray.data.toList).toByteArray

namespace Table

/-- An empty table; a capacity that is not positive leaves the default. -/
def empty (capacity : Int) : Table :=
  { capacity := if capacity > 0 then capacity else defaultCapacity }

def jobs (t : Table) : List Job := t.slots.filterMap id

def size (t : Table) : Nat := t.slots.length

/-- Adds a Running job for `pid` as its own group and only stage. -/
def add (t : Table) (pid : Int) (command : String) (background : Bool) :
    Except TableError (Int × Table) :=
  if pid ≤ 0 then .error .invalidPid
  else if (t.size : Int) ≥ t.capacity then .error .full
  else
    let id := t.lastId + 1
    let job : Job := { id, pid, pgid := pid, pids := [pid], command := truncateCommand command,
                       status := .running, background, exitStatus := 0 }
    .ok (id, { t with slots := t.slots ++ [some job], listed := true, lastId := id })

def get? (t : Table) (id : Int) : Option Job := t.jobs.find? (·.id == id)

def getByPid? (t : Table) (pid : Int) : Option Job := t.jobs.find? (·.pid == pid)

/-- The slot at a position in recency order. -/
def slot? (t : Table) (i : Int) : Option (Option Job) :=
  if i < 0 then none else t.slots[i.toNat]?

def current? (t : Table) : Option (Option Job) := t.slot? (t.size - 1)

def previous? (t : Table) : Option (Option Job) := t.slot? (t.size - 2)

/-- The most recent job with the given status. -/
def lastWithStatus? (t : Table) (s : JobStatus) : Option Job :=
  t.jobs.reverse.find? (·.status == s)

/-- `+` marks the current position, `-` the previous one. -/
def marker (t : Table) (i : Int) : Char :=
  if i = t.size - 1 then '+' else if i = t.size - 2 then '-' else ' '

/-- Rewrites the job with the given id; `none` when there is none. -/
def update? (t : Table) (id : Int) (f : Job → Job) : Option Table :=
  if (t.get? id).isSome then
    some { t with slots := t.slots.map (·.map fun j => if j.id == id then f j else j) }
  else none

/-- The index of the first job with the given id. -/
def indexOf? (t : Table) (id : Int) : Option Nat :=
  t.slots.findIdx? fun | some j => j.id == id | none => false

/-- Removes a job, keeping the order of the rest; its unreaped stages other than the
tracked pid become untracked. -/
def remove (t : Table) (id : Int) : Except TableError Table :=
  match t.indexOf? id with
  | some i =>
    let strays := match t.slots[i]? with
      | some (some j) => j.stragglers
      | _ => []
    .ok { t with slots := t.slots.eraseIdx i, untracked := t.untracked ++ strays }
  | none => .error .noSuchJob

def isDone : Option Job → Bool
  | some j => j.status == .done
  | none => false

/-- Removes every Done job and counts them; their stragglers become untracked. -/
def cleanup (t : Table) : Nat × Table :=
  let gone := t.slots.filter isDone
  let strays := (gone.filterMap id).flatMap Job.stragglers
  (gone.length, { t with slots := t.slots.filter (!isDone ·), untracked := t.untracked ++ strays })

/-- Hands pids to the table for reaping without a job. -/
def untrack (t : Table) (pids : List Int) : Table := { t with untracked := t.untracked ++ pids }

section Reconcile

variable {σ : Type} [Waiter σ]

/-- Collects an untracked process without blocking and tells whether it is gone: an
error means it is, "nothing yet" that it is not, and a reply that it is when the process
exited or was killed. -/
def reap (w : σ) (pid : Int) : Bool × σ :=
  let (r, w) := waitPastInterrupts w pid WaitOptions.noHang
  match r.err with
  | some _ => (true, w)
  | none => (if r.pid == 0 then false else r.status.ended, w)

/-- Polls a job's tracked pid and tells whether its status changed. An error means the
process is gone: the job is Done. -/
def poll (w : σ) (j : Job) : Bool × Job × σ :=
  let (r, w) := waitPastInterrupts w j.pid WaitOptions.poll
  match r.err with
  | some _ => (true, { j.forget j.pid with status := .done }, w)
  | none =>
    if r.pid == 0 then (false, j, w)
    else let (c, j) := j.record r.status; (c, j, w)

/-- Reaps a job's stragglers, then polls it; Done jobs are left alone. -/
def refresh (w : σ) (j : Job) : Bool × Job × σ :=
  if j.status == .done then (false, j, w)
  else
    let (j, w) := j.stragglers.foldl
      (fun (acc : Job × σ) pid =>
        let (g, w) := reap acc.2 pid
        (if g then acc.1.forget pid else acc.1, w)) (j, w)
    poll w j

/-- Refreshes every slot in order, collecting the ids of the jobs whose status changed. A
slot that holds no job faults when its status is read. -/
def refreshSlots (w : σ) : List (Option Job) → Except Fault (List Int × List (Option Job) × σ)
  | [] => .ok ([], [], w)
  | none :: _ => .error .nilJob
  | some j :: rest =>
    let (c, j, w) := refresh w j
    match refreshSlots w rest with
    | .ok (ids, rest, w) => .ok (if c then j.id :: ids else ids, some j :: rest, w)
    | .error e => .error e

/-- Keeps the untracked pids that are not gone yet. -/
def reapAll (w : σ) : List Int → List Int × σ
  | [] => ([], w)
  | pid :: rest =>
    let (g, w) := reap w pid
    let (kept, w) := reapAll w rest
    (if g then kept else pid :: kept, w)

/-- Polls every job that is not Done without blocking, records exits, stops and
continues, and reaps untracked pids. Returns the ids of the jobs whose status changed; a slot
that holds no job faults. -/
def reconcile (t : Table) (w : σ) : Except Fault (List Int × Table × σ) :=
  match refreshSlots w t.slots with
  | .ok (ids, slots, w) =>
    let (kept, w) := reapAll w t.untracked
    .ok (ids, { t with slots, untracked := kept }, w)
  | .error e => .error e

end Reconcile

end Table

end JobShell

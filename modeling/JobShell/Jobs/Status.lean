import JobShell.Text.Escaped

/-!
# Job status and wait status

A job is Running, Stopped or Done. A wait reports a process's change as a 32-bit word in
the kernel's layout: the low seven bits hold the signal that ended the process (zero for a
normal exit, all ones for a stop), the next byte the exit code or the stopping signal, and
`0xffff` means "continued". `WaitStatus.shellStatus` turns such a word into the status a
shell reports: the exit code, or 128 plus the signal.
-/
namespace JobShell

inductive JobStatus where
  | running | stopped | done
  deriving DecidableEq, Repr, Inhabited

namespace JobStatus

def name : JobStatus → String
  | running => "Running"
  | stopped => "Stopped"
  | done => "Done"

/-- Status codes number the statuses in order from zero. -/
def code : JobStatus → Int
  | running => 0
  | stopped => 1
  | done => 2

def ofCode? (n : Int) : Option JobStatus :=
  if n = 0 then some running else if n = 1 then some stopped
  else if n = 2 then some done else none

/-- The name of a status code; a code that names no status prints as `Status(n)`. -/
def codeName (n : Int) : String :=
  match ofCode? n with
  | some s => s.name
  | none => s!"Status({n})"

/-- Reads a status name; the names are case-sensitive and exact. -/
def ofName? : String → Option JobStatus
  | "Running" => some running
  | "Stopped" => some stopped
  | "Done" => some done
  | _ => none

/-- The message for a name that is no status. -/
def unknownMessage (text : String) : String :=
  "unknown job status " ++ Text.quoted text

theorem ofName_name (s : JobStatus) : ofName? s.name = some s := by
  cases s <;> rfl

theorem ofCode_code (s : JobStatus) : ofCode? s.code = some s := by
  cases s <;> decide

end JobStatus

structure WaitStatus where
  raw : UInt32
  deriving DecidableEq, Repr, Inhabited

namespace WaitStatus

/-- Reads an integer as a status word, keeping its low 32 bits. -/
def ofInt (n : Int) : WaitStatus := ⟨UInt32.ofNat (n % 4294967296).toNat⟩

def low7 (w : WaitStatus) : Nat := (w.raw &&& 0x7f).toNat

def exited (w : WaitStatus) : Bool := w.low7 == 0

def signaled (w : WaitStatus) : Bool := w.low7 != 0 && w.low7 != 0x7f

def stopped (w : WaitStatus) : Bool := (w.raw &&& 0xff).toNat == 0x7f

def continued (w : WaitStatus) : Bool := w.raw.toNat == 0xffff

/-- The exit code byte of a normal exit. -/
def exitCode (w : WaitStatus) : Nat := (w.raw.toNat / 256) % 256

/-- The signal that ended the process. -/
def signal (w : WaitStatus) : Nat := w.low7

/-- The shell status: the exit code after a normal exit, 128 plus the signal after a
kill, and zero for a stop or a continue. -/
def shellStatus (w : WaitStatus) : Int :=
  if w.exited then w.exitCode
  else if w.signaled then 128 + w.signal
  else 0

/-- A normal exit with the low byte of `code`. -/
def ofExit (code : Int) : WaitStatus := ofInt ((code % 256) * 256)

/-- Death by signal `s` (its low seven bits). -/
def ofSignal (s : Int) : WaitStatus := ofInt (s % 128)

/-- A stop by signal `s` (its low byte). -/
def ofStop (s : Int) : WaitStatus := ofInt (0x7f + (s % 256) * 256)

def resumed : WaitStatus := ⟨0xffff⟩

/-- A process has ended when it exited or was killed. -/
def ended (w : WaitStatus) : Bool := w.exited || w.signaled

end WaitStatus

end JobShell

import JobShell.Log.Report
import JobShell.Proofs.Log.ReadBack
import Mathlib.Data.Multiset.Replicate
import Mathlib.Data.List.Induction

/-!
# What the report counts

The report of a log counts its entries by event: a number per event, and counts per key,
kept as lists of keys with their counts in the order the keys were first seen. Read as
multisets, those counts are exactly the multisets of the keys the entries name.

Counting one entry adds one to the right counters (`Report.tally_update_entry`), so the
report of a list of entries is the direct count over the list (`report_tally`). For the
entries the shell writes, one per `JobEvent` or `ExecFailed` call of a session, each stamped
with the time of the call, this closes the loop with the reader: with any JSON form that follows
the library's rules, the report of the written log is the direct count over the calls
(`report_of_written_log`).
-/
namespace JobShell.Log

open JobShell.Num

/-! ## Counts as multisets -/

/-- The multiset a count per key stands for. -/
def Counts.toMultiset {α : Type} (cs : Counts α) : Multiset α :=
  cs.foldr (fun p m => Multiset.replicate p.2 p.1 + m) 0

/-- The keys of a count, each at most once. -/
def Counts.Distinct {α : Type} (cs : Counts α) : Prop := (cs.map (·.1)).Nodup

section Bump

variable {α : Type} [BEq α] [LawfulBEq α]

omit [BEq α] [LawfulBEq α] in
@[simp] theorem Counts.toMultiset_nil : Counts.toMultiset ([] : Counts α) = 0 := rfl

omit [BEq α] [LawfulBEq α] in
@[simp] theorem Counts.toMultiset_cons (p : α × Nat) (cs : Counts α) :
    Counts.toMultiset (p :: cs) = Multiset.replicate p.2 p.1 + Counts.toMultiset cs := rfl

omit [BEq α] [LawfulBEq α] in
theorem Counts.toMultiset_append (cs ds : Counts α) :
    Counts.toMultiset (cs ++ ds) = Counts.toMultiset cs + Counts.toMultiset ds := by
  induction cs with
  | nil => simp
  | cons p rest ih => rw [List.cons_append, Counts.toMultiset_cons, ih, Counts.toMultiset_cons,
      Multiset.add_assoc]

/-- Adding one to the count of a key present once adds the key once. -/
theorem toMultiset_map_bumped {k : α} {f : α × Nat → α × Nat}
    (bumps : ∀ p, f p = if p.1 == k then (p.1, p.2 + 1) else p) {cs : Counts α}
    (distinct : cs.Distinct) (present : k ∈ cs.map (·.1)) :
    Counts.toMultiset (cs.map f) = k ::ₘ Counts.toMultiset cs := by
  induction cs with
  | nil => simp at present
  | cons p rest ih =>
    simp only [Counts.Distinct, List.map_cons, List.nodup_cons] at distinct
    by_cases same : p.1 = k
    · -- no other key is `k`, so the rest is left as it is
      have untouched : rest.map f = rest := by
        refine (List.map_congr_left fun q member => ?_).trans (List.map_id rest)
        have other : q.1 ≠ k := fun eq => distinct.1 (same ▸ eq ▸ List.mem_map_of_mem member)
        simp [bumps, other]
      rw [List.map_cons, untouched, bumps, if_pos (by simpa using same)]
      simp [same, Multiset.replicate_succ]
    · have later : k ∈ rest.map (·.1) := by simpa [Ne.symm same] using present
      rw [List.map_cons, Counts.toMultiset_cons, ih distinct.2 later, bumps,
        if_neg (by simpa using same), Counts.toMultiset_cons, Multiset.add_cons]

theorem Counts.toMultiset_bump {cs : Counts α} (distinct : cs.Distinct) (k : α) :
    Counts.toMultiset (bump cs k) = k ::ₘ Counts.toMultiset cs := by
  unfold bump
  split
  · rename_i present
    exact toMultiset_map_bumped (fun p => by cases p; rfl) distinct (by simpa using present)
  · rw [Counts.toMultiset_append, Counts.toMultiset_cons, Counts.toMultiset_nil,
      Multiset.replicate_one, Multiset.add_zero, Multiset.add_comm, Multiset.singleton_add]

theorem Counts.Distinct.bump {cs : Counts α} (distinct : cs.Distinct) (k : α) :
    (JobShell.Log.bump cs k).Distinct := by
  unfold JobShell.Log.bump Counts.Distinct at *
  split
  · rw [List.map_map]
    convert distinct using 2
    funext p
    obtain ⟨x, n⟩ := p
    simp only [Function.comp]
    split <;> rfl
  · rename_i absent
    simp only [List.map_append, List.map_cons, List.map_nil]
    refine List.nodup_append.mpr ⟨distinct, List.nodup_singleton _, ?_⟩
    intro a member b other
    simp only [List.mem_singleton] at other
    subst other
    simp only [List.any_eq_true, beq_iff_eq, not_exists, not_and] at absent
    obtain ⟨p, mem, rfl⟩ := List.mem_map.mp member
    exact absent p mem

end Bump

/-! ## Exit statuses -/

/-- An integer up to `2^53` in magnitude comes back from its double unchanged. -/
theorem truncInt_ofInt {n : Int} (small : n.natAbs ≤ 2 ^ 53) : truncInt (Value.ofInt n) = n := by
  rw [Value.ofInt_exact small, truncInt]
  simp only [Nat.pow_eq, Nat.mul_div_cancel _ (Nat.two_pow_pos _)]
  rw [if_neg (by omega)]
  by_cases negative : n < 0
  · simp only [negative, decide_true, if_true]
    omega
  · simp only [negative, decide_false, Bool.false_eq_true, if_false]
    omega

/-! ## The calls of a session -/

/-- A call of a session's log, at the time it is made, in microseconds since the epoch: a job
changing state, or a pipeline that could not start. -/
inductive LogCall where
  | job (micros : Int) (event : String) (j : Job)
  | execFailed (micros : Int) (command error : String)

namespace LogCall

/-- The entry a call writes. -/
def entry (session : String) : LogCall → Entry
  | .job micros event j => jobEntry micros session event j
  | .execFailed micros command error => execFailedEntry micros session command error

def event : LogCall → String
  | .job _ event _ => event
  | .execFailed _ _ _ => Log.execFailed

def command : LogCall → String
  | .job _ _ j => j.command
  | .execFailed _ command _ => command

/-- The error of a call; a job event has none. -/
def error : LogCall → String
  | .job _ _ _ => ""
  | .execFailed _ _ error => error

/-- The exit status of a call; a pipeline that did not start has none. -/
def exitStatus : LogCall → Int
  | .job _ _ j => j.exitStatus
  | .execFailed _ _ _ => 0

/-- The integers a call writes, its time among them, are doubles exactly. -/
def Fits : LogCall → Prop
  | .job micros _ j => micros.natAbs ≤ 2 ^ 53 ∧ j.id.natAbs ≤ 2 ^ 53 ∧ j.pid.natAbs ≤ 2 ^ 53 ∧
      j.pgid.natAbs ≤ 2 ^ 53 ∧ j.exitStatus.natAbs ≤ 2 ^ 53
  | .execFailed micros _ _ => micros.natAbs ≤ 2 ^ 53

end LogCall

/-- The log a session writes for its calls, one line each. -/
def written [Protojson] (session : String) (calls : List LogCall) : String :=
  String.join (calls.map fun c => (c.entry session).line)

theorem jobEntry_eq (micros : Int) (session event : String) (j : Job) :
    jobEntry micros session event j =
      [(timestampMicros, .ofInt micros), ("session_id", .string session), ("event", .string event),
       ("job_id", .ofInt j.id), ("pid", .ofInt j.pid), ("pgid", .ofInt j.group),
       ("command", .string j.command), ("status", .string j.status.name),
       ("background", .bool j.background), ("exit_status", .ofInt j.exitStatus)] := by
  simp [jobEntry, recordEntry, baseEntry, Entry.set, timestampMicros]

theorem execFailedEntry_eq (micros : Int) (session command error : String) :
    execFailedEntry micros session command error =
      [(timestampMicros, .ofInt micros), ("session_id", .string session),
       ("event", .string execFailed), ("command", .string command), ("error", .string error)] := by
  simp [execFailedEntry, recordEntry, baseEntry, Entry.set, timestampMicros]

/-- The entry of a call whose integers fit is plain: scalars under distinct names. -/
theorem LogCall.plain_entry {c : LogCall} (fits : c.Fits) (session : String) :
    (c.entry session).Plain := by
  cases c with
  | job micros event j =>
    obtain ⟨time, id, pid, pgid, status⟩ := fits
    have group : j.group.natAbs ≤ 2 ^ 53 := by unfold Job.group; split <;> assumption
    rw [LogCall.entry, jobEntry_eq]
    refine ⟨by simp only [List.map_cons, List.map_nil, timestampMicros]; decide, ?_⟩
    simp only [List.mem_cons, List.not_mem_nil, or_false, forall_eq_or_imp, forall_eq]
    exact ⟨.int time, .string _, .string _, .int id, .int pid, .int group, .string _, .string _,
      .bool _, .int status⟩
  | execFailed micros command error =>
    rw [LogCall.entry, execFailedEntry_eq]
    refine ⟨by simp only [List.map_cons, List.map_nil, timestampMicros]; decide, ?_⟩
    simp only [List.mem_cons, List.not_mem_nil, or_false, forall_eq_or_imp, forall_eq]
    exact ⟨.int fits, .string _, .string _, .string _, .string _⟩

/-- What the report reads from the entry of a call: the call's session, event, command, error
and exit status. -/
theorem LogCall.report_reads {c : LogCall} (fits : c.Fits) (session : String) :
    ((c.entry session).get "session_id").text = session ∧
    ((c.entry session).get "event").text = c.event ∧
    ((c.entry session).get "command").text = c.command ∧
    ((c.entry session).get "error").text = c.error ∧
    truncInt ((c.entry session).get "exit_status").num = c.exitStatus := by
  cases c with
  | job micros event j =>
    simp only [LogCall.entry, jobEntry_eq, Entry.get, LogCall.event, LogCall.command,
      LogCall.error, LogCall.exitStatus, timestampMicros]
    refine ⟨rfl, rfl, by simp [LogValue.text], by simp [LogValue.text], ?_⟩
    simp only [List.find?, LogValue.num]
    exact truncInt_ofInt fits.2.2.2.2
  | execFailed micros command error =>
    simp only [LogCall.entry, execFailedEntry_eq, Entry.get, LogCall.event, LogCall.command,
      LogCall.error, LogCall.exitStatus, timestampMicros]
    refine ⟨rfl, rfl, by simp [LogValue.text], by simp [LogValue.text], ?_⟩
    -- a missing exit status reads as zero
    show truncInt (.finite false 0) = 0
    rw [truncInt, Nat.zero_div]
    rfl

/-! ## Tallies -/

/-- What a report counts, each count per key read as a multiset. -/
structure Tally where
  entries : Nat
  started : Nat
  stopped : Nat
  resumed : Nat
  done : Nat
  commandNames : Multiset String
  stoppedCommands : Multiset String
  exitStatuses : Multiset (String × String)
  execFailures : Nat
  execErrors : Multiset (String × String)
  unknown : Multiset String

instance : Add Tally where
  add a b :=
    { entries := a.entries + b.entries, started := a.started + b.started,
      stopped := a.stopped + b.stopped, resumed := a.resumed + b.resumed, done := a.done + b.done,
      commandNames := a.commandNames + b.commandNames,
      stoppedCommands := a.stoppedCommands + b.stoppedCommands,
      exitStatuses := a.exitStatuses + b.exitStatuses,
      execFailures := a.execFailures + b.execFailures, execErrors := a.execErrors + b.execErrors,
      unknown := a.unknown + b.unknown }

theorem Tally.add_def (a b : Tally) :
    a + b =
      { entries := a.entries + b.entries, started := a.started + b.started,
        stopped := a.stopped + b.stopped, resumed := a.resumed + b.resumed,
        done := a.done + b.done, commandNames := a.commandNames + b.commandNames,
        stoppedCommands := a.stoppedCommands + b.stoppedCommands,
        exitStatuses := a.exitStatuses + b.exitStatuses,
        execFailures := a.execFailures + b.execFailures,
        execErrors := a.execErrors + b.execErrors, unknown := a.unknown + b.unknown } := rfl

/-- The counts of a pair counter that may not exist yet. -/
def pairCounts (p : Option PairCounts) : Counts (String × String) := (p.map (·.counts)).getD []

/-- The tally of a report. -/
def Report.tally (r : Report) : Tally where
  entries := r.entries
  started := r.started
  stopped := r.stopped
  resumed := r.resumed
  done := r.done
  commandNames := Counts.toMultiset r.commandNames
  stoppedCommands := Counts.toMultiset r.stoppedCommands
  exitStatuses := Counts.toMultiset (pairCounts r.exitStatuses)
  execFailures := r.execFailures
  execErrors := Counts.toMultiset (pairCounts r.execErrors)
  unknown := Counts.toMultiset r.unknown

/-- The events the report counts by name; any other is unknown. -/
def knownEvents : List String := [jobStarted, jobStopped, jobResumed, jobDone, execFailed]

/-- The direct count over a session's calls: how many of each event, and the multisets of
the commands, exit statuses, errors and unknown events they name. -/
def LogCall.tally (calls : List LogCall) : Tally where
  entries := calls.length
  started := calls.countP (·.event == jobStarted)
  stopped := calls.countP (·.event == jobStopped)
  resumed := calls.countP (·.event == jobResumed)
  done := calls.countP (·.event == jobDone)
  commandNames := ((calls.filter (·.event == jobStarted)).map (·.command) : Multiset String)
  stoppedCommands := ((calls.filter (·.event == jobStopped)).map (·.command) : Multiset String)
  exitStatuses := ((calls.filter (·.event == jobDone)).map fun c =>
    (c.command, toString c.exitStatus) : Multiset (String × String))
  execFailures := calls.countP (·.event == Log.execFailed)
  execErrors := ((calls.filter (·.event == Log.execFailed)).map fun c =>
    (c.command, c.error) : Multiset (String × String))
  unknown := ((calls.filter fun c => !knownEvents.contains c.event).map (·.event) : Multiset String)

theorem LogCall.tally_append (xs ys : List LogCall) :
    LogCall.tally (xs ++ ys) = LogCall.tally xs + LogCall.tally ys := by
  simp [LogCall.tally, Tally.add_def, List.countP_append, List.filter_append]

/-! ## The fields the report reads -/

/-- The event an entry names; a missing or non-text event is the empty text. -/
def Entry.event (e : Entry) : String := (e.get "event").text

def Entry.command (e : Entry) : String := (e.get "command").text

def Entry.session (e : Entry) : String := (e.get "session_id").text

/-- The pair a finished job is counted under: its command and its exit status. -/
def Entry.exitPair (e : Entry) : String × String :=
  (Entry.command e, toString (truncInt (e.get "exit_status").num))

/-- The pair a pipeline that could not start is counted under: its command and its error. -/
def Entry.errorPair (e : Entry) : String × String := (Entry.command e, (e.get "error").text)

/-- The direct count over any list of entries, read through the fields the report reads. -/
def Tally.ofEntries (es : List Entry) : Tally where
  entries := es.length
  started := es.countP (Entry.event · == jobStarted)
  stopped := es.countP (Entry.event · == jobStopped)
  resumed := es.countP (Entry.event · == jobResumed)
  done := es.countP (Entry.event · == jobDone)
  commandNames := ((es.filter (Entry.event · == jobStarted)).map Entry.command : Multiset String)
  stoppedCommands := ((es.filter (Entry.event · == jobStopped)).map Entry.command : Multiset String)
  exitStatuses := ((es.filter (Entry.event · == jobDone)).map Entry.exitPair :
    Multiset (String × String))
  execFailures := es.countP (Entry.event · == Log.execFailed)
  execErrors := ((es.filter (Entry.event · == Log.execFailed)).map Entry.errorPair :
    Multiset (String × String))
  unknown := ((es.filter fun e => !knownEvents.contains (Entry.event e)).map Entry.event :
    Multiset String)

theorem Tally.ofEntries_append (xs ys : List Entry) :
    Tally.ofEntries (xs ++ ys) = Tally.ofEntries xs + Tally.ofEntries ys := by
  simp [Tally.ofEntries, Tally.add_def, List.countP_append, List.filter_append]

/-- The counters of a report keep each key once. -/
structure Report.Distinct (r : Report) : Prop where
  commandNames : Counts.Distinct r.commandNames
  stoppedCommands : Counts.Distinct r.stoppedCommands
  exitStatuses : Counts.Distinct (pairCounts r.exitStatuses)
  execErrors : Counts.Distinct (pairCounts r.execErrors)
  unknown : Counts.Distinct r.unknown

theorem pairCounts_bump (p : Option PairCounts) (columns : String × String) (a b : String) :
    pairCounts (some ((p.getD { columns }).bump a b)) = bump (pairCounts p) (a, b) := by
  cases p <;> rfl

theorem Report.Distinct.update {r : Report} (distinct : r.Distinct) (e : Entry) :
    (r.update e).Distinct := by
  obtain ⟨names, stopped, exits, errors, unknown⟩ := distinct
  unfold Report.update
  dsimp only
  -- a new session changes only the list of sessions; each event bumps one counter
  split_ifs <;> constructor <;> simp only [pairCounts_bump] <;>
    first | assumption | exact Counts.Distinct.bump ‹_› _

/-- Counting one entry adds that entry's direct count. -/
theorem Report.tally_update_entry {r : Report} (distinct : r.Distinct) (e : Entry) :
    (r.update e).tally = r.tally + Tally.ofEntries [e] := by
  unfold Report.update
  dsimp only
  simp only [Tally.ofEntries, List.countP_singleton, List.filter_singleton, List.length_singleton]
  generalize (e.get "session_id").text = sid
  obtain ⟨names, stopped, exits, errors, unknown⟩ := distinct
  -- a new session changes only the list of sessions
  by_cases new : (sid.isEmpty || r.sessions.contains sid) = true
  all_goals
    simp only [new, if_true, Bool.false_eq_true, if_false]
    -- the event names differ, so exactly one counter moves, or the count of unknown events
    by_cases known : (e.get "event").text ∈ knownEvents
    · simp only [knownEvents, List.mem_cons, List.not_mem_nil, or_false] at known
      rcases known with named | named | named | named | named <;>
        simp [jobStarted, jobStopped, jobResumed, jobDone, execFailed, knownEvents, Entry.event,
          Entry.command, Entry.exitPair, Entry.errorPair, Report.tally, Tally.add_def,
          Counts.toMultiset_bump, pairCounts_bump, ← Multiset.cons_zero, Multiset.add_cons, *]
    · simp only [knownEvents, List.mem_cons, List.not_mem_nil, or_false, not_or] at known
      obtain ⟨other₁, other₂, other₃, other₄, other₅⟩ := known
      simp [knownEvents, Entry.event, Report.tally, Tally.add_def, Counts.toMultiset_bump,
        ← Multiset.cons_zero, Multiset.add_cons, beq_eq_false_iff_ne.mpr other₁,
        beq_eq_false_iff_ne.mpr other₂, beq_eq_false_iff_ne.mpr other₄,
        beq_eq_false_iff_ne.mpr other₅, *]

/-- An entry with the fields of the one a call writes counts as the call: the report reads
back the call's fields. -/
theorem LogCall.ofEntries_entry {c : LogCall} (fits : c.Fits) {session : String} {e : Entry}
    (same : ∀ k, e.get k = (c.entry session).get k) :
    Tally.ofEntries [e] = LogCall.tally [c] := by
  obtain ⟨-, event, command, error, exit⟩ := c.report_reads fits session
  rw [← same] at event command error exit
  clear same
  simp only [Tally.ofEntries, LogCall.tally, List.filter_cons, List.filter_nil, Entry.event, event]
  split_ifs <;> simp [Entry.event, Entry.command, Entry.exitPair, Entry.errorPair, *]

theorem Report.distinct_empty : ({} : Report).Distinct :=
  ⟨List.nodup_nil, List.nodup_nil, List.nodup_nil, List.nodup_nil, List.nodup_nil⟩

theorem Report.Distinct.foldl {r : Report} (distinct : r.Distinct) (es : List Entry) :
    (es.foldl Report.update r).Distinct := by
  induction es generalizing r with
  | nil => exact distinct
  | cons e es ih => exact ih (distinct.update e)

/-- The report of any list of entries is the direct count over the list. -/
theorem report_tally (es : List Entry) : (report es).tally = Tally.ofEntries es := by
  induction es using List.reverseRecOn with
  | nil => rfl
  | append_singleton es e ih =>
    rw [report, List.foldl_append, List.foldl_cons, List.foldl_nil,
      Report.tally_update_entry (Report.distinct_empty.foldl _), ← report, ih,
      Tally.ofEntries_append]

/-- The report of entries with the fields of a session's calls is the direct count over the
calls. -/
theorem report_tally_calls {session : String} {es : List Entry} {calls : List LogCall}
    (same : List.Forall₂ (fun e c => ∀ k, Entry.get e k = (c.entry session).get k) es calls)
    (fits : ∀ c ∈ calls, c.Fits) :
    (report es).tally = LogCall.tally calls := by
  rw [report_tally]
  induction same with
  | nil => rfl
  | @cons e c es calls fields _ ih =>
    rw [← List.singleton_append, Tally.ofEntries_append, LogCall.ofEntries_entry (fits c (by simp)) fields,
      ih (fun d member => fits d (by simp [member])), ← LogCall.tally_append, List.singleton_append]

instance : DecidablePred LogCall.Fits
  | .job micros _ j => inferInstanceAs (Decidable (micros.natAbs ≤ 2 ^ 53 ∧ j.id.natAbs ≤ 2 ^ 53 ∧
      j.pid.natAbs ≤ 2 ^ 53 ∧ j.pgid.natAbs ≤ 2 ^ 53 ∧ j.exitStatus.natAbs ≤ 2 ^ 53))
  | .execFailed micros _ _ => inferInstanceAs (Decidable (micros.natAbs ≤ 2 ^ 53))

section Written

variable [Protojson]

/-- Writer and reader agree: with a JSON form that follows the library's rules, reading the
log a session writes for its calls gives one entry per call, in order, with the fields the call
recorded, and the report of those entries is the direct count over the calls. -/
theorem report_of_written_log (lawful : Protojson.Lawful) (session : String) (calls : List LogCall)
    (fits : ∀ c ∈ calls, c.Fits) :
    ∃ es, readLog (written session calls) = .ok es ∧
      List.Forall₂ (fun e c => ∀ k, Entry.get e k = (c.entry session).get k) es calls ∧
      (report es).tally = LogCall.tally calls := by
  have plain : ∀ e ∈ calls.map (·.entry session), e.Plain := by
    intro e member
    obtain ⟨c, call, rfl⟩ := List.mem_map.mp member
    exact LogCall.plain_entry (fits c call) session
  obtain ⟨es, read, fields⟩ := lawful.readLog_lines plain
  have same := List.forall₂_map_right_iff.mp fields
  refine ⟨es, ?_, same, report_tally_calls same fits⟩
  rw [List.map_map] at read
  exact read

end Written

/-- A session that starts a job in the background, sees it done with status 3, and fails to
start a pipeline. -/
def backgroundJobCalls : List LogCall :=
  [.job 1700000000000000 jobStarted
      { id := 1, pid := 4242, pgid := 4242, pids := [4242], command := "sleep 5",
        status := .running, background := true, exitStatus := 0 },
   .job 1700000005000000 jobDone
      { id := 1, pid := 4242, pgid := 4242, pids := [], command := "sleep 5",
        status := .done, background := true, exitStatus := 3 },
   .execFailed 1700000005250000 "nosuch" "exec: \"nosuch\": executable file not found in $PATH"]

theorem backgroundJobCalls_read_back :
    (Protojson.Lawful ∧ ∀ c ∈ backgroundJobCalls, c.Fits) ∧
    ∃ es, readLog (written "s-1" backgroundJobCalls) = .ok es ∧
      List.Forall₂ (fun e c => ∀ k, Entry.get e k = (c.entry "s-1").get k) es backgroundJobCalls ∧
      (report es).tally = LogCall.tally backgroundJobCalls :=
  ⟨⟨Protojson.builtin_lawful, by decide⟩,
    report_of_written_log Protojson.builtin_lawful "s-1" backgroundJobCalls (by decide)⟩

end JobShell.Log

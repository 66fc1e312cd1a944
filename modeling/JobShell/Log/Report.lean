import JobShell.Log.Read
import JobShell.Yaml.Write

/-!
# The event log report

The report counts what a log holds:

* every entry, and the sessions named by a non-empty `session_id`;
* jobs started (with a count per command), stopped (with a count per command), resumed,
  and done (with a count per command and exit status);
* pipelines that could not be started (with a count per command and error);
* entries of any other event, counted per event name.

A field of the wrong kind reads as empty: a `command` that is not a text is the empty
text, an `exit_status` that is not a number is 0. The exit status is the number cut to
an integer toward zero.

The report is written as YAML, by way of its JSON text: a count per key is a mapping
whose keys the JSON text lists in text order, whatever order the entries came in. A count
per pair is a list sorted by count, largest first, and then by the pair's JSON text; a
counter that counted nothing is null.
-/
namespace JobShell.Log

open JobShell.Num

/-- Counts per key, in the order keys were first seen. -/
abbrev Counts (α : Type) := List (α × Nat)

/-- Adds one to a key's count. -/
def bump {α : Type} [BEq α] (cs : Counts α) (k : α) : Counts α :=
  if cs.any (·.1 == k) then cs.map fun (x, n) => if x == k then (x, n + 1) else (x, n)
  else cs ++ [(k, 1)]

/-- Counts per pair of values, with the names of the two columns. A counter that was
never used is absent. -/
structure PairCounts where
  columns : String × String
  counts : Counts (String × String) := []

def PairCounts.bump (p : PairCounts) (a b : String) : PairCounts :=
  { p with counts := JobShell.Log.bump p.counts (a, b) }

/-- What a report has counted. -/
structure Report where
  entries : Nat := 0
  sessions : List String := []
  unknown : Counts String := []
  started : Nat := 0
  stopped : Nat := 0
  resumed : Nat := 0
  done : Nat := 0
  commandNames : Counts String := []
  stoppedCommands : Counts String := []
  exitStatuses : Option PairCounts := none
  execFailures : Nat := 0
  execErrors : Option PairCounts := none

/-- A double cut to a 64-bit integer toward zero; a magnitude from 2^63 on gives the
lowest integer. -/
def truncInt (v : Num.Value) : Int :=
  match v with
  | .finite neg s =>
    let m := s / Nat.pow 2 double.shift
    if m ≥ 9223372036854775808 then -9223372036854775808 else if neg then -(m : Int) else m
  | _ => -9223372036854775808

/-- Counts one entry. -/
def Report.update (r : Report) (e : Entry) : Report :=
  let r := { r with entries := r.entries + 1 }
  let session := (e.get "session_id").text
  let r := if session.isEmpty || r.sessions.contains session then r
    else { r with sessions := r.sessions ++ [session] }
  let command := (e.get "command").text
  let event := (e.get "event").text
  if event == jobStarted then
    { r with started := r.started + 1, commandNames := bump r.commandNames command }
  else if event == jobStopped then
    { r with stopped := r.stopped + 1, stoppedCommands := bump r.stoppedCommands command }
  else if event == jobResumed then { r with resumed := r.resumed + 1 }
  else if event == jobDone then
    let p := r.exitStatuses.getD { columns := ("command", "exit_status") }
    { r with done := r.done + 1,
             exitStatuses := some (p.bump command (toString (truncInt (e.get "exit_status").num))) }
  else if event == execFailed then
    let p := r.execErrors.getD { columns := ("command", "error") }
    { r with execFailures := r.execFailures + 1,
             execErrors := some (p.bump command (e.get "error").text) }
  else { r with unknown := bump r.unknown event }

/-- The report of a list of entries. -/
def report (es : List Entry) : Report := es.foldl Report.update {}

/-- A count per key as JSON: null when nothing was counted. The keys come in the order of
their text, as a JSON writer writes a map; the YAML writer starts its own sort from there. -/
def countsJson (cs : Counts String) : JsonValue :=
  if cs.isEmpty then .null
  else .object ((cs.mergeSort fun a b => decide (a.1 ≤ b.1)).map fun (k, n) => (k, .number (toString n)))

/-- The JSON text of a pair, which orders pairs of equal count. -/
def pairKey (a b : String) : String := "[" ++ JsonText.quote true a ++ "," ++ JsonText.quote true b ++ "]"

/-- Counts per pair as JSON: a list sorted by count, largest first, then by the pair's
JSON text. -/
def pairCountsJson : Option PairCounts → JsonValue
  | none => .null
  | some p =>
    if p.counts.isEmpty then .null
    else
      let sorted := p.counts.mergeSort fun ((a1, b1), n1) ((a2, b2), n2) =>
        n1 > n2 || (n1 == n2 && decide (pairKey a1 b1 ≤ pairKey a2 b2))
      .array (sorted.map fun ((a, b), n) =>
        .object [("count", .number (toString n)),
                 ("event", .object [(p.columns.1, .string a), (p.columns.2, .string b)])])

/-- The report as JSON. -/
def Report.toJson (r : Report) : JsonValue :=
  let num (n : Nat) : JsonValue := .number (toString n)
  .object
    [("sessions", num r.sessions.length), ("log_entries", num r.entries),
     ("unknown_log_entries", countsJson r.unknown),
     ("job_report", .object
       [("started", num r.started), ("stopped", num r.stopped), ("resumed", num r.resumed),
        ("done", num r.done), ("command_names", countsJson r.commandNames),
        ("stopped_commands", countsJson r.stoppedCommands),
        ("exit_statuses", pairCountsJson r.exitStatuses)]),
     ("exec_failed_report", .object
       [("count", num r.execFailures), ("errors", pairCountsJson r.execErrors)])]

/-- The report as YAML. -/
def Report.toYaml (r : Report) : String := Yaml.write r.toJson

/-- Reads a log and writes its report, or gives the error that stopped the reading. -/
def reportLog [Protojson] (text : String) : Except String String :=
  (readLog text).map fun es => (report es).toYaml

end JobShell.Log

import JobShell.Json.Value
import JobShell.Num.Binary64
import JobShell.Jobs.Job

/-!
# Event log entries

An entry of the event log is a record of named values. A value is null, a boolean, a
number (always a double), a text, a record, or a list. The log keeps one entry per line, in
the JSON form of protocol buffers: a `Protojson` writes a record as the text of a JSON object
and reads such a text back. The shell's own (`Protojson.builtin`, with the reader) writes the
members compactly and in sorted order.

Every number becomes a double when it enters a log value, so an integer beyond 2^53
comes back rounded: `9007199254740993` is logged as `9007199254740992`.

The entries the shell writes are those of a job changing state (its id, pid, process
group, command, status, background flag and exit status), and of a pipeline that could
not be started (its command and the error). Every entry names the time it was recorded, in
microseconds, its event and its session.
-/
namespace JobShell.Log

open JobShell.Num

/-- A value in a log entry. -/
inductive LogValue where
  | null
  | bool (b : Bool)
  | number (v : Num.Value)
  | string (s : String)
  | struct (fields : List (String × LogValue))
  | list (items : List LogValue)
  deriving Repr, Inhabited

/-- A log entry: its fields, each name at most once. -/
abbrev Entry := List (String × LogValue)

/-- Sets a field, replacing the value of a field of that name. -/
def Entry.set (e : Entry) (k : String) (v : LogValue) : Entry :=
  if e.any (·.1 == k) then e.map fun p => if p.1 == k then (k, v) else p else e ++ [(k, v)]

/-- The value of a field; a missing field reads as null. -/
def Entry.get (e : Entry) (k : String) : LogValue :=
  match e.find? (·.1 == k) with
  | some (_, v) => v
  | none => .null

/-- Drops a field. -/
def Entry.erase (e : Entry) (k : String) : Entry := e.filter (·.1 != k)

/-- The text of a value; any other kind of value reads as the empty text. -/
def LogValue.text : LogValue → String
  | .string s => s
  | _ => ""

/-- The number of a value; any other kind of value reads as zero. -/
def LogValue.num : LogValue → Num.Value
  | .number v => v
  | _ => .finite false 0

/-- A number as a log value. -/
def LogValue.ofInt (n : Int) : LogValue := .number (Value.ofInt n)

mutual

/-- A JSON value as a log value: numbers are read as doubles, and a member named twice
keeps its last value. -/
def LogValue.ofJson : JsonValue → LogValue
  | .null => .null
  | .bool b => .bool b
  | .number lit => .number ((Value.ofText? lit).getD (.finite false 0))
  | .string s => .string s
  | .array items => .list (LogValue.ofJsonList items)
  | .object ms => .struct (LogValue.ofJsonMembers [] ms)

def LogValue.ofJsonList : List JsonValue → List LogValue
  | [] => []
  | v :: rest => LogValue.ofJson v :: LogValue.ofJsonList rest

def LogValue.ofJsonMembers (acc : Entry) : List (String × JsonValue) → Entry
  | [] => acc
  | (k, v) :: rest => LogValue.ofJsonMembers (acc.set k (LogValue.ofJson v)) rest

end

/-- Sorts fields by name. -/
def sortFields (fs : List (String × LogValue)) : List (String × LogValue) :=
  fs.mergeSort fun a b => decide (a.1 ≤ b.1)

/-- The JSON text of a double in a log line: the shortest digits, in plain notation
unless the magnitude is below `1e-6` or from `1e21` on; the special values as texts. -/
def numberText (v : Num.Value) : String :=
  match v with
  | .nan => "\"NaN\""
  | .inf false => "\"Infinity\""
  | .inf true => "\"-Infinity\""
  | .finite _ _ => formatJson v

mutual

/-- The JSON text of a value: compact, with record members in sorted order, and texts
escaped only where JSON requires it. -/
def LogValue.render : LogValue → String
  | .null => "null"
  | .bool b => if b then "true" else "false"
  | .number v => numberText v
  | .string s => JsonText.quote false s
  | .struct fs => "\x7b" ++ LogValue.renderFields true fs ++ "\x7d"
  | .list items => "[" ++ LogValue.renderItems true items ++ "]"

def LogValue.renderFields (first : Bool) : List (String × LogValue) → String
  | [] => ""
  | (k, v) :: rest =>
    (if first then "" else ",") ++ JsonText.quote false k ++ ":" ++ LogValue.render v ++
      LogValue.renderFields false rest

def LogValue.renderItems (first : Bool) : List LogValue → String
  | [] => ""
  | v :: rest => (if first then "" else ",") ++ LogValue.render v ++ LogValue.renderItems false rest

end

/-- How the log writes a record as JSON and reads it back: the text a record is written as,
and the record that the text of one JSON value is read as, or the message of why it is not
one. -/
class Protojson where
  marshal : Entry → String
  unmarshal : List Char → Except String Entry

/-- The line an entry is written as, with its end of line. -/
def Entry.line [Protojson] (e : Entry) : String := Protojson.marshal e ++ "\n"

/-- Event names. -/
def jobStarted : String := "job_started"
def jobStopped : String := "job_stopped"
def jobResumed : String := "job_resumed"
def jobDone : String := "job_done"
def execFailed : String := "exec_failed"

/-- The field of the time an entry is recorded, in microseconds since the epoch. -/
def timestampMicros : String := "timestamp_micros"

/-- The fields every entry starts with: the time it is recorded, its session and its event. -/
def baseEntry (micros : Int) (session event : String) : Entry :=
  [(timestampMicros, .ofInt micros), ("session_id", .string session), ("event", .string event)]

/-- An entry recorded at `micros` with extra fields, which may replace the time, the session
and the event. -/
def recordEntry (micros : Int) (session event : String) (fields : Entry) : Entry :=
  fields.foldl (fun e (k, v) => e.set k v) (baseEntry micros session event)

/-- The entry of a job changing state. -/
def jobEntry (micros : Int) (session event : String) (j : Job) : Entry :=
  recordEntry micros session event
    [("job_id", .ofInt j.id), ("pid", .ofInt j.pid), ("pgid", .ofInt j.group),
     ("command", .string j.command), ("status", .string j.status.name),
     ("background", .bool j.background), ("exit_status", .ofInt j.exitStatus)]

/-- The entry of a pipeline that could not be started. -/
def execFailedEntry (micros : Int) (session command error : String) : Entry :=
  recordEntry micros session execFailed [("command", .string command), ("error", .string error)]

end JobShell.Log

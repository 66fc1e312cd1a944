import JobShell.Jobs.Table
import JobShell.Json.Decode

/-!
# Table snapshots

A snapshot is the JSON text of a table's last id and its jobs in order:
`{"last_id":N,"jobs":[…]}`, each job as
`{"id","pid","pgid","pids","command","status","background","exit_status"}` with `pids`
left out when empty and the status by name. A table that never held a job list writes
`"jobs":null`, an empty slot `null`.

Reading a snapshot back gives a table with the default capacity, or more if it holds more
jobs, and no untracked pids.
-/
namespace JobShell

namespace Job

def toJson (j : Job) : JsonValue :=
  .object <|
    [("id", .ofInt j.id), ("pid", .ofInt j.pid), ("pgid", .ofInt j.pgid)] ++
    (if j.pids.isEmpty then [] else [("pids", .array (j.pids.map .ofInt))]) ++
    [("command", .string j.command), ("status", .string j.status.name),
     ("background", .bool j.background), ("exit_status", .ofInt j.exitStatus)]

def zero : Job :=
  { id := 0, pid := 0, pgid := 0, pids := [], command := "", status := .running,
    background := false, exitStatus := 0 }

def fields : List String :=
  ["id", "pid", "pgid", "pids", "command", "status", "background", "exit_status"]

open JsonDecode in
/-- Sets one field of a job from a member value. -/
def decodeField (p : Place) (j : Job) (field : String) (v : JsonValue) : Except DecodeError Job :=
  let q := p.child field
  match field with
  | "id" => return { j with id := ← int q j.id v }
  | "pid" => return { j with pid := ← int q j.pid v }
  | "pgid" => return { j with pgid := ← int q j.pgid v }
  | "pids" => return { j with pids := ← intList q v }
  | "command" => return { j with command := ← string q j.command v }
  | "background" => return { j with background := ← bool q j.background v }
  | "exit_status" => return { j with exitStatus := ← int q j.exitStatus v }
  | "status" =>
    match v with
    | .null => .ok j
    | .string s =>
      match JobStatus.ofName? s with
      | some st => .ok { j with status := st }
      | none => .error (.custom (JobStatus.unknownMessage s))
    | other => .error (.mismatch other.kindName q.record q.path "jobs.Status"
        (some "JSON value must be string type"))
  | _ => .ok j

open JsonDecode in
/-- Reads a job object member by member, in written order. -/
def decode (p : Place) (members : List (String × JsonValue)) : Except DecodeError Job :=
  members.foldlM (fun j (k, v) =>
    match namesField fields k with
    | some f => decodeField p j f v
    | none => .ok j) zero

end Job

namespace Table

def slotJson : Option Job → JsonValue
  | some j => j.toJson
  | none => .null

def toJson (t : Table) : JsonValue :=
  .object [("last_id", .ofInt t.lastId),
           ("jobs", if t.listed then .array (t.slots.map slotJson) else .null)]

/-- The snapshot text, with `<`, `>` and `&` escaped. -/
def snapshot (t : Table) : String := t.toJson.compact true

/-- What a snapshot holds. -/
structure Image where
  lastId : Int := 0
  listed : Bool := false
  slots : List (Option Job) := []

open JsonDecode in
def decodeSlots (p : Place) : JsonValue → Except DecodeError (Bool × List (Option Job))
  | .null => .ok (false, [])
  | .array items => do
    let slots ← items.zipIdx.mapM fun (v, i) =>
      let q := p.child (toString i)
      match v with
      | .null => .ok none
      | .object ms => some <$> Job.decode q ms
      | other => .error (.mismatch other.kindName q.record q.path "jobs.Job" none)
    return (true, slots)
  | other => .error (.mismatch other.kindName p.record p.path "[]*jobs.Job" none)

open JsonDecode in
def decodeImage : JsonValue → Except DecodeError Image
  | .null => .ok {}
  | .object ms =>
    let root : Place := { record := "snapshot", path := "" }
    ms.foldlM (fun img (k, v) =>
      match namesField ["last_id", "jobs"] k with
      | some "last_id" => do
        let n ← int (root.child "last_id") img.lastId v
        return { img with lastId := n }
      | some _ => do
        let (listed, slots) ← decodeSlots (root.child "jobs") v
        return { img with listed, slots }
      | none => .ok img) {}
  | other => .error (.wholeMismatch other.kindName "jobs.snapshot")

/-- Rebuilds a table from snapshot text. -/
def restore (text : String) : Except DecodeError Table := do
  let v ← (JsonValue.read text).mapError .malformed
  let img ← decodeImage v
  let cap := max defaultCapacity (img.slots.length : Int)
  return { slots := img.slots, listed := img.listed, lastId := img.lastId, capacity := cap }

end Table

end JobShell

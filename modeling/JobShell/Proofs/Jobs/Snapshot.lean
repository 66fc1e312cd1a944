import JobShell.Jobs.Snapshot
import JobShell.Proofs.Json.Roundtrip
import JobShell.Proofs.Jobs.Invariant

/-!
# Snapshots read back

A table's snapshot reads back as the same last id, list flag and slots, with the default
capacity or more, exactly when every integer of the table is a 64-bit value, the range of the
integers a table holds (`Table.restore_snapshot_eq_ok`). The only other thing the text could
lose is a job list that holds slots while the table says it never held one, which no table
the operations build has.

Each record reader is shown to succeed on the text of a value exactly when its integers fit,
and then to give the value back: integers (`int_ofInt_bind`), integer lists
(`intList_ofInts_bind`), jobs (`Job.decode_members`), slot lists (`Table.decodeSlots_array`)
and the whole image (`Table.decodeImage_toJson`).
-/
namespace JobShell

namespace JsonDecode

/-- The range of a 64-bit signed integer, the integers a table holds. -/
def Int64Range (n : Int) : Prop := -9223372036854775808 ≤ n ∧ n < 9223372036854775808

instance : DecidablePred Int64Range := fun _ => inferInstanceAs (Decidable (_ ∧ _))

theorem bind_ok {ε α β : Type} {x : Except ε α} {f : α → Except ε β} {r : β} :
    (x >>= f) = .ok r ↔ ∃ a, x = .ok a ∧ f a = .ok r := by
  cases x with
  | error e =>
    constructor
    · intro failed
      cases failed
    · rintro ⟨_, failed, _⟩
      cases failed
  | ok a =>
    constructor
    · intro success
      exact ⟨a, rfl, success⟩
    · rintro ⟨_, same, success⟩
      cases same
      exact success

theorem int_ofInt (q : Place) (cur n : Int) :
    int q cur (.ofInt n) =
      if Int64Range n then .ok n
      else .error (.mismatch ("number " ++ toString n) q.record q.path "int" none) := by
  simp only [int, JsonValue.ofInt, int64?_toString, Int64Range]
  by_cases fits : -9223372036854775808 ≤ n ∧ n < 9223372036854775808
  · simp [fits]
  · simp [fits]

@[simp] theorem ok_bind {ε α β : Type} (a : α) (f : α → Except ε β) :
    (Except.ok a >>= f) = f a := rfl

@[simp] theorem int_ofInt_map {β : Type} {q : Place} {cur n : Int} {f : Int → β} {r : β} :
    (f <$> int q cur (.ofInt n)) = .ok r ↔ Int64Range n ∧ f n = r := by
  rw [int_ofInt]
  by_cases fits : Int64Range n
  · simp [fits, Functor.map, Except.map]
  · simp [fits, Functor.map, Except.map]

@[simp] theorem int_ofInt_bind {β : Type} {q : Place} {cur n : Int}
    {f : Int → Except DecodeError β} {r : β} :
    (int q cur (.ofInt n) >>= f) = .ok r ↔ Int64Range n ∧ f n = .ok r := by
  rw [bind_ok, int_ofInt]
  by_cases fits : Int64Range n
  · simp [fits]
  · simp [fits]

theorem map_ok {ε α β : Type} {x : Except ε α} {f : α → β} {r : β} :
    (f <$> x) = .ok r ↔ ∃ a, x = .ok a ∧ f a = r := by
  cases x with
  | error e => simp [Functor.map, Except.map]
  | ok a => simp [Functor.map, Except.map]

/-- A reader run item by item over an encoded list succeeds exactly when it succeeds on every
item, and then gives the list back. -/
theorem mapM_zipIdx_map {α β ε : Type} (enc : α → β) (good : α → Prop)
    (f : β × Nat → Except ε α) (each : ∀ a i r, f (enc a, i) = .ok r ↔ good a ∧ r = a)
    (l l' : List α) (start : Nat) :
    ((l.map enc).zipIdx start).mapM f = .ok l' ↔ (∀ a ∈ l, good a) ∧ l' = l := by
  induction l generalizing l' start with
  | nil =>
    simp only [List.map_nil, List.zipIdx_nil, List.mapM_nil, List.not_mem_nil]
    exact ⟨fun same => ⟨fun _ absurd => absurd.elim, (Except.ok.inj same).symm⟩,
      fun ⟨_, same⟩ => by rw [same]; rfl⟩
  | cons a rest ih =>
    simp only [List.map_cons, List.zipIdx_cons, List.mapM_cons, List.mem_cons,
      forall_eq_or_imp, bind_ok]
    constructor
    · rintro ⟨r, read, rest', reads, same⟩
      obtain ⟨fits, rfl⟩ := (each a start r).mp read
      obtain ⟨all_fit, rfl⟩ := (ih rest' (start + 1)).mp reads
      cases same
      exact ⟨⟨fits, all_fit⟩, rfl⟩
    · rintro ⟨⟨fits, all_fit⟩, rfl⟩
      exact ⟨a, (each a start a).mpr ⟨fits, rfl⟩, rest,
        (ih rest (start + 1)).mpr ⟨all_fit, rfl⟩, rfl⟩

theorem int_ofInt_eq_ok {q : Place} {cur n r : Int} :
    int q cur (.ofInt n) = .ok r ↔ Int64Range n ∧ r = n := by
  rw [int_ofInt]
  by_cases fits : Int64Range n
  · simp [fits, eq_comm]
  · simp [fits]

@[simp] theorem intList_ofInts_bind {β : Type} {q : Place} {l : List Int}
    {f : List Int → Except DecodeError β} {r : β} :
    (intList q (.array (l.map JsonValue.ofInt)) >>= f) = .ok r ↔
      (∀ n ∈ l, Int64Range n) ∧ f l = .ok r := by
  have reads := mapM_zipIdx_map JsonValue.ofInt Int64Range
    (fun item => int (q.child (toString item.2)) 0 item.1) (fun n _ _ => int_ofInt_eq_ok) l
  rw [bind_ok]
  constructor
  · rintro ⟨l', read, success⟩
    obtain ⟨all_fit, rfl⟩ := (reads l' 0).mp read
    exact ⟨all_fit, success⟩
  · rintro ⟨all_fit, success⟩
    exact ⟨l, (reads l 0).mpr ⟨all_fit, rfl⟩, success⟩

end JsonDecode

open JsonDecode

namespace Job

/-- Every integer of the job is a 64-bit value. -/
def InRange (j : Job) : Prop :=
  Int64Range j.id ∧ Int64Range j.pid ∧ Int64Range j.pgid ∧ (∀ p ∈ j.pids, Int64Range p) ∧
    Int64Range j.exitStatus

theorem integral_toJson (j : Job) : j.toJson.Integral := by
  unfold toJson
  apply JsonValue.Integral.object
  intro m member
  simp only [List.mem_append, List.mem_cons, List.not_mem_nil, or_false] at member
  rcases member with ((rfl | rfl | rfl) | pids) | (rfl | rfl | rfl | rfl)
  all_goals try exact .int _
  · split at pids
    · simp at pids
    · simp only [List.mem_singleton] at pids
      subst pids
      exact .array fun x member => by
        obtain ⟨n, -, rfl⟩ := List.mem_map.mp member
        exact .int n
  · exact .string _
  · exact .string _
  · exact .bool _

/-- A job's members, as its text writes them, read back as the job exactly when its integers
are 64-bit values. -/
theorem decode_members (p : Place) (j j' : Job) :
    decode p ([("id", .ofInt j.id), ("pid", .ofInt j.pid), ("pgid", .ofInt j.pgid)] ++
        (if j.pids.isEmpty then [] else [("pids", .array (j.pids.map .ofInt))]) ++
        [("command", .string j.command), ("status", .string j.status.name),
         ("background", .bool j.background), ("exit_status", .ofInt j.exitStatus)]) = .ok j' ↔
      j.InRange ∧ j' = j := by
  obtain ⟨id, pid, pgid, pids, command, status, background, exitStatus⟩ := j
  by_cases empty : pids = []
  · subst empty
    simp [decode, namesField, fields, decodeField, JsonDecode.string, JsonDecode.bool,
      JobStatus.ofName_name, InRange, zero]
    simp only [and_assoc, @eq_comm Job _ j']
  · have listed : pids.isEmpty = false := List.isEmpty_eq_false_iff.mpr empty
    simp [decode, namesField, fields, decodeField, JsonDecode.string, JsonDecode.bool,
      JobStatus.ofName_name, InRange, listed]
    simp only [and_assoc, @eq_comm Job _ j']

end Job

namespace Table

theorem decodeSlots_array (p : Place) (slots : List (Option Job)) (r : Bool × List (Option Job)) :
    decodeSlots p (.array (slots.map slotJson)) = .ok r ↔
      (∀ s ∈ slots, ∀ j ∈ s, j.InRange) ∧ r = (true, slots) := by
  simp only [decodeSlots, bind_ok]
  refine (exists_congr fun slots' => and_congr_left fun _ =>
    mapM_zipIdx_map slotJson (fun s => ∀ j ∈ s, j.InRange) _ ?each slots slots' 0).trans ?_
  case each =>
    intro s i r
    cases s with
    | none => simp [slotJson, eq_comm]
    | some j =>
      simp only [slotJson, Job.toJson, map_ok, Job.decode_members]
      simp [eq_comm]
  constructor
  · rintro ⟨_, ⟨fits, rfl⟩, same⟩
    exact ⟨fits, (Except.ok.inj same).symm⟩
  · rintro ⟨fits, rfl⟩
    exact ⟨slots, ⟨fits, rfl⟩, rfl⟩

/-- Every integer the table's snapshot writes is a 64-bit value. -/
def InRange (t : Table) : Prop := Int64Range t.lastId ∧ ∀ s ∈ t.slots, ∀ j ∈ s, j.InRange

theorem decodeImage_toJson (t : Table) (consistent : t.listed = false → t.slots = [])
    (img : Image) :
    decodeImage t.toJson = .ok img ↔ t.InRange ∧ img = ⟨t.lastId, t.listed, t.slots⟩ := by
  have last : namesField ["last_id", "jobs"] "last_id" = some "last_id" := rfl
  have jobs : namesField ["last_id", "jobs"] "jobs" = some "jobs" := rfl
  obtain ⟨slots, listed, lastId, capacity, untracked⟩ := t
  cases listed with
  | false =>
    obtain rfl : slots = [] := consistent rfl
    simp [toJson, decodeImage, last, jobs, decodeSlots, InRange]
    simp only [@eq_comm Image _ img, implies_true]
  | true =>
    simp [toJson, decodeImage, last, jobs, InRange, map_ok, decodeSlots_array]
    simp only [and_assoc, @eq_comm Image _ img]

theorem integral_toJson (t : Table) : t.toJson.Integral := by
  apply JsonValue.Integral.object
  intro m member
  simp only [List.mem_cons, List.not_mem_nil, or_false] at member
  rcases member with rfl | rfl
  · exact .int _
  · cases t.listed
    · exact .null
    · refine .array fun x member => ?_
      obtain ⟨s, -, rfl⟩ := List.mem_map.mp member
      cases s with
      | none => exact .null
      | some j => exact j.integral_toJson

/-- A table's snapshot reads back as its last id, list flag and slots, with the default
capacity or more, exactly when every integer of the table is a 64-bit value. -/
theorem restore_snapshot_eq_ok (t t' : Table) (consistent : t.listed = false → t.slots = []) :
    restore t.snapshot = .ok t' ↔
      t.InRange ∧ t' = { slots := t.slots, listed := t.listed, lastId := t.lastId,
                         capacity := max defaultCapacity t.slots.length } := by
  have reads : JsonValue.read t.snapshot = .ok t.toJson :=
    JsonValue.read_compact (integral_toJson t) true
  simp only [restore, reads, Except.mapError, ok_bind, bind_ok, decodeImage_toJson t consistent]
  constructor
  · rintro ⟨_, ⟨fits, rfl⟩, same⟩
    exact ⟨fits, (Except.ok.inj same).symm⟩
  · rintro ⟨fits, rfl⟩
    exact ⟨_, ⟨fits, rfl⟩, rfl⟩

end Table

end JobShell

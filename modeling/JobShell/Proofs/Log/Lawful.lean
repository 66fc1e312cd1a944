import Mathlib.Data.List.Forall2
import Mathlib.Algebra.Group.Nat.Defs
import JobShell.Log.Read
import JobShell.Proofs.Json.Roundtrip

/-!
# JSON forms that follow the library's rules

The log writes each entry with a `Protojson` and reads it back with the same one. What the
log relies on of it is what the protocol-buffer JSON library documents, for the entries the
shell writes: records whose values are texts, flags and integers small enough to be doubles
exactly, each name once (`Entry.Plain`). Such a record is written as the text of one JSON
object, which the stream reader reads up to its closing brace whatever follows, and reading
that text gives back the value of every field (`Protojson.Lawful`).

With any such form, a log of those entries, one line each, is read as one entry per line, in
order, each with the fields of the entry written (`Protojson.Lawful.readLog_lines`). The form
may write the members in any order and with any spacing.
-/
namespace JobShell.Log

open JobShell.Num

/-- A value of an entry the shell writes: a text, a flag, or an integer small enough to be a
double exactly. -/
inductive LogValue.Scalar : LogValue → Prop
  | string (s : String) : LogValue.Scalar (.string s)
  | bool (b : Bool) : LogValue.Scalar (.bool b)
  | int {n : Int} (small : n.natAbs ≤ 2 ^ 53) : LogValue.Scalar (.ofInt n)

/-- An entry of scalar values with distinct names. -/
structure Entry.Plain (e : Entry) : Prop where
  names_nodup : (e.map (·.1)).Nodup
  scalar : ∀ f ∈ e, f.2.Scalar

/-- What the log relies on of its JSON form, for the entries the shell writes. -/
structure Protojson.Lawful [Protojson] : Prop where
  /-- The text of a record starts with the brace of its object, with no blank before it. -/
  opens : ∀ e : Entry, e.Plain → ∃ body, (Protojson.marshal e).toList = '\x7b' :: body
  /-- The text of a record is one JSON value: the stream reader reads exactly that text,
  whatever follows it. -/
  frames : ∀ e : Entry, e.Plain → ∀ rest : List Char, ∃ v,
    JsonRead.value (((Protojson.marshal e).toList ++ rest).length + 1)
      ((Protojson.marshal e).toList ++ rest) = .ok (v, rest)
  /-- Reading the text of a record gives back the value of every field. -/
  round_trip : ∀ e : Entry, e.Plain → ∃ e', Protojson.unmarshal (Protojson.marshal e).toList = .ok e' ∧
    ∀ k, e'.get k = e.get k

section Reader

variable [Protojson]

theorem readLog_go_newline (fuel : Nat) (rest : List Char) (acc : List Entry) :
    readLog.go fuel ('\n' :: rest) acc = readLog.go fuel rest acc := by
  cases fuel with
  | zero => rfl
  | succ n =>
    rw [readLog.go, readLog.go,
      show JsonRead.skipBlanks ('\n' :: rest) = JsonRead.skipBlanks rest by
        simp [JsonRead.skipBlanks, JsonRead.isBlank]]

/-- One line of a plain entry is read as an entry with the same fields. -/
theorem Protojson.Lawful.go_line (lawful : Protojson.Lawful) {e : Entry} (plain : e.Plain)
    (n : Nat) (rest : List Char) (acc : List Entry) :
    ∃ e', (∀ k, e'.get k = e.get k) ∧
      readLog.go (n + 1) (e.line.toList ++ rest) acc = readLog.go n rest (e' :: acc) := by
  obtain ⟨body, opens⟩ := lawful.opens e plain
  obtain ⟨v, frames⟩ := lawful.frames e plain ('\n' :: rest)
  obtain ⟨e', read, same⟩ := lawful.round_trip e plain
  refine ⟨e', same, ?_⟩
  have line : e.line.toList ++ rest = (Protojson.marshal e).toList ++ '\n' :: rest := by
    simp [Entry.line]
  rw [readLog.go, line, opens, List.cons_append, JsonRead.skipBlanks_cons (c := '\x7b') rfl,
    ← List.cons_append, ← opens]
  -- the line starts with a brace, so only the last case of the reader's match applies
  split
  · rename_i empty
    simp [opens] at empty
  · rename_i tail closing
    simp [opens] at closing
  · rename_i tail closing
    simp [opens] at closing
  · rw [frames]
    simp only [List.length_append, List.length_cons, Nat.add_sub_cancel, List.take_left]
    rw [read]
    exact readLog_go_newline n rest (e' :: acc)

theorem Protojson.Lawful.go_lines (lawful : Protojson.Lawful) {es : List Entry}
    (plain : ∀ e ∈ es, e.Plain) :
    ∀ (fuel : Nat) (acc : List Entry), es.length ≤ fuel →
      ∃ read, List.Forall₂ (fun r e => ∀ k, r.get k = e.get k) read es ∧
        readLog.go fuel (String.join (es.map Entry.line)).toList acc = .ok (acc.reverse ++ read) := by
  induction es with
  | nil =>
    intro fuel acc _
    refine ⟨[], .nil, ?_⟩
    cases fuel <;> simp [readLog.go, JsonRead.skipBlanks]
  | cons e es ih =>
    intro fuel acc enough
    obtain ⟨n, rfl⟩ : ∃ n, fuel = n + 1 := ⟨fuel - 1, by simp at enough; omega⟩
    obtain ⟨e', same, step⟩ := lawful.go_line (plain e (by simp)) n
      (String.join (es.map Entry.line)).toList acc
    obtain ⟨read, fields, rest⟩ := ih (fun f member => plain f (by simp [member])) n (e' :: acc)
      (by simp at enough; omega)
    refine ⟨e' :: read, .cons same fields, ?_⟩
    rw [List.map_cons, String.join_cons, String.toList_append, step, rest]
    simp

theorem length_le_join_lines (es : List Entry) :
    es.length ≤ (String.join (es.map Entry.line)).length := by
  induction es with
  | nil => simp
  | cons e es ih =>
    rw [List.map_cons, String.join_cons, String.length_append, List.length_cons]
    have : 0 < e.line.length := by
      simp only [Entry.line, String.length_append]
      exact Nat.lt_add_left _ (by decide)
    omega

/-- Reading a log of plain entries, one line each, gives one entry per line, in order, each
with the fields of the entry written. -/
theorem Protojson.Lawful.readLog_lines (lawful : Protojson.Lawful) {es : List Entry}
    (plain : ∀ e ∈ es, e.Plain) :
    ∃ read, readLog (String.join (es.map Entry.line)) = .ok read ∧
      List.Forall₂ (fun r e => ∀ k, r.get k = e.get k) read es := by
  obtain ⟨read, fields, lines⟩ := lawful.go_lines plain ((String.join (es.map Entry.line)).length + 1)
    [] (by have := length_le_join_lines es; omega)
  exact ⟨read, by rw [readLog, lines]; simp, fields⟩

end Reader

end JobShell.Log

import Mathlib.Data.List.Nodup
import JobShell.Proofs.Jobs.Snapshot

/-!
# Tables the operations reach

`Reach issued t` says that the table operations build `t` from an empty table of any capacity,
with `issued` the ids its successful adds handed out, in order: adds, removes, cleanups,
untracks, reconciliations against any waiter, writes of a job that keep its id, and reading a
table back from its snapshot. Lookups leave a table as it is and are no step.

Every such table is well formed, its last id counts its adds and the ids handed out are
`1, 2, …` in order. From these (`Reach.coherent`): an add hands out an id no job ever had, an
add fails exactly for the reason its checks name (an error carries no table, so a failed add
changes nothing), removal and cleanup keep the order of the other jobs, and the recency
markers pick out the jobs `current?` and `previous?` return.

A reachable table whose integers are 64-bit values reads back from its snapshot as the same
jobs, last id and list flag (`restore_snapshot_roundtrip`).
-/
namespace JobShell

namespace Table

open JsonDecode

/-- The tables the operations build from an empty one, with the ids handed out so far. -/
inductive Reach : List Int → Table → Prop
  | empty (capacity : Int) : Reach [] (Table.empty capacity)
  | add {issued : List Int} {t t' : Table} {pid id : Int} {command : String} {background : Bool} :
      Reach issued t → t.add pid command background = .ok (id, t') → Reach (issued ++ [id]) t'
  | remove {issued : List Int} {t t' : Table} {id : Int} :
      Reach issued t → t.remove id = .ok t' → Reach issued t'
  | cleanup {issued : List Int} {t : Table} : Reach issued t → Reach issued t.cleanup.2
  | untrack {issued : List Int} {t : Table} (pids : List Int) :
      Reach issued t → Reach issued (t.untrack pids)
  | reconcile {issued : List Int} {t : Table} {σ : Type} [Waiter σ] (w : σ)
      {r : List Int × Table × σ} :
      Reach issued t → t.reconcile w = .ok r → Reach issued r.2.1
  | update {issued : List Int} {t t' : Table} {id : Int} {f : Job → Job} :
      (∀ j, (f j).id = j.id) → Reach issued t → t.update? id f = some t' → Reach issued t'
  | restore {issued : List Int} {t t' : Table} :
      Reach issued t → restore t.snapshot = .ok t' → Reach issued t'

theorem WellFormed.restore {t t' : Table} (wf : t.WellFormed)
    (restored : restore t.snapshot = .ok t') : t'.WellFormed := by
  obtain ⟨-, rfl⟩ := (restore_snapshot_eq_ok t t' wf.listed).mp restored
  exact { wf with within := Int.le_max_right _ _ }

theorem Reach.wellFormed {issued : List Int} {t : Table} (reach : Reach issued t) :
    t.WellFormed := by
  induction reach with
  | empty capacity => exact WellFormed.empty capacity
  | add _ added ih => exact ih.add added
  | remove _ removed ih => exact ih.remove removed
  | cleanup _ ih => exact ih.cleanup
  | untrack pids _ ih => exact ih.untrack pids
  | reconcile w _ done ih =>
    obtain ⟨-, rfl⟩ := reconcile_eq_ok_iff.mp done
    exact ih.reconcile w
  | update keeps_id _ updated ih => exact ih.update keeps_id updated
  | restore _ restored ih => exact ih.restore restored

/-- Only an add moves the last id, by one. -/
theorem Reach.lastId_eq_length {issued : List Int} {t : Table} (reach : Reach issued t) :
    t.lastId = issued.length := by
  induction reach with
  | empty capacity => rfl
  | add _ added ih =>
    obtain ⟨-, -, rfl, rfl⟩ := add_eq_ok.mp added
    simp [ih]
  | remove _ removed ih =>
    obtain ⟨-, -, -, rfl⟩ := remove_eq_ok removed
    exact ih
  | cleanup _ ih => rw [cleanup_snd]; exact ih
  | untrack pids _ ih => exact ih
  | reconcile w _ done ih =>
    obtain ⟨-, rfl⟩ := reconcile_eq_ok_iff.mp done
    exact ih
  | update _ _ updated ih =>
    obtain ⟨-, rfl⟩ := update?_eq_some updated
    exact ih
  | restore reach restored ih =>
    obtain ⟨-, rfl⟩ := (restore_snapshot_eq_ok _ _ reach.wellFormed.listed).mp restored
    exact ih

/-- The ids handed out are `1, 2, …, n` in order. -/
theorem Reach.issued_eq_range {issued : List Int} {t : Table} (reach : Reach issued t) :
    issued = (List.range issued.length).map fun k : Nat => (k : Int) + 1 := by
  induction reach with
  | empty capacity => rfl
  | @add issued t t' pid id command background reach added ih =>
    obtain ⟨-, -, rfl, -⟩ := add_eq_ok.mp added
    rw [reach.lastId_eq_length, List.length_append, List.length_singleton, List.range_succ,
      List.map_append, ← ih]
    rfl
  | remove _ _ ih => exact ih
  | cleanup _ ih => exact ih
  | untrack _ _ ih => exact ih
  | reconcile _ _ _ ih => exact ih
  | update _ _ _ ih => exact ih
  | restore _ _ ih => exact ih

theorem Reach.add_fresh {issued : List Int} {t t' : Table} {pid id : Int} {command : String}
    {background : Bool} (reach : Reach issued t)
    (added : t.add pid command background = .ok (id, t')) :
    id = t.lastId + 1 ∧ id ∉ issued := by
  obtain ⟨-, -, rfl, -⟩ := add_eq_ok.mp added
  refine ⟨rfl, fun member => ?_⟩
  rw [reach.issued_eq_range, List.mem_map] at member
  obtain ⟨k, below, same⟩ := member
  have := reach.lastId_eq_length
  rw [List.mem_range] at below
  omega

/-! ## Recency markers -/

theorem WellFormed.slots_nodup {t : Table} (wf : t.WellFormed) : t.slots.Nodup := by
  rw [wf.slots_eq]
  exact (wf.ids_nodup.of_map _).map fun _ _ same => Option.some.inj same

/-- Positions of a table without repeated slots name different slots. -/
theorem slot?_eq_slot?_iff {t : Table} (nodup : t.slots.Nodup) {i : Int} (nonneg : 0 ≤ i)
    (below : i < t.size) (k : Int) : t.slot? i = t.slot? k ↔ i = k := by
  have inside : i.toNat < t.slots.length := by
    simp only [size] at below
    omega
  constructor
  · intro same
    simp only [slot?, if_neg (Int.not_lt.mpr nonneg), List.getElem?_eq_getElem inside] at same
    by_cases negative : k < 0
    · rw [if_pos negative] at same
      cases same
    · rw [if_neg negative] at same
      obtain ⟨inside', picked⟩ := List.getElem?_eq_some_iff.mp same.symm
      have := (nodup.getElem_inj_iff).mp picked
      omega
  · rintro rfl
    rfl

theorem marker_eq_plus (t : Table) (i : Int) : t.marker i = '+' ↔ i = t.size - 1 := by
  unfold marker
  by_cases last : i = t.size - 1
  · simp [last]
  · by_cases before : i = t.size - 2 <;> simp [last, before]

theorem marker_eq_minus (t : Table) (i : Int) : t.marker i = '-' ↔ i = t.size - 2 := by
  unfold marker
  by_cases before : i = t.size - 2
  · simp [before]
  · by_cases last : i = t.size - 1 <;> simp [last, before]

theorem marker_eq_blank (t : Table) (i : Int) :
    t.marker i = ' ' ↔ i ≠ t.size - 1 ∧ i ≠ t.size - 2 := by
  unfold marker
  by_cases last : i = t.size - 1
  · simp [last]
  · by_cases before : i = t.size - 2 <;> simp [last, before]

/-- In a table without repeated slots, position `i` is marked `+` exactly when it holds what
`current?` returns, `-` exactly when it holds what `previous?` returns, and blank otherwise. -/
theorem marker_picks {t : Table} (nodup : t.slots.Nodup) {i : Int} (nonneg : 0 ≤ i)
    (below : i < t.size) :
    (t.marker i = '+' ↔ t.slot? i = t.current?) ∧
      (t.marker i = '-' ↔ t.slot? i = t.previous?) ∧
      (t.marker i = ' ' ↔ t.slot? i ≠ t.current? ∧ t.slot? i ≠ t.previous?) := by
  have picks := slot?_eq_slot?_iff nodup nonneg below
  simp only [current?, previous?, ne_eq, picks, marker_eq_plus, marker_eq_minus,
    marker_eq_blank, and_self]

/-! ## What holds of every reachable table -/

/-- What holds of a table the operations reach, with `issued` the ids handed out so far. -/
structure Coherent (issued : List Int) (t : Table) : Prop where
  /-- Ids strictly increase in table order. -/
  increasing : (t.jobs.map Job.id).Pairwise (· < ·)
  ids_within : ∀ j ∈ t.jobs, 1 ≤ j.id ∧ j.id ≤ t.lastId
  /-- The last id counts the successful adds, which handed out `1, 2, …` in order. -/
  lastId_counts : t.lastId = issued.length
  issued_in_order : issued = (List.range issued.length).map fun k : Nat => (k : Int) + 1
  within : (t.size : Int) ≤ t.capacity
  /-- An add hands out the next id, one no job of the table ever had. -/
  add_fresh : ∀ pid command background id t', t.add pid command background = .ok (id, t') →
    id = t.lastId + 1 ∧ id ∉ issued
  /-- An add fails for a pid that is not positive, else exactly when the table is full. -/
  add_fails : ∀ pid command background e, t.add pid command background = .error e ↔
    (pid ≤ 0 ∧ e = .invalidPid) ∨ (0 < pid ∧ (t.size : Int) = t.capacity ∧ e = .full)
  remove_keeps_order : ∀ target t', t.remove target = .ok t' →
    t'.jobs = t.jobs.filter (·.id != target)
  cleanup_keeps_order : t.cleanup.2.jobs = t.jobs.filter (·.status != .done)
  markers : ∀ i : Int, 0 ≤ i → i < t.size →
    (t.marker i = '+' ↔ t.slot? i = t.current?) ∧
      (t.marker i = '-' ↔ t.slot? i = t.previous?) ∧
      (t.marker i = ' ' ↔ t.slot? i ≠ t.current? ∧ t.slot? i ≠ t.previous?)

theorem Reach.coherent {issued : List Int} {t : Table} (reach : Reach issued t) :
    t.Coherent issued := by
  have wf := reach.wellFormed
  refine
    { increasing := wf.increasing
      ids_within := fun j member => ⟨wf.positive j member, wf.issued j member⟩
      lastId_counts := reach.lastId_eq_length
      issued_in_order := reach.issued_eq_range
      within := wf.within
      add_fresh := fun _ _ _ _ _ added => reach.add_fresh added
      add_fails := fun pid command background e => ?_
      remove_keeps_order := fun _ _ removed => remove_jobs wf removed
      cleanup_keeps_order := cleanup_jobs t
      markers := fun _ nonneg below => marker_picks wf.slots_nodup nonneg below }
  have within := wf.within
  rw [add_eq_error]
  constructor
  · rintro (invalid | ⟨positive, full, rfl⟩)
    · exact Or.inl invalid
    · exact Or.inr ⟨positive, by omega, rfl⟩
  · rintro (invalid | ⟨positive, full, rfl⟩)
    · exact Or.inl invalid
    · exact Or.inr ⟨positive, by omega, rfl⟩

/-- A table reached through adds, the write of a job's stages, an untrack, a reconciliation
that stops one job, ends two and reaps two pids, a remove, a cleanup and one more add. -/
theorem reach_after_reaps :
    Reach [1, 2, 3, 4] ⟨[some ⟨1, 10, 10, [10], "a | b", .stopped, true, 0⟩,
      some ⟨4, 50, 50, [50], "e", .running, true, 0⟩], true, 4, 64, []⟩ := by
  have r₁ := Reach.add (Reach.empty 0) (rfl : (Table.empty 0).add 10 "a | b" true = .ok (1, _))
  have r₂ := Reach.update (f := fun k => { k with pgid := 10, pids := [9, 10] }) (fun _ => rfl) r₁
    (rfl : Table.update? _ 1 _ = some _)
  have r₃ := Reach.add r₂ (rfl : Table.add _ 20 "c" true = .ok (2, _))
  have r₄ := Reach.add r₃ (rfl : Table.add _ 40 "d" false = .ok (3, _))
  have r₅ := Reach.untrack [30] r₄
  -- the stage 9 and the untracked 30 are reaped, job 1 stops, jobs 2 and 3 end
  have r₆ : Reach [1, 2, 3] ⟨[some ⟨1, 10, 10, [10], "a | b", .stopped, true, 0⟩,
      some ⟨2, 20, 20, [], "c", .done, true, 3⟩, some ⟨3, 40, 40, [], "d", .done, false, 1⟩],
      true, 3, 64, []⟩ :=
    Reach.reconcile ({ queues := [(9, [{ status := WaitStatus.ofExit 0 }]),
        (10, [{ status := WaitStatus.ofStop 19 }]),
        (20, [{ err := some .intr }, { status := WaitStatus.ofExit 3 }]),
        (40, [{ status := WaitStatus.ofExit 1 }]), (30, [{ status := WaitStatus.ofSignal 9 }])] } :
      WaitScript) r₅ rfl
  have r₇ := Reach.remove r₆ (rfl : Table.remove _ 2 = .ok _)
  have r₈ := Reach.cleanup r₇
  exact Reach.add r₈ (rfl : Table.add _ 50 "e" true = .ok (4, _))

/-- The table of `reach_after_reaps` is coherent, and so is the table read back from its
snapshot, the same jobs under the default capacity. -/
theorem coherent_after_reaps_and_restore :
    let t : Table := ⟨[some ⟨1, 10, 10, [10], "a | b", .stopped, true, 0⟩,
      some ⟨4, 50, 50, [50], "e", .running, true, 0⟩], true, 4, 64, []⟩
    Reach [1, 2, 3, 4] t ∧ Coherent [1, 2, 3, 4] t := by
  intro t
  have fits : t.InRange := by
    simp [t, InRange, Job.InRange, JsonDecode.Int64Range]
  have restored : restore t.snapshot = .ok t :=
    (restore_snapshot_eq_ok t t (by simp [t])).mpr ⟨fits, rfl⟩
  have reach : Reach [1, 2, 3, 4] t := reach_after_reaps.restore restored
  exact ⟨reach, reach.coherent⟩

/-! ## Reading a reachable table back -/

/-- A reachable table whose integers are 64-bit values, as the integer fields of a table are,
reads back from its snapshot with the default capacity, or its size if that is larger, and the
same last id, list flag and jobs field by field. Its snapshot is then the same text, and the
next add on either table hands out the same id. -/
theorem restore_snapshot_roundtrip {issued : List Int} {t : Table} (reach : Reach issued t)
    (fits : t.InRange) :
    ∃ t', restore t.snapshot = .ok t' ∧ t'.capacity = max defaultCapacity (t.size : Int) ∧
      t'.lastId = t.lastId ∧ t'.listed = t.listed ∧ t'.slots = t.slots ∧
      t'.snapshot = t.snapshot ∧
      ∀ pid pid' command command' background background' id id' (u u' : Table),
        t.add pid command background = .ok (id, u) →
          t'.add pid' command' background' = .ok (id', u') → id = id' := by
  have consistent := reach.wellFormed.listed
  refine ⟨_, (restore_snapshot_eq_ok t _ consistent).mpr ⟨fits, rfl⟩,
    rfl, rfl, rfl, rfl, rfl, ?_⟩
  intro pid pid' command command' background background' id id' u u' added added'
  obtain ⟨-, -, rfl, -⟩ := add_eq_ok.mp added
  obtain ⟨-, -, rfl, -⟩ := add_eq_ok.mp added'
  rfl

/-- The round trip of the same table: two jobs in different states, one with its stages. -/
theorem jobs_restore_after_reaps :
    let t : Table := ⟨[some ⟨1, 10, 10, [10], "a | b", .stopped, true, 0⟩,
      some ⟨4, 50, 50, [50], "e", .running, true, 0⟩], true, 4, 64, []⟩
    Reach [1, 2, 3, 4] t ∧ t.InRange ∧
      ∃ t', restore t.snapshot = .ok t' ∧ t'.capacity = max defaultCapacity (t.size : Int) ∧
        t'.lastId = t.lastId ∧ t'.listed = t.listed ∧ t'.slots = t.slots ∧
        t'.snapshot = t.snapshot ∧
        ∀ pid pid' command command' background background' id id' (u u' : Table),
          t.add pid command background = .ok (id, u) →
            t'.add pid' command' background' = .ok (id', u') → id = id' := by
  intro t
  have fits : t.InRange := by
    simp [t, InRange, Job.InRange, JsonDecode.Int64Range]
  exact ⟨reach_after_reaps, fits, restore_snapshot_roundtrip reach_after_reaps fits⟩

end Table

end JobShell

import Mathlib.Data.List.Basic
import JobShell.Jobs.Table

/-!
# The job table keeps its shape

Every table the operations build holds a job in each slot, the jobs' ids strictly increase in
table order and lie between 1 and the last id handed out, there are no more jobs than the
capacity, and a table holds a job list as soon as it holds a job (`Table.WellFormed`).

Each operation is first described by what it does to the slots: `add` appends one job,
`remove` erases the first slot holding the id, `cleanup` filters, a write rewrites the jobs in
place and `reconcile` keeps every job's id. The invariant then follows operation by operation
from one lemma about tables whose ids form a sublist of the old ones
(`WellFormed.of_shape_sublist`).

`reconcile` faults at the first slot that holds no job. On a table whose slots all hold jobs it
cannot, and gives `reconcileFilled`, the same loop with no fault to pass on
(`reconcile_eq_ok`); the statements about what a reconciliation does are made on that.
-/
namespace JobShell

theorem List.eraseIdx_findIdx? {α : Type} {l : List α} {p : α → Bool} {i : Nat}
    (found : l.findIdx? p = some i) :
    ∃ a, l[i]? = some a ∧ p a ∧ l.find? p = some a ∧ l.eraseIdx i = l.eraseP p := by
  induction l generalizing i with
  | nil => simp at found
  | cons x xs ih =>
    rw [List.findIdx?_cons] at found
    by_cases hx : p x
    · simp only [hx, if_true, Option.some.injEq] at found
      subst found
      exact ⟨x, rfl, hx, List.find?_cons_of_pos hx, by simp [List.eraseP_cons_of_pos hx]⟩
    · simp only [hx, Bool.false_eq_true, if_false, Option.map_eq_some_iff] at found
      obtain ⟨k, rest, rfl⟩ := found
      obtain ⟨a, at_k, pa, first, erased⟩ := ih rest
      refine ⟨a, at_k, pa, ?_, ?_⟩
      · rw [List.find?_cons_of_neg hx, first]
      · rw [List.eraseIdx_cons_succ, erased, List.eraseP_cons_of_neg hx]

/-- Erasing the first element with a key is filtering it out, when keys are distinct. -/
theorem List.eraseP_eq_filter_of_nodup {α : Type} {l : List α} (key : α → Int) (k : Int)
    (distinct : (l.map key).Nodup) :
    l.eraseP (fun a => key a == k) = l.filter (fun a => key a != k) := by
  induction l with
  | nil => rfl
  | cons x xs ih =>
    simp only [List.map_cons, List.nodup_cons, List.mem_map] at distinct
    by_cases hx : key x = k
    · have others : ∀ a ∈ xs, key a ≠ k := fun a member same =>
        distinct.1 ⟨a, member, same.trans hx.symm⟩
      rw [List.eraseP_cons_of_pos (by simp [hx]), List.filter_cons_of_neg (by simp [hx]),
        List.filter_eq_self.mpr (fun a member => by simp [others a member])]
    · rw [List.eraseP_cons_of_neg (by simp [hx]), List.filter_cons_of_pos (by simp [hx]),
        ih distinct.2]

namespace Table

/-- Whether a slot holds the job with the given id. -/
def holds (id : Int) : Option Job → Bool
  | some j => j.id == id
  | none => false

/-- The ids of the slots in table order, `none` for an empty slot. -/
def shape (t : Table) : List (Option Int) := t.slots.map (Option.map Job.id)

theorem mem_jobs {t : Table} {j : Job} : j ∈ t.jobs ↔ some j ∈ t.slots := by
  simp [jobs]

theorem jobs_map_id (t : Table) : t.jobs.map Job.id = t.shape.filterMap id := by
  simp only [jobs, shape, List.map_filterMap, List.filterMap_map]
  rfl

theorem size_eq_length_shape (t : Table) : t.size = t.shape.length := by
  simp [size, shape]

theorem indexOf?_eq (t : Table) (id : Int) : t.indexOf? id = t.slots.findIdx? (holds id) := rfl

/-! ## What each operation does to the slots -/

theorem add_eq_ok {t t' : Table} {pid id : Int} {command : String} {background : Bool} :
    t.add pid command background = .ok (id, t') ↔
      0 < pid ∧ (t.size : Int) < t.capacity ∧ id = t.lastId + 1 ∧
      t' = { t with
        slots := t.slots ++ [some ⟨id, pid, pid, [pid], truncateCommand command, .running,
          background, 0⟩]
        listed := true, lastId := id } := by
  unfold add
  by_cases invalid : pid ≤ 0
  · simp only [invalid, if_true, reduceCtorEq, false_iff, not_and]
    omega
  · by_cases full : (t.size : Int) ≥ t.capacity
    · simp only [invalid, full, if_true, if_false, reduceCtorEq, false_iff, not_and]
      omega
    · simp only [invalid, full, if_false, Except.ok.injEq, Prod.mk.injEq]
      constructor
      · rintro ⟨rfl, rfl⟩
        exact ⟨by omega, by omega, rfl, rfl⟩
      · rintro ⟨-, -, rfl, rfl⟩
        exact ⟨rfl, rfl⟩

theorem add_eq_error {t : Table} {pid : Int} {command : String} {background : Bool}
    {e : TableError} :
    t.add pid command background = .error e ↔
      (pid ≤ 0 ∧ e = .invalidPid) ∨ (0 < pid ∧ t.capacity ≤ t.size ∧ e = .full) := by
  unfold add
  by_cases invalid : pid ≤ 0
  · rw [if_pos invalid, Except.error.injEq]
    constructor
    · rintro rfl
      exact .inl ⟨invalid, rfl⟩
    · rintro (⟨-, rfl⟩ | ⟨positive, -⟩)
      · rfl
      · omega
  · rw [if_neg invalid]
    by_cases full : (t.size : Int) ≥ t.capacity
    · rw [if_pos full, Except.error.injEq]
      constructor
      · rintro rfl
        exact .inr ⟨by omega, full, rfl⟩
      · rintro (⟨le, rfl⟩ | ⟨-, -, rfl⟩)
        · exact absurd le invalid
        · rfl
    · rw [if_neg full]
      simp only [reduceCtorEq, false_iff, not_or, not_and]
      omega

theorem remove_eq_ok {t t' : Table} {id : Int} (removed : t.remove id = .ok t') :
    ∃ j, j.id = id ∧ t.slots.find? (holds id) = some (some j) ∧
      t' = { t with slots := t.slots.eraseP (holds id),
                    untracked := t.untracked ++ j.stragglers } := by
  unfold remove at removed
  rw [indexOf?_eq] at removed
  split at removed
  · rename_i i found
    obtain ⟨slot, at_i, holding, first, erased⟩ := List.eraseIdx_findIdx? found
    cases slot with
    | none => simp [holds] at holding
    | some j =>
      simp only [at_i, Except.ok.injEq] at removed
      refine ⟨j, by simpa [holds] using holding, first, ?_⟩
      rw [← removed, erased]
  · cases removed

theorem cleanup_snd (t : Table) :
    t.cleanup.2 =
      { t with
        slots := t.slots.filter (!isDone ·)
        untracked :=
          t.untracked ++ ((t.slots.filter isDone).filterMap id).flatMap Job.stragglers } :=
  rfl

theorem update?_eq_some {t t' : Table} {id : Int} {f : Job → Job}
    (updated : t.update? id f = some t') :
    (t.get? id).isSome ∧
      t' = { t with slots := t.slots.map (·.map fun j => if j.id == id then f j else j) } := by
  unfold update? at updated
  split at updated
  · rename_i found
    exact ⟨found, (Option.some.inj updated).symm⟩
  · cases updated

section Reconcile

variable {σ : Type} [Waiter σ]

theorem applyWait_id (j : Job) (w : WaitStatus) : (j.applyWait w).id = j.id := by
  unfold Job.applyWait
  split_ifs <;> rfl

theorem poll_id (w : σ) (j : Job) : (poll w j).2.1.id = j.id := by
  unfold poll
  simp only [Job.record]
  split
  · rfl
  · split
    · rfl
    · exact applyWait_id j _

/-- Reaping stragglers only ever drops entries of the job's stage list. -/
theorem reapStragglers_job (pids : List Int) (j : Job) (w : σ) :
    ∃ stages, (pids.foldl (fun (acc : Job × σ) pid =>
        let (g, w) := reap acc.2 pid
        (if g then acc.1.forget pid else acc.1, w)) (j, w)).1 = { j with pids := stages } := by
  induction pids generalizing j w with
  | nil => exact ⟨j.pids, rfl⟩
  | cons pid rest ih =>
    simp only [List.foldl_cons]
    split
    · obtain ⟨stages, same⟩ := ih (j.forget pid) _
      exact ⟨stages, same⟩
    · exact ih j _

theorem refresh_id (w : σ) (j : Job) : (refresh w j).2.1.id = j.id := by
  unfold refresh
  split
  · rfl
  · rw [poll_id]
    obtain ⟨stages, same⟩ := reapStragglers_job j.stragglers j w
    rw [same]

/-- The reconciliation loop on slots that all hold jobs, where it cannot fault: `refreshSlots`
with no fault to pass on (`refreshSlots_eq_ok`). What a reconciliation does is stated on it.
An empty slot, where `refreshSlots` faults, is passed over only to keep the function total. -/
def refreshFilled (w : σ) : List (Option Job) → List Int × List (Option Job) × σ
  | [] => ([], [], w)
  | none :: rest =>
    let (ids, rest, w) := refreshFilled w rest
    (ids, none :: rest, w)
  | some j :: rest =>
    let (c, j, w) := refresh w j
    let (ids, rest, w) := refreshFilled w rest
    (if c then j.id :: ids else ids, some j :: rest, w)

/-- `reconcile` on a table whose slots all hold jobs (`reconcile_eq_ok`). -/
def reconcileFilled (t : Table) (w : σ) : List Int × Table × σ :=
  let (ids, slots, w) := refreshFilled w t.slots
  let (kept, w) := reapAll w t.untracked
  (ids, { t with slots, untracked := kept }, w)

/-- A list of slots none of which is empty holds a job in each. -/
theorem isSome_of_none_not_mem {slots : List (Option Job)} (full : none ∉ slots) :
    ∀ s ∈ slots, s.isSome := by
  intro s member
  cases s with
  | none => exact absurd member full
  | some _ => rfl

theorem refreshSlots_eq_ok {slots : List (Option Job)} (filled : ∀ s ∈ slots, s.isSome)
    (w : σ) : refreshSlots w slots = .ok (refreshFilled w slots) := by
  induction slots generalizing w with
  | nil => rfl
  | cons slot rest ih =>
    obtain ⟨j, rfl⟩ := Option.isSome_iff_exists.mp (filled slot List.mem_cons_self)
    have rest_filled : ∀ s ∈ rest, s.isSome := fun s member => filled s (List.mem_cons_of_mem _ member)
    simp only [refreshSlots, refreshFilled, ih rest_filled]

/-- The first empty slot faults, whatever the jobs before it. -/
theorem refreshSlots_eq_error {slots : List (Option Job)} (empty : none ∈ slots) (w : σ) :
    refreshSlots w slots = .error .nilJob := by
  induction slots generalizing w with
  | nil => cases empty
  | cons slot rest ih =>
    cases slot with
    | none => rfl
    | some j =>
      have later : none ∈ rest := by simpa using empty
      simp only [refreshSlots, ih later]

theorem reconcile_eq_ok {t : Table} (filled : ∀ s ∈ t.slots, s.isSome) (w : σ) :
    t.reconcile w = .ok (t.reconcileFilled w) := by
  simp only [reconcile, reconcileFilled, refreshSlots_eq_ok filled]

theorem reconcile_eq_error {t : Table} (empty : none ∈ t.slots) (w : σ) :
    t.reconcile w = .error .nilJob := by
  simp only [reconcile, refreshSlots_eq_error empty]

/-- A reconciliation that returns found a job in every slot, and returned `reconcileFilled`. -/
theorem reconcile_eq_ok_iff {t : Table} {w : σ} {r : List Int × Table × σ} :
    t.reconcile w = .ok r ↔ (∀ s ∈ t.slots, s.isSome) ∧ t.reconcileFilled w = r := by
  constructor
  · intro done
    by_cases empty : none ∈ t.slots
    · rw [reconcile_eq_error empty] at done
      cases done
    · have filled := isSome_of_none_not_mem empty
      rw [reconcile_eq_ok filled] at done
      exact ⟨filled, Except.ok.inj done⟩
  · rintro ⟨filled, rfl⟩
    exact reconcile_eq_ok filled w

theorem refreshFilled_shape (w : σ) (slots : List (Option Job)) :
    (refreshFilled w slots).2.1.map (Option.map Job.id) = slots.map (Option.map Job.id) := by
  induction slots generalizing w with
  | nil => rfl
  | cons slot rest ih =>
    cases slot with
    | none => simp [refreshFilled, ih]
    | some j => simp [refreshFilled, ih, refresh_id]

theorem reconcileFilled_table (t : Table) (w : σ) :
    (t.reconcileFilled w).2.1 =
      { t with
        slots := (refreshFilled w t.slots).2.1
        untracked := (reapAll (refreshFilled w t.slots).2.2 t.untracked).1 } :=
  rfl

end Reconcile

/-- The invariant that every operation keeps. -/
structure WellFormed (t : Table) : Prop where
  filled : ∀ s ∈ t.slots, s.isSome
  increasing : (t.jobs.map Job.id).Pairwise (· < ·)
  positive : ∀ j ∈ t.jobs, 0 < j.id
  issued : ∀ j ∈ t.jobs, j.id ≤ t.lastId
  lastId_nonneg : 0 ≤ t.lastId
  within : (t.size : Int) ≤ t.capacity
  listed : t.listed = false → t.slots = []

theorem slots_eq_of_filled {l : List (Option Job)} (filled : ∀ s ∈ l, s.isSome) :
    l = (l.filterMap id).map some := by
  induction l with
  | nil => rfl
  | cons s rest ih =>
    obtain ⟨j, rfl⟩ := Option.isSome_iff_exists.mp (filled s (by simp))
    exact congrArg (List.cons (some j)) (ih (fun s member => filled s (by simp [member])))

theorem WellFormed.slots_eq {t : Table} (wf : t.WellFormed) : t.slots = t.jobs.map some :=
  slots_eq_of_filled wf.filled

theorem WellFormed.ids_nodup {t : Table} (wf : t.WellFormed) : (t.jobs.map Job.id).Nodup :=
  wf.increasing.imp (fun less => Int.ne_of_lt less)

theorem WellFormed.size_eq {t : Table} (wf : t.WellFormed) : t.size = t.jobs.length := by
  simp [size, wf.slots_eq]

/-- Dropping slots, or rewriting jobs without touching their ids, keeps a job in every slot. -/
theorem filled_of_shape_sublist {t t' : Table} (filled : ∀ s ∈ t.slots, s.isSome)
    (sub : t'.shape.Sublist t.shape) : ∀ s ∈ t'.slots, s.isSome := by
  intro s member
  have : s.map Job.id ∈ t.shape := sub.subset (List.mem_map_of_mem member)
  obtain ⟨s₀, old, same⟩ := List.mem_map.mp this
  rw [← Option.isSome_map (f := Job.id), ← same, Option.isSome_map]
  exact filled s₀ old

/-- A table whose ids are a sublist of a well-formed table's, with the same last id, capacity
and list flag, is well formed. -/
theorem WellFormed.of_shape_sublist {t t' : Table} (wf : t.WellFormed)
    (sub : t'.shape.Sublist t.shape) (last : t'.lastId = t.lastId)
    (capacity : t'.capacity = t.capacity) (listed : t'.listed = t.listed) : t'.WellFormed := by
  have ids_sub : (t'.jobs.map Job.id).Sublist (t.jobs.map Job.id) := by
    rw [jobs_map_id, jobs_map_id]
    exact sub.filterMap _
  have old_job : ∀ j ∈ t'.jobs, ∃ k ∈ t.jobs, k.id = j.id := by
    intro j member
    have : j.id ∈ t.jobs.map Job.id := ids_sub.subset (List.mem_map_of_mem member)
    simpa using this
  refine ⟨?_, wf.increasing.sublist ids_sub, ?_, ?_, last ▸ wf.lastId_nonneg, ?_, ?_⟩
  · exact filled_of_shape_sublist wf.filled sub
  · intro j member
    obtain ⟨k, old, same⟩ := old_job j member
    exact same ▸ wf.positive k old
  · intro j member
    obtain ⟨k, old, same⟩ := old_job j member
    exact last ▸ same ▸ wf.issued k old
  · have shorter := sub.length_le
    rw [← size_eq_length_shape, ← size_eq_length_shape] at shorter
    have := wf.within
    omega
  · intro unlisted
    have empty : t.shape = [] := by simp [shape, wf.listed (listed ▸ unlisted)]
    rw [empty, List.sublist_nil] at sub
    simpa [shape] using sub

/-! ## Every operation keeps the invariant -/

theorem WellFormed.empty (capacity : Int) : (Table.empty capacity).WellFormed where
  filled := by simp [Table.empty]
  increasing := by simp [Table.empty, jobs]
  positive := by simp [Table.empty, jobs]
  issued := by simp [Table.empty, jobs]
  lastId_nonneg := by simp [Table.empty]
  within := by
    simp only [Table.empty, size, List.length_nil, defaultCapacity]
    split <;> omega
  listed := fun _ => rfl

theorem WellFormed.add {t t' : Table} {pid id : Int} {command : String} {background : Bool}
    (wf : t.WellFormed) (added : t.add pid command background = .ok (id, t')) : t'.WellFormed := by
  obtain ⟨-, room, rfl, result⟩ := add_eq_ok.mp added
  let job : Job :=
    ⟨t.lastId + 1, pid, pid, [pid], truncateCommand command, .running, background, 0⟩
  have slots : t'.slots = t.slots ++ [some job] := by rw [result]
  have jobs_eq : t'.jobs = t.jobs ++ [job] := by simp [jobs, slots]
  have last : t'.lastId = t.lastId + 1 := by rw [result]
  have nonneg := wf.lastId_nonneg
  have old_ids : ∀ j ∈ t.jobs, j.id < t.lastId + 1 := fun j member => by
    have := wf.issued j member
    omega
  refine ⟨?_, ?_, ?_, ?_, by omega, ?_, ?_⟩
  · intro s member
    rw [slots, List.mem_append, List.mem_singleton] at member
    rcases member with old | rfl
    · exact wf.filled s old
    · rfl
  · rw [jobs_eq, List.map_append]
    refine List.pairwise_append.mpr ⟨wf.increasing, by simp, ?_⟩
    intro a old b new
    simp only [List.map_cons, List.map_nil, List.mem_singleton] at new
    subst new
    obtain ⟨j, member, rfl⟩ := List.mem_map.mp old
    exact old_ids j member
  · intro j member
    rw [jobs_eq, List.mem_append, List.mem_singleton] at member
    rcases member with old | rfl
    · exact wf.positive j old
    · show 0 < t.lastId + 1
      omega
  · intro j member
    rw [jobs_eq, List.mem_append, List.mem_singleton] at member
    rw [last]
    rcases member with old | rfl
    · exact Int.le_of_lt (old_ids j old)
    · exact Int.le_refl _
  · have longer : t'.size = t.size + 1 := by simp [size, slots]
    rw [longer, result]
    push_cast
    omega
  · rw [result]
    intro unlisted
    cases unlisted

theorem WellFormed.remove {t t' : Table} {id : Int} (wf : t.WellFormed)
    (removed : t.remove id = .ok t') : t'.WellFormed := by
  obtain ⟨j, -, -, rfl⟩ := remove_eq_ok removed
  exact wf.of_shape_sublist (List.eraseP_sublist.map _) rfl rfl rfl

theorem WellFormed.cleanup {t : Table} (wf : t.WellFormed) : t.cleanup.2.WellFormed := by
  rw [cleanup_snd]
  exact wf.of_shape_sublist ((List.filter_sublist).map _) rfl rfl rfl

theorem WellFormed.untrack {t : Table} (wf : t.WellFormed) (pids : List Int) :
    (t.untrack pids).WellFormed :=
  wf.of_shape_sublist (List.Sublist.refl _) rfl rfl rfl

/-- A write that keeps every job's id keeps the invariant. -/
theorem WellFormed.update {t t' : Table} {id : Int} {f : Job → Job} (wf : t.WellFormed)
    (keeps_id : ∀ j, (f j).id = j.id) (updated : t.update? id f = some t') : t'.WellFormed := by
  obtain ⟨-, rfl⟩ := update?_eq_some updated
  refine wf.of_shape_sublist ?_ rfl rfl rfl
  have same : ({ t with slots := t.slots.map (·.map fun j => if j.id == id then f j else j) } :
      Table).shape = t.shape := by
    simp only [shape, List.map_map]
    apply List.map_congr_left
    intro s _
    cases s with
    | none => rfl
    | some j =>
      simp only [Function.comp_apply, Option.map_some, Option.some.injEq]
      split <;> simp [keeps_id]
  rw [same]

theorem WellFormed.reconcile {σ : Type} [Waiter σ] {t : Table} (wf : t.WellFormed) (w : σ) :
    (t.reconcileFilled w).2.1.WellFormed := by
  rw [reconcileFilled_table]
  refine wf.of_shape_sublist ?_ rfl rfl rfl
  simp only [shape]
  rw [refreshFilled_shape]

theorem filled_cleanup {t : Table} (filled : ∀ s ∈ t.slots, s.isSome) :
    ∀ s ∈ t.cleanup.2.slots, s.isSome := by
  rw [cleanup_snd]
  exact filled_of_shape_sublist filled ((List.filter_sublist).map _)

theorem filled_reconcile {σ : Type} [Waiter σ] {t : Table} (filled : ∀ s ∈ t.slots, s.isSome)
    (w : σ) : ∀ s ∈ (t.reconcileFilled w).2.1.slots, s.isSome := by
  rw [reconcileFilled_table]
  refine filled_of_shape_sublist filled ?_
  simp only [shape]
  rw [refreshFilled_shape]

/-! ## Removing keeps the order of the rest -/

theorem remove_jobs {t t' : Table} {target : Int} (wf : t.WellFormed)
    (removed : t.remove target = .ok t') : t'.jobs = t.jobs.filter (·.id != target) := by
  obtain ⟨j, -, -, rfl⟩ := remove_eq_ok removed
  have erased : (t.slots.eraseP (holds target)).filterMap id = t.jobs.eraseP (·.id == target) := by
    rw [jobs, List.eraseP_filterMap]
    congr 2
    funext s
    cases s <;> rfl
  change (t.slots.eraseP (holds target)).filterMap id = _
  rw [erased, List.eraseP_eq_filter_of_nodup Job.id target wf.ids_nodup]

theorem cleanup_jobs (t : Table) : t.cleanup.2.jobs = t.jobs.filter (·.status != .done) := by
  rw [cleanup_snd]
  simp only [jobs]
  induction t.slots with
  | nil => rfl
  | cons s rest ih =>
    cases s with
    | none => simpa [isDone] using ih
    | some j =>
      by_cases finished : j.status = .done
      · simpa [isDone, finished] using ih
      · simpa [isDone, finished] using ih

end Table

end JobShell

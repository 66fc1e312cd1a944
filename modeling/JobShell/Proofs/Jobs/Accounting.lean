import JobShell.Proofs.Jobs.Reaping
import JobShell.Proofs.Jobs.Reachable

/-!
# No lost and no re-waited child

The table and the shell around it are run as a `Ledger`: the table, the waiter it waits
through, and what an observer wrote down, the pids handed to the table in order and the waits
that count (the table's own, and the shell's waits whose status it passed to `Job.record`).
A `Step` is one of the operations the shell performs on its job table: an add, the write of a
freshly added job's group and stages, the removal of a Done job, a cleanup, an untrack, a
reconciliation, the record of a status a wait returned for a job's pid, or a wait of the shell
whose status goes nowhere.

Provided no pid is handed to the table twice, the waiter's interruption bound is honest and its
replies are those of a process table (after a pid is reported gone, every wait on it fails),
the pids the table records are at every point exactly the pids handed to it that no wait
reported gone, and the table never waits on a pid a wait already reported gone
(`Run.recorded_iff_handed_not_gone`).

The invariant (`Ledger.Accounted`) says this as a permutation: the recorded pids are the handed
pids not reported gone, in some order, without repeats. Each step keeps it; a reconciliation
keeps it by `Table.reconcileFilled_logged`.
-/
namespace JobShell

open Waited

namespace Table

/-! ## One job of a well-formed table -/

/-- In a well-formed table, the job found by an id sits in one slot, and no other slot holds
that id. -/
theorem WellFormed.split_get {t : Table} {id : Int} {j : Job} (wf : t.WellFormed)
    (found : t.get? id = some j) :
    ∃ pre post, t.slots = pre ++ some j :: post ∧ j.id = id ∧
      ∀ s ∈ pre ++ post, holds id s = false := by
  have named : j.id = id := by simpa using List.find?_some found
  have member : some j ∈ t.slots := mem_jobs.mp (List.mem_of_find?_eq_some found)
  obtain ⟨pre, post, split⟩ := List.append_of_mem member
  refine ⟨pre, post, split, named, ?_⟩
  have nodup := wf.slots_nodup
  rw [split] at nodup
  intro s other
  cases s with
  | none => rfl
  | some k =>
    have distinct : some k ≠ some j := by
      intro same
      rcases List.mem_append.mp other with early | late
      · exact (List.nodup_append.mp nodup).2.2 _ early _ (List.mem_cons_self ..) same
      · exact (List.nodup_cons.mp (List.nodup_append.mp nodup).2.1).1 (same ▸ late)
    have k_job : k ∈ t.jobs := mem_jobs.mpr (by
      rw [split]
      rcases List.mem_append.mp other with early | late
      · exact List.mem_append_left _ early
      · exact List.mem_append_right _ (List.mem_cons_of_mem _ late))
    have j_job : j ∈ t.jobs := mem_jobs.mpr member
    have : k.id ≠ id := fun same =>
      distinct (congrArg some
        (List.inj_on_of_nodup_map wf.ids_nodup k_job j_job (same.trans named.symm)))
    simpa [holds] using this

theorem update_split {t t' : Table} {id : Int} {f : Job → Job} {pre post : List (Option Job)}
    {j : Job} (split : t.slots = pre ++ some j :: post) (named : j.id = id)
    (others : ∀ s ∈ pre ++ post, holds id s = false) (updated : t.update? id f = some t') :
    t' = { t with slots := pre ++ some (f j) :: post } := by
  obtain ⟨-, rfl⟩ := update?_eq_some updated
  have untouched : ∀ l : List (Option Job), (∀ s ∈ l, holds id s = false) →
      l.map (·.map fun k => if k.id == id then f k else k) = l := by
    intro l quiet
    refine (List.map_congr_left fun s member => ?_).trans (List.map_id l)
    cases s with
    | none => rfl
    | some k =>
      have : k.id ≠ id := by simpa [holds] using quiet (some k) member
      simp [this]
  rw [split, List.map_append, List.map_cons,
    untouched pre fun s early => others s (List.mem_append_left _ early),
    untouched post fun s late => others s (List.mem_append_right _ late)]
  simp [named]

theorem remove_split {t t' : Table} {id : Int} {pre post : List (Option Job)} {j : Job}
    (split : t.slots = pre ++ some j :: post) (named : j.id = id)
    (others : ∀ s ∈ pre ++ post, holds id s = false) (removed : t.remove id = .ok t') :
    t' = { t with slots := pre ++ post, untracked := t.untracked ++ j.stragglers } := by
  obtain ⟨j', -, found, rfl⟩ := remove_eq_ok removed
  have quiet : ∀ s ∈ pre, ¬holds id s = true := fun s early => by
    simp [others s (List.mem_append_left _ early)]
  have first : t.slots.find? (holds id) = some (some j) := by
    rw [split, List.find?_append, List.find?_eq_none.mpr quiet, Option.none_or,
      List.find?_cons_of_pos (by simp [holds, named])]
  rw [first] at found
  cases found
  rw [split, List.eraseP_append_right _ quiet, List.eraseP_cons_of_pos (by simp [holds, named])]

/-! ## What each operation does to the recorded pids -/

theorem recorded_split {t : Table} {pre post : List (Option Job)} {s : Option Job}
    (split : t.slots = pre ++ s :: post) :
    t.recorded = pre.flatMap slotRecorded ++ slotRecorded s ++
      (post.flatMap slotRecorded ++ t.untracked) := by
  simp [recorded, split]

theorem stragglers_alone {j : Job} (alone : j.pids = [j.pid]) : j.stragglers = [] := by
  simp [Job.stragglers, alone]

theorem add_recorded {t t' : Table} {pid id : Int} {command : String} {background : Bool}
    (added : t.add pid command background = .ok (id, t')) :
    t'.recorded.Perm (t.recorded ++ [pid]) := by
  obtain ⟨-, -, rfl, rfl⟩ := add_eq_ok.mp added
  have fresh : slotRecorded (some ⟨t.lastId + 1, pid, pid, [pid], truncateCommand command,
      .running, background, 0⟩) = [pid] := by
    simp [slotRecorded, Job.stragglers]
  simp only [recorded, List.flatMap_append, List.flatMap_singleton, fresh, List.append_assoc]
  exact List.perm_append_comm.append_left _

/-- Cleaning up moves the stragglers of the Done jobs to the untracked pids. -/
theorem cleanup_recorded (t : Table) : t.cleanup.2.recorded.Perm t.recorded := by
  have moved : ∀ slots : List (Option Job),
      ((slots.filter (!isDone ·)).flatMap slotRecorded ++
        ((slots.filter isDone).filterMap id).flatMap Job.stragglers).Perm
        (slots.flatMap slotRecorded) := by
    intro slots
    induction slots with
    | nil => simp
    | cons s rest ih =>
      cases s with
      | none => simpa [isDone, slotRecorded] using ih
      | some j =>
        by_cases finished : j.status = .done
        · have recorded : slotRecorded (some j) = j.stragglers := by
            simp [slotRecorded, finished]
          have kept : isDone (some j) = true := by simp [isDone, finished]
          simp only [List.filter_cons, kept, Bool.not_true, Bool.false_eq_true, if_false,
            if_true, List.filterMap_cons, id, List.flatMap_cons, recorded]
          exact (List.perm_append_comm_assoc _ _ _).trans (ih.append_left _)
        · have kept : isDone (some j) = false := by simp [isDone, finished]
          simp only [List.filter_cons, kept, Bool.not_false, Bool.false_eq_true, if_false,
            if_true, List.flatMap_cons, List.append_assoc]
          exact ih.append_left _
  rw [cleanup_snd]
  simp only [recorded]
  refine (List.perm_append_comm.append_left _).trans ?_
  rw [← List.append_assoc]
  exact (moved t.slots).append_right _

/-- Removing a Done job moves its stragglers to the untracked pids. -/
theorem removeDone_recorded {t t' : Table} {id : Int} {pre post : List (Option Job)} {j : Job}
    (split : t.slots = pre ++ some j :: post) (named : j.id = id)
    (others : ∀ s ∈ pre ++ post, holds id s = false) (finished : j.status = .done)
    (removed : t.remove id = .ok t') : t'.recorded.Perm t.recorded := by
  rw [remove_split split named others removed, recorded_split split]
  have : slotRecorded (some j) = j.stragglers := by simp [slotRecorded, finished]
  simp only [recorded, List.flatMap_append, this, List.append_assoc]
  refine List.Perm.append_left _ ?_
  rw [← List.append_assoc]
  exact List.perm_append_comm

theorem mem_jobs_of_split {t t' : Table} {pre post : List (Option Job)} {j J K : Job}
    (split : t.slots = pre ++ some j :: post) (split' : t'.slots = pre ++ some J :: post)
    (member : K ∈ t'.jobs) : K = J ∨ K ∈ t.jobs := by
  rw [mem_jobs, split'] at member
  rw [mem_jobs, split]
  simp only [List.mem_append, List.mem_cons, Option.some.injEq] at member ⊢
  rcases member with early | same | late
  · exact Or.inr (Or.inl early)
  · exact Or.inl same
  · exact Or.inr (Or.inr (Or.inr late))

/-- Dropping a pid that a list without repeats holds once, between two parts. -/
theorem filter_ne_split {A S R : List Int} {x : Int} (nodup : (A ++ ([x] ++ S) ++ R).Nodup) :
    (A ++ ([x] ++ S) ++ R).filter (· != x) = A ++ S ++ R := by
  have outside : x ∉ A := fun early =>
    (List.nodup_append.mp (List.nodup_append.mp nodup).1).2.2 x early x (by simp) rfl
  rw [← nodup.erase_eq_filter, List.append_assoc, List.erase_append_right _ outside]
  simp

/-- A running job's slot replaced by one that records the same stragglers, and its pid unless
`gone`: the table records what it did, less that pid when `gone`. -/
theorem replace_running_recorded {t t' : Table} {pre post : List (Option Job)} {j J : Job}
    {gone : Bool} (split : t.slots = pre ++ some j :: post)
    (split' : t'.slots = pre ++ some J :: post) (same_untracked : t'.untracked = t.untracked)
    (running : j.status ≠ .done)
    (replaced : slotRecorded (some J) = (if gone then [] else [j.pid]) ++ j.stragglers)
    (nodup : t.recorded.Nodup) :
    t'.recorded.Perm (t.recorded.filter fun p => !(j.pid == p && gone)) := by
  have tracked : slotRecorded (some j) = [j.pid] ++ j.stragglers := by
    simp [slotRecorded, running]
  rw [recorded_split split', same_untracked, replaced]
  rw [recorded_split split, tracked] at nodup ⊢
  cases gone
  · simp
  · -- the pid occurs once, so filtering it out is erasing it from its own slot
    have dropped : ∀ l : List Int,
        l.filter (fun p => !(j.pid == p && true)) = l.filter (· != j.pid) :=
      fun l => List.filter_congr fun p _ => by simp [bne, eq_comm]
    rw [dropped, filter_ne_split nodup]
    simp

theorem untrack_recorded (t : Table) (pids : List Int) :
    (t.untrack pids).recorded = t.recorded ++ pids := by
  simp [recorded, untrack]

end Table

/-! ## Runs of the shell's table operations -/

/-- The job table, the waiter it waits through, the pids handed to it in order, and the waits
that count: the table's own, and the shell's waits whose status it passed to `Job.record`. -/
structure Ledger (σ : Type) where
  table : Table
  waiter : σ
  handed : List Int
  log : List Waited

namespace Ledger

variable {σ : Type}

section Steps

variable [Waiter σ]

/-- One operation of the shell on its job table. -/
inductive Step : Ledger σ → Ledger σ → Prop
  /-- An add hands the table the pid of the new job. -/
  | add {t t' : Table} {w : σ} {handed : List Int} {log : List Waited} {pid id : Int}
      {command : String} {background : Bool} :
      t.add pid command background = .ok (id, t') →
      Step ⟨t, w, handed, log⟩ ⟨t', w, handed ++ [pid], log⟩
  /-- The write of a freshly added job's group and stages, a list holding the job's pid; the
  other stages are handed to the table. -/
  | stages {t t' : Table} {w : σ} {handed : List Int} {log : List Waited} {id pgid : Int}
      {j : Job} {pids : List Int} :
      t.get? id = some j → j.pids = [j.pid] → j.pid ∈ pids →
      t.update? id (fun k => { k with pgid := pgid, pids := pids }) = some t' →
      Step ⟨t, w, handed, log⟩ ⟨t', w, handed ++ pids.filter (· != j.pid), log⟩
  /-- The removal of a Done job. -/
  | removeDone {t t' : Table} {w : σ} {handed : List Int} {log : List Waited} {id : Int}
      {j : Job} :
      t.get? id = some j → j.status = .done → t.remove id = .ok t' →
      Step ⟨t, w, handed, log⟩ ⟨t', w, handed, log⟩
  | cleanup {t : Table} {w : σ} {handed : List Int} {log : List Waited} :
      Step ⟨t, w, handed, log⟩ ⟨t.cleanup.2, w, handed, log⟩
  /-- An untrack hands the table its pids. -/
  | untrack {t : Table} {w : σ} {handed : List Int} {log : List Waited} (pids : List Int) :
      Step ⟨t, w, handed, log⟩ ⟨t.untrack pids, w, handed ++ pids, log⟩
  /-- A reconciliation that returns; its waits, watched through `Logged`, join the log. -/
  | reconcile {t t' : Table} {w w' : σ} {handed : List Int} {log new : List Waited}
      {ids : List Int} :
      t.reconcile (⟨w, []⟩ : Logged σ) = .ok (ids, t', ⟨w', new⟩) →
      Step ⟨t, w, handed, log⟩ ⟨t', w', handed, log ++ new⟩
  /-- The record of a status that a wait of the shell returned for the job's pid. -/
  | record {t t' : Table} {w w' : σ} {handed : List Int} {log : List Waited} {id : Int}
      {j : Job} {opts : Nat} {r : WaitReply} :
      t.get? id = some j → Waiter.wait w j.pid opts = (r, w') → r.err = none → r.pid = j.pid →
      t.update? id (fun k => (k.record r.status).2) = some t' →
      Step ⟨t, w, handed, log⟩ ⟨t', w', handed, log ++ [⟨j.pid, r, false⟩]⟩
  /-- A wait of the shell whose reply is not passed to `Job.record`. -/
  | wait {t : Table} {w w' : σ} {handed : List Int} {log : List Waited} {p : Int} {opts : Nat}
      {r : WaitReply} :
      Waiter.wait w p opts = (r, w') → Step ⟨t, w, handed, log⟩ ⟨t, w', handed, log⟩

/-- The ledgers the shell reaches from a new table. -/
inductive Run : Ledger σ → Prop
  | start (capacity : Int) (w : σ) : Run ⟨Table.empty capacity, w, [], []⟩
  | step {ledger ledger' : Ledger σ} : Run ledger → Step ledger ledger' → Run ledger'

end Steps

/-- The replies of the log are those of a process table: after a wait reports a pid gone,
every later wait on that pid is answered by an error. -/
def Consistent (log : List Waited) : Prop :=
  log.Pairwise fun a b => a.pid = b.pid → a.reply.reportsGone = true → b.reply.err.isSome

/-- The invariant: the table is well formed, it records exactly the pids handed to it that no
wait reported gone, each once; every wait is on a handed pid, a Done job's pid was reported
gone, jobs track positive pids, and no wait of the table follows one that reported its pid
gone. -/
structure Accounted (ledger : Ledger σ) : Prop where
  wellFormed : ledger.table.WellFormed
  recorded_perm :
    ledger.table.recorded.Perm (ledger.handed.filter fun p => !goneIn ledger.log p)
  waited_handed : ∀ e ∈ ledger.log, e.pid ∈ ledger.handed
  done_gone : ∀ j ∈ ledger.table.jobs, j.status = .done → goneIn ledger.log j.pid = true
  pid_positive : ∀ j ∈ ledger.table.jobs, 0 < j.pid
  live : ledger.log.Pairwise fun a b => b.byTable = true → a.pid = b.pid →
    a.reply.reportsGone = false

namespace Accounted

variable {t t' : Table} {w w' : σ} {handed : List Int} {log : List Waited}

theorem mem_recorded {ledger : Ledger σ} (acc : ledger.Accounted) {p : Int} :
    p ∈ ledger.table.recorded ↔ p ∈ ledger.handed ∧ goneIn ledger.log p = false := by
  rw [acc.recorded_perm.mem_iff, List.mem_filter]
  simp

theorem recorded_nodup {ledger : Ledger σ} (acc : ledger.Accounted)
    (once : ledger.handed.Nodup) : ledger.table.recorded.Nodup :=
  acc.recorded_perm.nodup_iff.mpr (once.filter _)

/-- A pid never handed to the table was never reported gone: every wait is on a handed pid. -/
theorem not_gone_of_not_handed {ledger : Ledger σ} (acc : ledger.Accounted) {p : Int}
    (fresh : p ∉ ledger.handed) : goneIn ledger.log p = false :=
  goneIn_of_not_asked fun e member asked => fresh (asked ▸ acc.waited_handed e member)

theorem pid_handed {ledger : Ledger σ} (acc : ledger.Accounted) {j : Job}
    (member : j ∈ ledger.table.jobs) : j.pid ∈ ledger.handed := by
  by_cases finished : j.status = .done
  · obtain ⟨e, logged, asked, -⟩ := goneIn_eq_true.mp (acc.done_gone j member finished)
    exact asked ▸ acc.waited_handed e logged
  · have slot : j.pid ∈ Table.slotRecorded (some j) := by simp [Table.slotRecorded, finished]
    have recorded : j.pid ∈ ledger.table.recorded := by
      simp only [Table.recorded, List.mem_append, List.mem_flatMap]
      exact Or.inl ⟨some j, Table.mem_jobs.mp member, slot⟩
    exact (acc.mem_recorded.mp recorded).1

/-- Handing the table fresh pids that it records at once keeps the invariant's count. -/
theorem filter_handed_append (acc : Accounted ⟨t, w, handed, log⟩) {pids : List Int}
    (once : (handed ++ pids).Nodup) :
    (handed ++ pids).filter (fun p => !goneIn log p) =
      handed.filter (fun p => !goneIn log p) ++ pids := by
  rw [List.filter_append]
  congr 1
  refine List.filter_eq_self.mpr fun p member => ?_
  have fresh : p ∉ handed := fun old => (List.nodup_append.mp once).2.2 p old p member rfl
  simp [acc.not_gone_of_not_handed fresh]

theorem start (capacity : Int) (w : σ) : Accounted ⟨Table.empty capacity, w, [], []⟩ where
  wellFormed := Table.WellFormed.empty capacity
  recorded_perm := by simp [Table.recorded, Table.empty]
  waited_handed := by simp
  done_gone := by simp [Table.jobs, Table.empty]
  pid_positive := by simp [Table.jobs, Table.empty]
  live := List.Pairwise.nil

theorem add (acc : Accounted ⟨t, w, handed, log⟩) {pid id : Int} {command : String}
    {background : Bool} (added : t.add pid command background = .ok (id, t'))
    (once : (handed ++ [pid]).Nodup) : Accounted ⟨t', w, handed ++ [pid], log⟩ := by
  obtain ⟨positive, -, -, result⟩ := Table.add_eq_ok.mp added
  have jobs : ∀ k ∈ t'.jobs, k ∈ t.jobs ∨ (k.pid = pid ∧ k.status = .running) := by
    intro k member
    rw [result] at member
    simp only [Table.jobs, List.filterMap_append, List.mem_append] at member
    rcases member with old | new
    · exact Or.inl old
    · simp only [List.filterMap_cons, id_eq, List.filterMap_nil, List.mem_singleton] at new
      exact Or.inr ⟨by rw [new], by rw [new]⟩
  refine ⟨acc.wellFormed.add added, ?_, ?_, ?_, ?_, acc.live⟩
  · rw [acc.filter_handed_append once]
    exact (Table.add_recorded added).trans (acc.recorded_perm.append_right _)
  · exact fun e logged => List.mem_append_left _ (acc.waited_handed e logged)
  · intro k member finished
    rcases jobs k member with old | ⟨-, running⟩
    · exact acc.done_gone k old finished
    · exact absurd (finished.symm.trans running) (by decide)
  · intro k member
    rcases jobs k member with old | ⟨same, -⟩
    · exact acc.pid_positive k old
    · exact same ▸ positive

theorem untrack (acc : Accounted ⟨t, w, handed, log⟩) (pids : List Int)
    (once : (handed ++ pids).Nodup) : Accounted ⟨t.untrack pids, w, handed ++ pids, log⟩ where
  wellFormed := acc.wellFormed.untrack pids
  recorded_perm := by
    rw [acc.filter_handed_append once, Table.untrack_recorded]
    exact acc.recorded_perm.append_right _
  waited_handed := fun e logged => List.mem_append_left _ (acc.waited_handed e logged)
  done_gone := acc.done_gone
  pid_positive := acc.pid_positive
  live := acc.live

theorem cleanup (acc : Accounted ⟨t, w, handed, log⟩) :
    Accounted ⟨t.cleanup.2, w, handed, log⟩ where
  wellFormed := acc.wellFormed.cleanup
  recorded_perm := (Table.cleanup_recorded t).trans acc.recorded_perm
  waited_handed := acc.waited_handed
  done_gone := fun k member => by
    rw [Table.cleanup_jobs] at member
    exact acc.done_gone k (List.mem_filter.mp member).1
  pid_positive := fun k member => by
    rw [Table.cleanup_jobs] at member
    exact acc.pid_positive k (List.mem_filter.mp member).1
  live := acc.live

theorem removeDone (acc : Accounted ⟨t, w, handed, log⟩) {id : Int} {j : Job}
    (found : t.get? id = some j) (finished : j.status = .done) (removed : t.remove id = .ok t') :
    Accounted ⟨t', w, handed, log⟩ := by
  obtain ⟨pre, post, split, named, others⟩ := acc.wellFormed.split_get found
  have survivors : ∀ k ∈ t'.jobs, k ∈ t.jobs := fun k member => by
    rw [Table.remove_jobs acc.wellFormed removed] at member
    exact (List.mem_filter.mp member).1
  exact ⟨acc.wellFormed.remove removed,
    (Table.removeDone_recorded split named others finished removed).trans acc.recorded_perm,
    acc.waited_handed, fun k member => acc.done_gone k (survivors k member),
    fun k member => acc.pid_positive k (survivors k member), acc.live⟩

theorem stages (acc : Accounted ⟨t, w, handed, log⟩) {id pgid : Int} {j : Job}
    {pids : List Int} (found : t.get? id = some j) (alone : j.pids = [j.pid])
    (updated : t.update? id (fun k => { k with pgid := pgid, pids := pids }) = some t')
    (once : (handed ++ pids.filter (· != j.pid)).Nodup) :
    Accounted ⟨t', w, handed ++ pids.filter (· != j.pid), log⟩ := by
  obtain ⟨pre, post, split, named, others⟩ := acc.wellFormed.split_get found
  have result := Table.update_split split named others updated
  have split' : t'.slots = pre ++ some { j with pgid := pgid, pids := pids } :: post := by
    rw [result]
  have untracked_same : t'.untracked = t.untracked := by rw [result]
  have member : j ∈ t.jobs := List.mem_of_find?_eq_some found
  have jobs : ∀ k ∈ t'.jobs, k ∈ t.jobs ∨ (k.pid = j.pid ∧ k.status = j.status) := by
    intro k member'
    rcases Table.mem_jobs_of_split split split' member' with rfl | old
    · exact Or.inr ⟨rfl, rfl⟩
    · exact Or.inl old
  refine ⟨acc.wellFormed.update (by intro; rfl) updated, ?_,
    fun e logged => List.mem_append_left _ (acc.waited_handed e logged), ?_, ?_, acc.live⟩
  · rw [acc.filter_handed_append once, Table.recorded_split split', untracked_same]
    refine List.Perm.trans ?_ (acc.recorded_perm.append_right _)
    rw [Table.recorded_split split]
    simp only [Table.slotRecorded, Table.stragglers_alone alone, List.append_nil,
      List.append_assoc]
    refine List.Perm.append_left _ (List.Perm.append_left _ (List.perm_append_comm.trans ?_))
    rw [List.append_assoc]
    exact List.Perm.refl _
  · intro k member' finished
    rcases jobs k member' with old | ⟨same_pid, same_status⟩
    · exact acc.done_gone k old finished
    · exact same_pid ▸ acc.done_gone j member (same_status ▸ finished)
  · intro k member'
    rcases jobs k member' with old | ⟨same_pid, -⟩
    · exact acc.pid_positive k old
    · exact same_pid ▸ acc.pid_positive j member

/-- A job whose pid a wait of the shell answered without error is not Done: a Done job's pid
was reported gone, and a consistent log has every wait after that fail. -/
theorem not_done_of_answered (acc : Accounted ⟨t, w, handed, log⟩) {j : Job} {r : WaitReply}
    (member : j ∈ t.jobs) (quiet : r.err = none)
    (consistent : Consistent (log ++ [⟨j.pid, r, false⟩])) : j.status ≠ .done := by
  intro finished
  obtain ⟨a, logged, same, gone⟩ := goneIn_eq_true.mp (acc.done_gone j member finished)
  have failed := (List.pairwise_append.mp consistent).2.2 a logged _
    (List.mem_singleton_self _) same gone
  simp [quiet] at failed

/-- Recording a status that a wait of the shell returned for a job's pid: the job cannot be
Done, since its pid was reported gone and the wait would have failed; the pid leaves the
recorded ones exactly when the status reports it gone. -/
theorem record (acc : Accounted ⟨t, w, handed, log⟩) {id : Int} {j : Job} {r : WaitReply}
    (found : t.get? id = some j) (quiet : r.err = none) (asked : r.pid = j.pid)
    (updated : t.update? id (fun k => (k.record r.status).2) = some t') (once : handed.Nodup)
    (consistent : Consistent (log ++ [⟨j.pid, r, false⟩])) (w' : σ) :
    Accounted ⟨t', w', handed, log ++ [⟨j.pid, r, false⟩]⟩ := by
  obtain ⟨pre, post, split, named, others⟩ := acc.wellFormed.split_get found
  have member : j ∈ t.jobs := List.mem_of_find?_eq_some found
  have running := acc.not_done_of_answered member quiet consistent
  -- with no error and the job's own pid, `Job.record` is what a poll makes of the reply
  have settled : r.interrupted = false := by simp [WaitReply.interrupted, quiet]
  have outcome : (j.record r.status).2 = (Table.pollOutcome j r).2 := by
    have positive := acc.pid_positive j member
    have : r.pid ≠ 0 := by omega
    simp [Table.pollOutcome, quiet, this]
  obtain ⟨same_pid, recorded_after, done_after⟩ := Table.pollOutcome_job running settled
  rw [← outcome] at same_pid recorded_after done_after
  have result := Table.update_split split named others updated
  have split' : t'.slots = pre ++ some (j.record r.status).2 :: post := by rw [result]
  have untracked_same : t'.untracked = t.untracked := by rw [result]
  have single : ∀ p, goneIn [⟨j.pid, r, false⟩] p = (j.pid == p && r.reportsGone) := by
    intro p
    simp [goneIn]
  refine ⟨acc.wellFormed.update (by intro; exact Table.applyWait_id _ _) updated, ?_, ?_, ?_, ?_,
    ?_⟩
  · have filtered : handed.filter (fun p => !goneIn (log ++ [⟨j.pid, r, false⟩]) p) =
        (handed.filter fun p => !goneIn log p).filter fun p => !(j.pid == p && r.reportsGone) := by
      rw [List.filter_filter]
      refine List.filter_congr fun p _ => ?_
      simp [single, Bool.and_comm]
    rw [filtered]
    exact (Table.replace_running_recorded split split' untracked_same running recorded_after
      (acc.recorded_nodup once)).trans (acc.recorded_perm.filter _)
  · intro e logged
    rcases List.mem_append.mp logged with old | new
    · exact acc.waited_handed e old
    · rw [List.mem_singleton.mp new]
      exact acc.pid_handed member
  · intro k member' finished
    rcases Table.mem_jobs_of_split split split' member' with rfl | old
    · simp [single, done_after finished, same_pid]
    · simp [acc.done_gone k old finished]
  · intro k member'
    rcases Table.mem_jobs_of_split split split' member' with rfl | old
    · exact same_pid ▸ acc.pid_positive j member
    · exact acc.pid_positive k old
  · refine List.pairwise_append.mpr ⟨acc.live, List.pairwise_singleton _ _, ?_⟩
    intro a _ b new by_table
    rw [List.mem_singleton.mp new] at by_table
    cases by_table

/-- A reconciliation drops from the recorded pids exactly those its waits reported gone, and
waits only on recorded pids, none of which a wait had reported gone. -/
theorem reconcile [Waiter σ] (honest : Waiter.BoundsInterrupts σ)
    (acc : Accounted ⟨t, w, handed, log⟩) (once : handed.Nodup) {ids : List Int}
    {logged : List Waited}
    (done : t.reconcile (⟨w, []⟩ : Logged σ) = .ok (ids, t', ⟨w', logged⟩)) :
    Accounted ⟨t', w', handed, log ++ logged⟩ := by
  obtain ⟨-, settled⟩ := Table.reconcile_eq_ok_iff.mp done
  obtain ⟨new, run, accounts, jobs, -⟩ :=
    Table.reconcileFilled_logged honest t w [] (acc.recorded_nodup once)
  rw [run] at settled
  simp only [Prod.mk.injEq, Logged.mk.injEq, List.nil_append] at settled
  obtain ⟨-, rfl, rfl, rfl⟩ := settled
  refine ⟨acc.wellFormed.reconcile w, ?_, ?_, ?_, ?_, ?_⟩
  · have filtered : handed.filter (fun p => !goneIn (log ++ new) p) =
        (handed.filter fun p => !goneIn log p).filter fun p => !goneIn new p := by
      rw [List.filter_filter]
      refine List.filter_congr fun p _ => ?_
      simp [Bool.and_comm]
    rw [filtered]
    exact accounts.kept.trans (acc.recorded_perm.filter _)
  · intro e logged
    rcases List.mem_append.mp logged with old | fresh
    · exact acc.waited_handed e old
    · exact (acc.mem_recorded.mp (accounts.asked e fresh).1).1
  · intro J member finished
    obtain ⟨j, older, same, done_or⟩ := jobs J member
    rcases done_or finished with was_done | gone
    · simp [same, acc.done_gone j older was_done]
    · simp [same, gone]
  · intro J member
    obtain ⟨j, older, same, -⟩ := jobs J member
    exact same ▸ acc.pid_positive j older
  · refine List.pairwise_append.mpr
      ⟨acc.live, accounts.fresh.imp fun quiet _ same => quiet same, ?_⟩
    intro a old b fresh _ same
    have live := (acc.mem_recorded.mp (accounts.asked b fresh).1).2
    exact goneIn_eq_false.mp live a old same

theorem wait (acc : Accounted ⟨t, w, handed, log⟩) (w' : σ) :
    Accounted ⟨t, w', handed, log⟩ :=
  ⟨acc.wellFormed, acc.recorded_perm, acc.waited_handed, acc.done_gone, acc.pid_positive,
    acc.live⟩

end Accounted

section Runs

variable [Waiter σ]

theorem Step.handed_prefix {ledger ledger' : Ledger σ} (step : Step ledger ledger') :
    ledger.handed <+: ledger'.handed := by
  cases step <;> simp

theorem Step.log_prefix {ledger ledger' : Ledger σ} (step : Step ledger ledger') :
    ledger.log <+: ledger'.log := by
  cases step <;> simp

theorem Accounted.step (honest : Waiter.BoundsInterrupts σ) {ledger ledger' : Ledger σ}
    (acc : ledger.Accounted) (step : Step ledger ledger') (once : ledger'.handed.Nodup)
    (consistent : Consistent ledger'.log) : ledger'.Accounted := by
  cases step with
  | add added => exact acc.add added once
  | stages found alone _ updated => exact acc.stages found alone updated once
  | removeDone found finished removed => exact acc.removeDone found finished removed
  | cleanup => exact acc.cleanup
  | untrack pids => exact acc.untrack pids once
  | reconcile done => exact acc.reconcile honest once done
  | record found _ quiet asked updated =>
    exact acc.record found quiet asked updated once consistent _
  | wait _ => exact acc.wait _

/-- The invariant holds of every ledger a run reaches, when no pid was handed twice and the log
is consistent; both conditions pass to every earlier ledger of the run. -/
theorem Run.accounted (honest : Waiter.BoundsInterrupts σ) {ledger : Ledger σ}
    (run : Run ledger) :
    ledger.handed.Nodup → Consistent ledger.log → ledger.Accounted := by
  induction run with
  | start capacity w => exact fun _ _ => Accounted.start capacity w
  | step _ step ih =>
    intro once consistent
    exact (ih (once.sublist step.handed_prefix.sublist)
      (List.Pairwise.sublist step.log_prefix.sublist consistent)).step honest step once consistent

/-- At every point of a run in which no pid is handed to the table twice, against a waiter
whose interruption bound is honest and whose replies are those of a process table, the pids the
table records (the pid of every job not Done, every other stage of a job, and the untracked
pids) are exactly the pids handed to it that no wait reported gone by an exit, a death by
signal or an error other than an interruption; and no wait of the table follows a wait that
reported its pid gone. -/
theorem Run.recorded_iff_handed_not_gone (honest : Waiter.BoundsInterrupts σ)
    {ledger : Ledger σ} (run : Run ledger) (once : ledger.handed.Nodup)
    (consistent : Consistent ledger.log) :
    (∀ p, p ∈ ledger.table.recorded ↔
      p ∈ ledger.handed ∧ ¬∃ e ∈ ledger.log, e.pid = p ∧ e.reply.reportsGone = true) ∧
    ledger.log.Pairwise fun a b => b.byTable = true → a.pid = b.pid →
      a.reply.reportsGone = false := by
  have acc := run.accounted honest once consistent
  refine ⟨fun p => ?_, acc.live⟩
  rw [acc.mem_recorded, ← goneIn_eq_true]
  simp

end Runs

end Ledger

theorem FrozenWaiter.boundsInterrupts : Waiter.BoundsInterrupts FrozenWaiter := by
  intro w p opts interrupted
  simp [Waiter.wait, WaitReply.interrupted, WaitReply.nothing] at interrupted

/-- A run through every kind of step: two jobs, the first given a second stage, a third job, two
pids handed untracked, a reconciliation that reaps, stops, ends two jobs (one past an
interruption) and leaves a pid not yet gone, the removal of a done job, a cleanup, and a second
reconciliation that reaps the last untracked pid. -/
theorem pids_accounted_through_reaps :
    let final : Ledger WaitScript :=
      ⟨⟨[some ⟨1, 10, 10, [10], "a | b", .stopped, true, 0⟩], true, 3, 64, []⟩,
        { queues := [(31, []), (30, []), (40, []), (20, []), (10, []), (9, [])]
          gone := [31, 30, 40, 20, 9]
          calls := #[(9, 1), (10, 11), (20, 11), (20, 11), (40, 11), (30, 1), (31, 1), (10, 11),
            (31, 1)] },
        [10, 9, 20, 40, 30, 31],
        [⟨9, ⟨9, WaitStatus.ofExit 0, none⟩, true⟩, ⟨10, ⟨10, WaitStatus.ofStop 19, none⟩, true⟩,
          ⟨20, WaitReply.failure .intr, true⟩, ⟨20, ⟨20, WaitStatus.ofExit 3, none⟩, true⟩,
          ⟨40, ⟨40, WaitStatus.ofExit 1, none⟩, true⟩, ⟨30, ⟨30, WaitStatus.ofSignal 9, none⟩, true⟩,
          ⟨31, WaitReply.nothing, true⟩, ⟨10, WaitReply.nothing, true⟩,
          ⟨31, ⟨31, WaitStatus.ofExit 0, none⟩, true⟩]⟩
    Waiter.BoundsInterrupts WaitScript ∧ Ledger.Run final ∧ final.handed.Nodup ∧
      Ledger.Consistent final.log ∧
      (∀ p, p ∈ final.table.recorded ↔
        p ∈ final.handed ∧ ¬∃ e ∈ final.log, e.pid = p ∧ e.reply.reportsGone = true) ∧
      final.log.Pairwise fun a b => b.byTable = true → a.pid = b.pid →
        a.reply.reportsGone = false := by
  intro final
  -- two jobs, the first given a second stage, then a third; two pids handed untracked
  have r₁ := (Ledger.Run.start 0 ({ queues := [(9, [{ status := WaitStatus.ofExit 0 }]),
      (10, [{ status := WaitStatus.ofStop 19 }]),
      (20, [{ err := some .intr }, { status := WaitStatus.ofExit 3 }]),
      (40, [{ status := WaitStatus.ofExit 1 }]), (30, [{ status := WaitStatus.ofSignal 9 }]),
      (31, [{ pid := some 0 }, { status := WaitStatus.ofExit 0 }])] } : WaitScript)).step
    (.add (rfl : (Table.empty 0).add 10 "a | b" true = .ok (1, _)))
  have r₂ := r₁.step (.stages (rfl : Table.get? _ 1 = some _) rfl (by decide)
    (rfl : Table.update? _ 1 (fun k => { k with pgid := 10, pids := [9, 10] }) = some _))
  have r₃ := r₂.step (.add (rfl : Table.add _ 20 "c" true = .ok (2, _)))
  have r₄ := r₃.step (.add (rfl : Table.add _ 40 "d" false = .ok (3, _)))
  have r₅ := r₄.step (.untrack [30, 31])
  -- the first reconciliation reaps the second stage, stops the first job, ends the other two
  -- (one past an interruption), reaps 30 and finds 31 not yet gone
  have r₆ : Ledger.Run (⟨⟨[some ⟨1, 10, 10, [10], "a | b", .stopped, true, 0⟩,
      some ⟨2, 20, 20, [], "c", .done, true, 3⟩, some ⟨3, 40, 40, [], "d", .done, false, 1⟩],
      true, 3, 64, [31]⟩,
      { queues := [(31, [{ status := WaitStatus.ofExit 0 }]), (30, []), (40, []), (20, []), (10, []),
          (9, [])]
        gone := [30, 40, 20, 9]
        calls := #[(9, 1), (10, 11), (20, 11), (20, 11), (40, 11), (30, 1), (31, 1)] },
      [10, 9, 20, 40, 30, 31],
      [⟨9, ⟨9, WaitStatus.ofExit 0, none⟩, true⟩, ⟨10, ⟨10, WaitStatus.ofStop 19, none⟩, true⟩,
        ⟨20, WaitReply.failure .intr, true⟩, ⟨20, ⟨20, WaitStatus.ofExit 3, none⟩, true⟩,
        ⟨40, ⟨40, WaitStatus.ofExit 1, none⟩, true⟩, ⟨30, ⟨30, WaitStatus.ofSignal 9, none⟩, true⟩,
        ⟨31, WaitReply.nothing, true⟩]⟩ : Ledger WaitScript) :=
    r₅.step (.reconcile rfl)
  -- the done job 2 is removed, the done job 3 cleaned up
  have r₇ := r₆.step (.removeDone (rfl : Table.get? _ 2 = some _) rfl
    (rfl : Table.remove _ 2 = .ok _))
  have r₈ := r₇.step .cleanup
  -- the second reconciliation finds the stopped job quiet and reaps 31; it waits on no pid
  -- already reported gone
  have run : Ledger.Run final := r₈.step (.reconcile rfl)
  have once : final.handed.Nodup := by decide
  have consistent : Ledger.Consistent final.log := by
    unfold Ledger.Consistent
    decide
  exact ⟨WaitScript.boundsInterrupts, run, once, consistent,
    Ledger.Run.recorded_iff_handed_not_gone WaitScript.boundsInterrupts run once consistent⟩

end JobShell

import JobShell.Proofs.Shell.Waits
import JobShell.Proofs.Jobs.Invariant
import Mathlib.Data.List.Nodup

/-!
# The event log as a trace of job lifecycles

The job events of a session's log, read as pairs of an event name and the job as it was
logged, form a faithful trace of each job's lifecycle (`Lifecycles`) when every event carries
the status its name reports, no event of a job comes before its start, none comes after its
end, and events with the same id are about the same job: the same tracked pid, process group
and display text, what stays of a job once it is set up (`Job.identity`).

The shell keeps its log so by keeping more (`Session.Tracing`), along a run whose waits are `F`:
its table is well formed, its system answers the rest of `F` as `wait4` does, every logged id
has been handed out, and every job in the table agrees with the log (every event with its id is
about it, and once one reports it done it is done). This module proves what each kind of change
to a session does to that invariant: a new table whose jobs agree with the log
(`Traced.of_jobs`), a new system that answers as `wait4` does (`Traced.of_system`), and one more
event about a job of the table (`Traced.of_event`).
-/
namespace JobShell

/-! ## Tables -/

namespace Table

theorem get?_spec {t : Table} {id : Int} {j : Job} (found : t.get? id = some j) :
    j ∈ t.jobs ∧ j.id = id :=
  ⟨List.mem_of_find?_eq_some found, by simpa using List.find?_some found⟩

/-- In a well-formed table, a job is the one its id finds. -/
theorem WellFormed.get?_of_mem {t : Table} (wf : t.WellFormed) {j : Job} (member : j ∈ t.jobs) :
    t.get? j.id = some j := by
  cases found : t.get? j.id with
  | none =>
    rw [get?, List.find?_eq_none] at found
    simpa using found j member
  | some k =>
    obtain ⟨k_member, same⟩ := get?_spec found
    rw [List.inj_on_of_nodup_map wf.ids_nodup k_member member same]

theorem update?_jobs {t t' : Table} {id : Int} {f : Job → Job} (updated : t.update? id f = some t') :
    t'.jobs = t.jobs.map fun j => if j.id == id then f j else j := by
  obtain ⟨-, rfl⟩ := update?_eq_some updated
  simp only [jobs, List.filterMap_map]
  induction t.slots with
  | nil => rfl
  | cons s rest ih =>
    cases s with
    | none => simpa using ih
    | some j => simpa using ih

/-- After an update that keeps ids, the id finds the updated job. -/
theorem get?_update? {t t' : Table} {id : Int} {f : Job → Job} (keeps_id : ∀ j, (f j).id = j.id)
    (updated : t.update? id f = some t') : t'.get? id = (t.get? id).map f := by
  rw [get?, get?, update?_jobs updated, List.find?_map]
  have same : ((fun j : Job => j.id == id) ∘ fun j => if j.id == id then f j else j) =
      fun j => j.id == id := by
    funext j
    by_cases named : j.id = id <;> simp [named, keeps_id]
  rw [same]
  cases found : t.jobs.find? (·.id == id) with
  | none => rfl
  | some j =>
    have named : j.id = id := by simpa using List.find?_some found
    simp [named]

theorem update?_eq_none {t : Table} {id : Int} {f : Job → Job} (missed : t.update? id f = none) :
    t.get? id = none := by
  unfold update? at missed
  split at missed
  · cases missed
  · rename_i absent
    simpa using absent

/-- A slot that holds a job holds one of the table's jobs. -/
theorem slot?_mem {t : Table} {i : Int} {j : Job} (found : t.slot? i = some (some j)) :
    j ∈ t.jobs := by
  unfold slot? at found
  split at found
  · cases found
  · exact mem_jobs.mpr (List.mem_of_getElem? found)

theorem lastWithStatus?_spec {t : Table} {s : JobStatus} {j : Job}
    (found : t.lastWithStatus? s = some j) : j ∈ t.jobs ∧ j.status = s :=
  ⟨List.mem_reverse.mp (List.mem_of_find?_eq_some found), by simpa using List.find?_some found⟩

theorem add_jobs {t t' : Table} {pid id : Int} {command : String} {background : Bool}
    (added : t.add pid command background = .ok (id, t')) :
    id = t.lastId + 1 ∧ t'.lastId = id ∧ ∃ j, j.id = id ∧ j.status = .running ∧
      t'.jobs = t.jobs ++ [j] := by
  obtain ⟨-, -, rfl, rfl⟩ := add_eq_ok.mp added
  refine ⟨rfl, rfl, ⟨t.lastId + 1, pid, pid, [pid], truncateCommand command, .running, background,
    0⟩, rfl, rfl, ?_⟩
  simp [jobs]

end Table

/-! ## What stays of a job -/

namespace Job

/-- What stays of a job once it is set up: its id, tracked pid, process group and display
text. -/
def identity (j : Job) : Int × Int × Int × String := (j.id, j.pid, j.pgid, j.command)

@[simp] theorem identity_forget (j : Job) (pid : Int) : (j.forget pid).identity = j.identity :=
  rfl

@[simp] theorem identity_applyWait (j : Job) (w : WaitStatus) :
    (j.applyWait w).identity = j.identity := by
  unfold applyWait
  split_ifs <;> rfl

theorem id_eq_of_identity {j j' : Job} (same : j.identity = j'.identity) : j.id = j'.id :=
  congrArg Prod.fst same

end Job

namespace Table

section Refresh

variable {σ : Type} [Waiter σ]

theorem poll_identity (w : σ) (j : Job) : (poll w j).2.1.identity = j.identity := by
  rw [poll_eq]
  unfold pollOutcome
  split
  · rfl
  · split
    · rfl
    · exact Job.identity_applyWait j _

theorem foldl_reapStraggler_identity (pids : List Int) (j : Job) (w : σ) :
    (pids.foldl reapStraggler (j, w)).1.identity = j.identity := by
  induction pids generalizing j w with
  | nil => rfl
  | cons pid rest ih =>
    rw [List.foldl_cons, ih]
    unfold reapStraggler
    split
    split <;> rfl

/-- Refreshing a job keeps what stays of it, and leaves a Done job as it is. -/
theorem refresh_identity (w : σ) (j : Job) : (refresh w j).2.1.identity = j.identity := by
  rw [refresh_eq]
  split
  · rfl
  · rw [poll_identity, foldl_reapStraggler_identity]

theorem refresh_of_done (w : σ) {j : Job} (done : j.status = .done) : refresh w j = (false, j, w) := by
  rw [refresh_eq, if_pos (by simp [done])]

/-- Every job a refresh of the slots leaves comes from a job that was there: it is the same
job, and if that one was Done it is unchanged. -/
theorem refreshFilled_jobs (w : σ) (slots : List (Option Job)) :
    ∀ j' ∈ (refreshFilled w slots).2.1.filterMap id, ∃ j ∈ slots.filterMap id,
      j'.identity = j.identity ∧ (j.status = .done → j' = j) := by
  induction slots generalizing w with
  | nil => intro j' member; cases member
  | cons slot rest ih =>
    cases slot with
    | none => simpa [refreshFilled] using ih w
    | some j =>
      intro j' member
      simp only [refreshFilled, List.filterMap_cons, id, List.mem_cons] at member
      rcases member with rfl | later
      · refine ⟨j, List.mem_cons_self, refresh_identity w j, fun done => ?_⟩
        rw [refresh_of_done w done]
      · obtain ⟨k, k_member, same, kept⟩ := ih _ j' later
        exact ⟨k, List.mem_cons_of_mem _ (by simpa using k_member), same, kept⟩

/-- The ids a refresh of the slots reports changed are ids of jobs that were not Done, in
slot order. -/
theorem refreshFilled_changed (w : σ) (slots : List (Option Job)) :
    (refreshFilled w slots).1.Sublist
      (((slots.filterMap id).filter (·.status != .done)).map Job.id) := by
  induction slots generalizing w with
  | nil => exact List.Sublist.slnil
  | cons slot rest ih =>
    cases slot with
    | none => simpa [refreshFilled] using ih w
    | some j =>
      simp only [refreshFilled, List.filterMap_cons, id]
      by_cases done : j.status = .done
      · rw [refresh_of_done w done]
        simpa [done] using ih w
      · have kept := ih (refresh w j).2.2
        simp only [done, bne_iff_ne, ne_eq, not_false_eq_true, List.filter_cons_of_pos, List.map_cons]
        split
        · rw [refresh_id]
          exact kept.cons_cons _
        · exact kept.cons _

end Refresh

end Table

/-! ## Job events -/

namespace Event

/-- A job event as its name and the job it was logged with. -/
def jobPart : Event → Option (String × Job)
  | .job name j => some (name, j)
  | .execFailed _ _ => none

/-- The status a job event says its job is in. -/
def reportedStatus : String → Option JobStatus
  | "job_started" | "job_resumed" => some .running
  | "job_stopped" => some .stopped
  | "job_done" => some .done
  | _ => none

@[simp] theorem reportedStatus_started : reportedStatus started = some .running := rfl

@[simp] theorem reportedStatus_resumed : reportedStatus resumed = some .running := rfl

@[simp] theorem reportedStatus_stopped : reportedStatus stopped = some .stopped := rfl

@[simp] theorem reportedStatus_finished : reportedStatus finished = some .done := rfl

end Event

/-- The job events of a session's log, in order. -/
def Session.jobLog (σ : Session) : List (String × Job) :=
  σ.world.events.toList.filterMap Event.jobPart

/-- A log of job events that traces each job's lifecycle faithfully. -/
structure Lifecycles (log : List (String × Job)) : Prop where
  /-- Every event carries the status its name reports. -/
  reports : ∀ e ∈ log, Event.reportedStatus e.1 = some e.2.status
  /-- No event of a job comes before its start. -/
  starts_first : log.Pairwise fun d e => e.1 = Event.started → d.2.id ≠ e.2.id
  /-- No event of a job comes after its end; in particular it ends once. -/
  ends_last : log.Pairwise fun d e => d.1 = Event.finished → d.2.id ≠ e.2.id
  /-- Events with the same id are about the same job. -/
  one_job : log.Pairwise fun d e => d.2.id = e.2.id → d.2.identity = e.2.identity

namespace Lifecycles

theorem nil : Lifecycles [] where
  reports := fun _ member => by cases member
  starts_first := List.Pairwise.nil
  ends_last := List.Pairwise.nil
  one_job := List.Pairwise.nil

/-- One more event keeps a log faithful when it carries the status its name reports, comes
after no event of its id if it is a start, after no end of its id, and is about the job the
earlier events of its id are about. -/
theorem snoc {log : List (String × Job)} (trace : Lifecycles log) {name : String} {j : Job}
    (named : Event.reportedStatus name = some j.status)
    (first : name = Event.started → ∀ d ∈ log, d.2.id ≠ j.id)
    (unfinished : ∀ d ∈ log, d.1 = Event.finished → d.2.id ≠ j.id)
    (same : ∀ d ∈ log, d.2.id = j.id → d.2.identity = j.identity) :
    Lifecycles (log ++ [(name, j)]) where
  reports := by
    intro e member
    rcases List.mem_append.mp member with old | new
    · exact trace.reports e old
    · rw [List.mem_singleton.mp new]
      exact named
  starts_first := List.pairwise_append.mpr ⟨trace.starts_first, List.pairwise_singleton _ _,
    fun d old e new => by
      rw [List.mem_singleton.mp new]
      exact fun start => first start d old⟩
  ends_last := List.pairwise_append.mpr ⟨trace.ends_last, List.pairwise_singleton _ _,
    fun d old e new => by
      rw [List.mem_singleton.mp new]
      exact unfinished d old⟩
  one_job := List.pairwise_append.mpr ⟨trace.one_job, List.pairwise_singleton _ _,
    fun d old e new => by
      rw [List.mem_singleton.mp new]
      exact same d old⟩

end Lifecycles

/-- A job agrees with a log when every event with its id is about it, and it is Done once an
event reports it done. -/
def Job.AgreesWith (j : Job) (log : List (String × Job)) : Prop :=
  ∀ e ∈ log, e.2.id = j.id → e.2.identity = j.identity ∧ (e.1 = Event.finished → j.status = .done)

/-- No event of the log is about the id. -/
def Unlogged (log : List (String × Job)) (id : Int) : Prop := ∀ e ∈ log, e.2.id ≠ id

/-- No event of the log reports the job with the id done. -/
def Unfinished (log : List (String × Job)) (id : Int) : Prop :=
  ∀ e ∈ log, e.1 = Event.finished → e.2.id ≠ id

theorem Unlogged.unfinished {log : List (String × Job)} {id : Int} (unlogged : Unlogged log id) :
    Unfinished log id :=
  fun e member _ => unlogged e member

/-- An event that is no end, or is about another job, leaves a job unfinished. -/
theorem Unfinished.snoc {log : List (String × Job)} {id : Int} (unfinished : Unfinished log id)
    {name : String} {j : Job} (other : name ≠ Event.finished ∨ j.id ≠ id) :
    Unfinished (log ++ [(name, j)]) id := by
  intro e member finished
  rcases List.mem_append.mp member with old | new
  · exact unfinished e old finished
  · rw [List.mem_singleton.mp new] at finished ⊢
    exact other.resolve_left (not_not_intro finished)

/-- What keeps a log of job events a faithful trace across the shell's operations, together
with the job table and the system that answers waits, along a run whose waits are `F`. -/
structure Traced (F : List (Int × Nat)) (log : List (String × Job)) (t : Table) (system : System) :
    Prop where
  lifecycles : Lifecycles log
  wellFormed : t.WellFormed
  wait4 : system.Wait4 F
  /-- Every logged id has been handed out. -/
  issued : ∀ e ∈ log, e.2.id ≤ t.lastId
  agrees : ∀ j ∈ t.jobs, j.AgreesWith log

/-- The session's event log is kept a faithful trace, along a run whose waits are `F`. -/
def Session.Tracing (F : List (Int × Nat)) (σ : Session) : Prop :=
  Traced F σ.jobLog σ.shell.jobs σ.world.system

namespace Job.AgreesWith

variable {log : List (String × Job)} {j j' : Job}

/-- A later state of a job agrees with the log when it keeps what stays of the job and stays
Done once it was. -/
theorem later (agrees : j.AgreesWith log) (same : j'.identity = j.identity)
    (keeps_done : j.status = .done → j'.status = .done) : j'.AgreesWith log := by
  intro e member named
  rw [Job.id_eq_of_identity same] at named
  obtain ⟨about, finished⟩ := agrees e member named
  exact ⟨about.trans same.symm, fun ended => keeps_done (finished ended)⟩

/-- With no end of its id in the log, a job's status may change freely. -/
theorem later_unfinished (agrees : j.AgreesWith log) (same : j'.identity = j.identity)
    (unfinished : ∀ e ∈ log, e.1 = Event.finished → e.2.id ≠ j.id) : j'.AgreesWith log := by
  intro e member named
  rw [Job.id_eq_of_identity same] at named
  obtain ⟨about, -⟩ := agrees e member named
  exact ⟨about.trans same.symm, fun ended => absurd named (unfinished e member ended)⟩

/-- Any job agrees with a log that has no event of its id. -/
theorem of_unlogged (unlogged : ∀ e ∈ log, e.2.id ≠ j.id) : j.AgreesWith log :=
  fun e member named => absurd named (unlogged e member)

end Job.AgreesWith

namespace Traced

variable {F : List (Int × Nat)} {log : List (String × Job)} {t t' : Table} {system system' : System}

/-- A new table keeps the invariant when it is well formed, hands out no id twice, and every
job in it agrees with the log. -/
theorem of_jobs (inv : Traced F log t system) (wf : t'.WellFormed) (last : t.lastId ≤ t'.lastId)
    (agree : ∀ j ∈ t'.jobs, j.AgreesWith log) : Traced F log t' system where
  lifecycles := inv.lifecycles
  wellFormed := wf
  wait4 := inv.wait4
  issued := fun e member => Int.le_trans (inv.issued e member) last
  agrees := agree

/-- A new system keeps the invariant when it answers the rest of the run as `wait4` does. -/
theorem of_system (inv : Traced F log t system) (wait4 : system'.Wait4 F) :
    Traced F log t system' where
  lifecycles := inv.lifecycles
  wellFormed := inv.wellFormed
  wait4 := wait4
  issued := inv.issued
  agrees := inv.agrees

/-- An event about a job of the table keeps the invariant when it carries the status its
name reports, is a start only of a job with no events yet, and the job has not been
reported done. -/
theorem of_event (inv : Traced F log t system) {name : String} {j : Job} (member : j ∈ t.jobs)
    (named : Event.reportedStatus name = some j.status)
    (first : name = Event.started → Unlogged log j.id) (unfinished : Unfinished log j.id) :
    Traced F (log ++ [(name, j)]) t system where
  lifecycles := inv.lifecycles.snoc named first unfinished fun d old named_d =>
    (inv.agrees j member d old named_d).1
  wellFormed := inv.wellFormed
  wait4 := inv.wait4
  issued := by
    intro e e_member
    rcases List.mem_append.mp e_member with old | new
    · exact inv.issued e old
    · rw [List.mem_singleton.mp new]
      exact inv.wellFormed.issued j member
  agrees := by
    intro k k_member e e_member named_k
    rcases List.mem_append.mp e_member with old | new
    · exact inv.agrees k k_member e old named_k
    · rw [List.mem_singleton.mp new] at named_k ⊢
      -- ids are unique in the table, so the job with the event's id is the logged one
      have same : j = k := List.inj_on_of_nodup_map inv.wellFormed.ids_nodup member k_member named_k
      subst same
      refine ⟨rfl, fun finished => ?_⟩
      change name = Event.finished at finished
      rw [finished, Event.reportedStatus_finished] at named
      exact (Option.some.inj named).symm

/-- A job of the table that is not Done has not been reported done. -/
theorem unfinished_of_mem (inv : Traced F log t system) {j : Job} (member : j ∈ t.jobs)
    (running : j.status ≠ .done) : Unfinished log j.id :=
  fun e e_member finished named => running ((inv.agrees j member e e_member named).2 finished)

/-- The ids a reconciliation reports changed are each reported once, and are ids of jobs not
reported done. -/
theorem reconciled (inv : Traced F log t system) :
    (t.reconcileFilled system).1.Nodup ∧
      ∀ k ∈ (t.reconcileFilled system).1, Unfinished log k := by
  have changed := Table.refreshFilled_changed system t.slots
  refine ⟨changed.nodup (List.filter_sublist.map _ |>.nodup inv.wellFormed.ids_nodup),
    fun k member => ?_⟩
  obtain ⟨j, j_member, rfl⟩ := List.mem_map.mp (changed.subset member)
  obtain ⟨j_member, running⟩ := List.mem_filter.mp j_member
  exact inv.unfinished_of_mem j_member (by simpa using running)

/-- The id after the last one handed out has no events. -/
theorem unlogged_next (inv : Traced F log t system) : Unlogged log (t.lastId + 1) :=
  fun e member named => by
    have := inv.issued e member
    omega

/-! ### What each table operation keeps -/

theorem cleanup (inv : Traced F log t system) : Traced F log t.cleanup.2 system :=
  inv.of_jobs inv.wellFormed.cleanup (Int.le_refl _) fun j member => by
    rw [Table.cleanup_jobs] at member
    exact inv.agrees j (List.mem_of_mem_filter member)

theorem remove {id : Int} (inv : Traced F log t system) (removed : t.remove id = .ok t') :
    Traced F log t' system := by
  obtain ⟨j, -, -, rfl⟩ := Table.remove_eq_ok removed
  refine inv.of_jobs (inv.wellFormed.remove removed) (Int.le_refl _) fun k member => ?_
  rw [Table.remove_jobs inv.wellFormed removed] at member
  exact inv.agrees k (List.mem_of_mem_filter member)

theorem untrack (inv : Traced F log t system) (pids : List Int) :
    Traced F log (t.untrack pids) system :=
  inv.of_jobs (inv.wellFormed.untrack pids) (Int.le_refl _) inv.agrees

/-- Reconciling the table keeps the invariant when the run keeps to `F` past its waits: every
job it leaves is a job that was there, with what stays of it, and still Done if it was. -/
theorem reconcile (inv : Traced F log t system) (on : (t.reconcileFilled system).2.2.OnTrack F) :
    Traced F log (t.reconcileFilled system).2.1 (t.reconcileFilled system).2.2 := by
  -- each wait of the reconciliation is one step the system follows
  have follows : system.Follows (t.reconcileFilled system).2.2 :=
    Table.reconcileFilled_kept
      (fun w pid opts (before : system.Follows w) => before.trans (System.follows_wait w pid opts)) t (.refl system)
  refine (inv.of_jobs (inv.wellFormed.reconcile system) ?_ fun j' member => ?_).of_system
    ((follows F on).2 inv.wait4)
  · -- reconciling hands out no id
    exact Int.le_refl _
  · rw [Table.reconcileFilled_table] at member
    obtain ⟨j, j_member, same, kept⟩ := Table.refreshFilled_jobs system t.slots j' member
    exact (inv.agrees j j_member).later same fun done => kept done ▸ done

/-- Adding a job keeps the invariant: its id is new. -/
theorem add {pid id : Int} {command : String} {background : Bool} (inv : Traced F log t system)
    (added : t.add pid command background = .ok (id, t')) : Traced F log t' system := by
  obtain ⟨rfl, last, j, named, -, jobs⟩ := Table.add_jobs added
  refine inv.of_jobs (inv.wellFormed.add added) (by omega) fun k member => ?_
  rw [jobs] at member
  rcases List.mem_append.mp member with old | new
  · exact inv.agrees k old
  · rw [List.mem_singleton.mp new]
    exact .of_unlogged fun e e_member => named ▸ inv.unlogged_next e e_member

/-- Rewriting one job keeps the invariant when the job as rewritten agrees with the log. -/
theorem update {id : Int} {f : Job → Job} (inv : Traced F log t system)
    (updated : t.update? id f = some t') (keeps_id : ∀ j, (f j).id = j.id)
    (rewritten : ∀ j ∈ t.jobs, j.id = id → (f j).AgreesWith log) : Traced F log t' system := by
  obtain ⟨-, rfl⟩ := Table.update?_eq_some updated
  refine inv.of_jobs (inv.wellFormed.update keeps_id updated) (Int.le_refl _) fun k member => ?_
  rw [Table.update?_jobs updated, List.mem_map] at member
  obtain ⟨j, j_member, rfl⟩ := member
  by_cases named : j.id = id
  · rw [if_pos (beq_iff_eq.mpr named)]
    exact rewritten j j_member named
  · rw [if_neg (by simpa using named)]
    exact inv.agrees j j_member

/-- Rewriting a job that has not been reported done keeps the invariant when the rewrite
keeps what stays of it. -/
theorem update_unfinished {id : Int} {f : Job → Job} (inv : Traced F log t system)
    (updated : t.update? id f = some t') (keeps : ∀ j, (f j).identity = j.identity)
    (unfinished : Unfinished log id) : Traced F log t' system :=
  inv.update updated (fun j => Job.id_eq_of_identity (keeps j)) fun j member named =>
    (inv.agrees j member).later_unfinished (keeps j) (named ▸ unfinished)

/-- Rewriting a job of which the log has no event keeps the invariant. -/
theorem update_unlogged {id : Int} {f : Job → Job} (inv : Traced F log t system)
    (updated : t.update? id f = some t') (keeps_id : ∀ j, (f j).id = j.id)
    (unlogged : Unlogged log id) : Traced F log t' system :=
  inv.update updated keeps_id fun j _ named =>
    .of_unlogged fun e e_member => (keeps_id j).trans named ▸ unlogged e e_member

end Traced

end JobShell

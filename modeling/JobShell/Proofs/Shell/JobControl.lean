import JobShell.Proofs.Shell.Triples

/-!
# Job control keeps the event log a trace of the jobs

The operations that continue jobs and report what happened to them each keep
`Session.Tracing F`: `reconcile`, which logs every change a poll finds, `reapChildren` and
`catchUp` around it, `foreground` and `background`, and the builtins `fg`, `bg` and `jobs`.

Each relies on a different fact. A reconciliation reports every changed job once and never
one already reported done (`Traced.reconciled`), because Done jobs are not polled. `fg` and
`bg` catch up first and refuse a Done job, so the job they continue has not been reported
done (`jobTarget_tracing`). `foreground` reports a job done only when the wait says it
ended: its wait asks for stops but not for continues, so a reply `wait4` could give is a stop
or an end. It then removes the job.
-/
namespace JobShell

open ShellM

/-! ## Events and jobs -/

namespace Event

theorem resumed_ne_started : resumed ≠ started := by decide

theorem stopped_ne_started : stopped ≠ started := by decide

theorem finished_ne_started : finished ≠ started := by decide

theorem resumed_ne_finished : resumed ≠ finished := by decide

end Event

/-- An exit or a kill makes a job Done. -/
theorem Job.applyWait_status_of_ended {j : Job} {w : WaitStatus} (ended : w.ended = true) :
    (j.applyWait w).status = .done := by
  simp [Job.applyWait, ended]

/-- The job with the given id, when the table has one, satisfies `S`. -/
def Session.JobIs (σ : Session) (id : Int) (S : Job → Prop) : Prop :=
  ∀ j, σ.shell.jobs.get? id = some j → S j

theorem Session.JobIs.of_found {σ : Session} {id : Int} {j : Job} {S : Job → Prop}
    (found : some j = σ.shell.jobs.get? id) (holds : S j) : σ.JobIs id S := by
  intro j' found'
  rw [← found] at found'
  cases found'
  exact holds

namespace Session

variable {F : List (Int × Nat)} {σ σ' : Session} {name : String} {id : Int}

/-- An event about a job not reported done, that is no start and names the status the job
has, keeps the trace. -/
theorem LogsAtMost.reports {s : JobStatus} (logs : σ.LogsAtMost name id σ') (inv : σ.Tracing F)
    (named : Event.reportedStatus name = some s) (has : σ.JobIs id (·.status = s))
    (start : name ≠ Event.started) (unfinished : Unfinished σ.jobLog id) : σ'.Tracing F :=
  logs.tracing inv (fun j found => by rw [named, has j found]) (absurd · start) unfinished

theorem KeepsJobs.unfinished (keeps : σ.KeepsJobs σ') (on : σ'.world.system.OnTrack F)
    (pre : σ.Tracing F ∧ Unfinished σ.jobLog id) : σ'.Tracing F ∧ Unfinished σ'.jobLog id :=
  ⟨keeps.tracing on pre.1, keeps.log ▸ pre.2⟩

theorem Tracing.cleanup (inv : σ.Tracing F) :
    ({ σ with shell := { σ.shell with jobs := σ.shell.jobs.cleanup.2 } } : Session).Tracing F :=
  Traced.cleanup inv

end Session

section Tracing

variable {F : List (Int × Nat)}

/-- Rewriting a job not reported done by a function that keeps what stays of a job keeps the
trace, and the job then has what the function gives every job. -/
theorem updateJob_unfinished {id : Int} {f : Job → Job} {S : Job → Prop}
    (keeps : ∀ j, (f j).identity = j.identity) (gives : ∀ j, S (f j)) :
    TripleOn F (fun σ => σ.Tracing F ∧ Unfinished σ.jobLog id) (updateJob id f)
      fun _ σ => σ.Tracing F ∧ Unfinished σ.jobLog id ∧ σ.JobIs id S := by
  have keeps_id : ∀ j, (f j).id = j.id := fun j => Job.id_eq_of_identity (keeps j)
  refine updateJob_on (fun σ t ⟨inv, unfinished⟩ updated =>
      ⟨inv.update_unfinished updated keeps unfinished, unfinished, fun j found => ?_⟩)
    fun σ ⟨inv, unfinished⟩ missed => ⟨inv, unfinished, fun j found => ?_⟩
  · change t.get? id = some j at found
    rw [Table.get?_update? keeps_id updated] at found
    obtain ⟨j₀, -, rfl⟩ := Option.map_eq_some_iff.mp found
    exact gives j₀
  · rw [Table.update?_eq_none missed] at found
    cases found

/-- Putting the table back without its Done jobs keeps the trace. -/
theorem setJobs_cleanup {t t' : Table} (cleaned : t.cleanup.2 = t') :
    TripleOn F (fun σ => σ.Tracing F ∧ t = σ.shell.jobs) (setJobs t') fun _ => Session.Tracing F :=
  setJobs_on fun σ ⟨inv, same⟩ => by
    have kept := inv.cleanup
    rw [← same, cleaned] at kept
    exact kept

/-! ## Reconciliation -/

/-- While a reconciliation reports what changed: the trace holds, and the ids still to report
are there once each and not reported done. -/
def Session.Reporting (F : List (Int × Nat)) (ids : List Int) (σ : Session) : Prop :=
  σ.Tracing F ∧ ids.Nodup ∧ ∀ k ∈ ids, Unfinished σ.jobLog k

/-- One report of the loop: an event naming the status the job has keeps the loop's invariant
for the ids after it. -/
theorem jobEvent_reporting {name : String} {id : Int} {rest : List Int} {s : JobStatus}
    (named : Event.reportedStatus name = some s) (start : name ≠ Event.started) :
    TripleOn F (fun σ => σ.Reporting F (id :: rest) ∧ σ.JobIs id (·.status = s)) (jobEvent name id)
      fun _ => Session.Reporting F rest :=
  jobEvent_on fun σ σ' ⟨⟨inv, nodup, unfinished⟩, has⟩ logs => by
    obtain ⟨fresh, nodup⟩ := List.nodup_cons.mp nodup
    refine ⟨logs.reports inv named has start (unfinished id (.head _)), nodup, fun k member => ?_⟩
    -- the other ids are other jobs, so the event does not end them
    refine logs.unfinished (unfinished k (.tail _ member)) (.inr ?_)
    rintro rfl
    exact fresh member

theorem reconcile_tracing : TripleOn F (Session.Tracing F) reconcile fun _ => Session.Tracing F := by
  unfold reconcile
  refine .bind_get fun σ => ?_
  split
  · -- a table the shell keeps holds a job in every slot, so reconciling it does not fault
    rename_i f faulted
    refine fun on => ⟨on, fun inv => ?_⟩
    rw [Table.reconcile_eq_ok inv.wellFormed.filled] at faulted
    cases faulted
  rename_i ids t sys reconciled
  have replaced := (Table.reconcile_eq_ok_iff.mp reconciled).2
  intro on
  rw [ShellM.run_bind, ShellM.run_bind] at on ⊢
  -- the reports keep the loop's invariant from the session with the new table and system
  have reported := TripleOn.bind (R := fun _ σ => ∃ rest, Session.Reporting F rest σ)
    (TripleOn.forIn (fun rest _ => Session.Reporting F rest) fun id rest _ => ?_)
    (fun _ => TripleOn.pure fun _ post => post) _ on
  · -- the waits of the reconciliation come before the reports, on track too
    have follows : σ.world.system.Follows (σ.shell.jobs.reconcileFilled σ.world.system).2.2 :=
      Table.reconcileFilled_kept (fun w pid opts (before : σ.world.system.Follows w) =>
        before.trans (System.follows_wait w pid opts)) _ (.refl _)
    rw [replaced] at follows
    refine ⟨(follows F reported.1).1, fun inv => ?_⟩
    have kept := inv.reconcile (replaced ▸ reported.1)
    have changed := inv.reconciled
    rw [replaced] at kept changed
    obtain ⟨_, traced, _⟩ := reported.2 ⟨kept, changed⟩
    exact traced
  refine .bind (job?_on id) fun found => ?_
  cases found with
  | none => exact .pure fun σ ⟨⟨inv, nodup, unfinished⟩, _⟩ =>
      ⟨inv, (List.nodup_cons.mp nodup).2, fun k member => unfinished k (.tail _ member)⟩
  | some j =>
    -- the event names the status the job has now
    dsimp only
    split <;> rename_i status
    · exact .bind ((jobEvent_reporting (s := .done) rfl Event.finished_ne_started).weaken
        fun σ ⟨pre, found⟩ => ⟨pre, .of_found found status⟩) fun _ => .pure fun _ post => post
    · exact .bind ((jobEvent_reporting (s := .stopped) rfl Event.stopped_ne_started).weaken
        fun σ ⟨pre, found⟩ => ⟨pre, .of_found found status⟩) fun _ => .pure fun _ post => post
    · exact .bind ((jobEvent_reporting (s := .running) rfl Event.resumed_ne_started).weaken
        fun σ ⟨pre, found⟩ => ⟨pre, .of_found found status⟩) fun _ => .pure fun _ post => post

theorem takeChildExited_leavesJobs : LeavesJobs takeChildExited :=
  .bind .shell fun _ => .bind (.modifyShell fun _ => rfl) fun _ => .pure _

/-- Catching up after a command keeps the trace: the cleanup drops only Done jobs. -/
theorem reapChildren_tracing : TripleOn F (Session.Tracing F) reapChildren fun _ => Session.Tracing F := by
  unfold reapChildren
  refine .bind takeChildExited_leavesJobs.tracing fun flag => ?_
  split
  · refine .bind reconcile_tracing fun _ => .bind jobs_on fun t => ?_
    split
    rename_i t' cleaned
    exact setJobs_cleanup (congrArg Prod.snd cleaned)
  · exact .pure fun _ inv => inv

theorem catchUp_tracing : TripleOn F (Session.Tracing F) catchUp fun _ => Session.Tracing F := by
  unfold catchUp
  exact .bind takeChildExited_leavesJobs.tracing fun _ => reconcile_tracing

/-! ## Foreground and background -/

/-- Continuing a job not reported done and waiting for it keeps the trace: it is reported
running, then stopped if the wait says so, and otherwise done and removed. -/
theorem resumeAndWait_tracing (id : Int) (j : Job) :
    TripleOn F (fun σ => σ.Tracing F ∧ Unfinished σ.jobLog id) (resumeAndWait id j)
      fun _ => Session.Tracing F := by
  unfold resumeAndWait
  -- the stop report and the part after the signal are join points of the code
  extract_lets stopped resume
  have stopping : TripleOn F (fun σ => σ.Tracing F ∧ Unfinished σ.jobLog id ∧
      σ.JobIs id (·.status = .stopped)) (stopped ()) fun _ => Session.Tracing F :=
    .bind (jobEvent_on fun σ σ' ⟨inv, unfinished, has⟩ logs =>
      logs.reports inv rfl has Event.stopped_ne_started unfinished) fun _ => .pure fun _ inv => inv
  have resuming : ∀ u, TripleOn F (fun σ => σ.Tracing F ∧ Unfinished σ.jobLog id) (resume u)
      fun _ => Session.Tracing F := by
    intro u
    refine .bind (updateJob_unfinished (S := (·.status = .running)) (fun _ => rfl)
      fun _ => rfl) fun _ => ?_
    refine .bind (jobEvent_on (Q := fun σ => σ.Tracing F ∧ Unfinished σ.jobLog id)
      fun σ σ' ⟨inv, unfinished, has⟩ logs =>
        ⟨logs.reports inv rfl has Event.resumed_ne_started unfinished,
          logs.unfinished unfinished (.inl Event.resumed_ne_finished)⟩) fun _ => ?_
    -- a wait that asks for stops but not for continues gets a settled status
    refine .bind (waitFor_on (Q := fun r σ => (σ.Tracing F ∧ Unfinished σ.jobLog id) ∧
      ∀ ws, r = .ok ws → ws.Settled) fun σ σ' r pre keeps on reported =>
        ⟨keeps.unfinished on pre, fun ws returned =>
          (reported pre.1.wait4 ws returned).settled (by decide)⟩) fun r => ?_
    split
    · exact .bind (Q := fun _ => Session.Tracing F) (fun _ on => ⟨on, fun pre => pre.1.1⟩)
        fun _ => .pure fun _ inv => inv
    · rename_i ws
      refine TripleOn.weaken (P := fun σ => (σ.Tracing F ∧ Unfinished σ.jobLog id) ∧ ws.Settled) ?_
        fun σ pre => ⟨pre.1, pre.2 ws rfl⟩
      split
      · refine .bind (TripleOn.mono (TripleOn.frame (updateJob_unfinished (S := (·.status = .stopped))
          (fun _ => rfl) fun _ => rfl)) fun _ _ post => post.1) fun _ => ?_
        refine .bind (job?_on id) fun found => ?_
        split
        · refine .bind ?_ fun _ => stopping
          exact fun _ on => ⟨on, fun pre => pre.1⟩
        · exact stopping.weaken fun σ ⟨pre, _⟩ => pre
      · rename_i running
        -- a settled status that is no stop is an end
        refine .bind (TripleOn.frame (updateJob_unfinished (S := fun j => ws.Settled → j.status = .done)
          (fun j => Job.identity_applyWait j ws) fun j settled => Job.applyWait_status_of_ended
            (settled.ended_of_not_stopped (by simpa using running)))) fun _ => ?_
        refine .bind (jobEvent_on (Q := Session.Tracing F)
          fun σ σ' ⟨⟨inv, unfinished, has⟩, settled⟩ logs => logs.reports inv rfl
            (fun j found => has j found settled) Event.finished_ne_started unfinished) fun _ => ?_
        refine .bind (job?_on id) fun _ => .bind jobs_on fun t => ?_
        split
        · rename_i t' removed
          exact .bind (setJobs_on fun σ ⟨⟨inv, _⟩, same⟩ => inv.remove (same ▸ removed))
            fun _ => .pure fun _ inv => inv
        · exact .pure fun σ ⟨⟨inv, _⟩, _⟩ => inv
  split
  · refine .bind (kill_on (Q := fun σ => σ.Tracing F ∧ Unfinished σ.jobLog id)
      fun σ σ' pre keeps on => keeps.unfinished on pre) fun e => ?_
    split
    · split
      · exact .bind (fun _ on => ⟨on, fun pre => pre⟩) fun u => resuming u
      · exact resuming ()
    · exact resuming ()
  · exact resuming ()

/-- Bringing a job not reported done to the foreground keeps the trace, as
`resumeAndWait_tracing` says: handing it the keyboard signals touches no job. -/
theorem foreground_tracing (id : Int) :
    TripleOn F (fun σ => σ.Tracing F ∧ Unfinished σ.jobLog id) (foreground id)
      fun _ => Session.Tracing F := by
  unfold foreground
  refine .bind (job?_on id) fun found => ?_
  cases found with
  | none => exact .pure fun σ ⟨⟨inv, _⟩, _⟩ => inv
  | some j =>
    refine (TripleOn.withForeground (resumeAndWait_tracing id j) (fun σ σ' same pre => ?_)
      fun _ σ σ' same inv => inv.of_jobState same).weaken fun σ ⟨pre, _⟩ => pre
    exact ⟨pre.1.of_jobState same, Session.jobLog_of_jobState same ▸ pre.2⟩

/-- Continuing a job not reported done in the background keeps the trace: it is reported
running once the signal went through. -/
theorem background_tracing (id : Int) :
    TripleOn F (fun σ => σ.Tracing F ∧ Unfinished σ.jobLog id) (background id)
      fun _ => Session.Tracing F := by
  unfold background
  refine .bind (job?_on id) fun found => ?_
  cases found with
  | none => exact .pure fun σ ⟨⟨inv, _⟩, _⟩ => inv
  | some j =>
    refine .bind (kill_on (Q := fun σ => σ.Tracing F ∧ Unfinished σ.jobLog id)
      fun σ σ' pre keeps on => keeps.unfinished on pre.1) fun e => ?_
    cases e with
    | some e => exact .pure fun _ pre => pre.1
    | none =>
      refine .bind (updateJob_unfinished (S := (·.status = .running)) (fun _ => rfl)
        fun _ => rfl) fun _ => ?_
      exact .bind (jobEvent_on fun σ σ' ⟨inv, unfinished, has⟩ logs =>
        logs.reports inv rfl has Event.resumed_ne_started unfinished) fun _ => .pure fun _ inv => inv

/-! ## The job builtins -/

/-- The job a lookup gives, if any, is one of the table's. -/
def Session.Lists (σ : Session) (found : Except String Job) : Prop :=
  ∀ j, found = .ok j → j ∈ σ.shell.jobs.jobs

/-- A lookup that gives a job of the table it read. -/
theorem pure_lists {t : Table} {found : Except String Job}
    (listed : ∀ j, found = .ok j → j ∈ t.jobs) :
    TripleOn F (fun σ => σ.Tracing F ∧ t = σ.shell.jobs) (pure found)
      fun r σ => σ.Tracing F ∧ σ.Lists r :=
  .pure fun _ ⟨inv, same⟩ => ⟨inv, fun j picked => same ▸ listed j picked⟩

theorem pure_lists_error {t : Table} {msg : String} :
    TripleOn F (fun σ => σ.Tracing F ∧ t = σ.shell.jobs) (pure (.error msg))
      fun r σ => σ.Tracing F ∧ σ.Lists r :=
  pure_lists fun _ picked => by cases picked

/-- A job operand names a job of the table: `%+` and `%%` the current one, `%-` the previous
one, and a number the job with that id. -/
theorem jobSpec_lists (name spec : String) :
    TripleOn F (Session.Tracing F) (jobSpec name spec) fun r σ => σ.Tracing F ∧ σ.Lists r := by
  unfold jobSpec
  refine .bind jobs_on fun t => ?_
  split
  case h_1 | h_2 =>
    split
    · rename_i j found
      exact pure_lists fun _ picked => by cases picked; exact Table.slot?_mem found
    · exact pure_lists_error
  case h_3 =>
    split
    · rename_i j found
      exact pure_lists fun _ picked => by cases picked; exact Table.slot?_mem found
    · exact pure_lists_error
  case h_4 =>
    dsimp only
    split
    · split
      · exact pure_lists_error
      · split
        · rename_i j found
          exact pure_lists fun _ picked => by cases picked; exact (Table.get?_spec found).1
        · exact pure_lists_error
    · exact pure_lists_error

/-- The job `fg` or `bg` goes on with has not been reported done: it is a job of the table
and not a Done one. -/
theorem jobTarget_tracing {args : List String} {fallback : ShellM (Except String Job)}
    (falls : TripleOn F (Session.Tracing F) fallback fun r σ => σ.Tracing F ∧ σ.Lists r) :
    TripleOn F (Session.Tracing F) (jobTarget args fallback)
      fun r σ => σ.Tracing F ∧ ∀ j, r = some j → Unfinished σ.jobLog j.id := by
  unfold jobTarget
  dsimp -zeta only
  extract_lets name decide
  -- what follows the lookup is a join point of the code
  have deciding : ∀ found, TripleOn F (fun σ => σ.Tracing F ∧ σ.Lists found) (decide found)
      fun r σ => σ.Tracing F ∧ ∀ j, r = some j → Unfinished σ.jobLog j.id := by
    intro found
    cases found with
    | error msg =>
      exact .bind (Q := fun _ => Session.Tracing F) (fun _ on => ⟨on, fun pre => pre.1⟩)
        fun _ => .pure fun _ inv => ⟨inv, fun _ picked => by cases picked⟩
    | ok j =>
      dsimp only [decide]
      split
      · refine .bind (Q := fun _ => Session.Tracing F) (fun _ on => ⟨on, fun pre => pre.1⟩)
          fun _ => .bind jobs_on fun t => ?_
        exact .bind (setJobs_cleanup rfl) fun _ => .pure fun _ inv => ⟨inv, fun _ picked => by cases picked⟩
      · rename_i running
        exact .pure fun σ ⟨inv, listed⟩ => ⟨inv, fun j' picked => by
          cases picked
          exact inv.unfinished_of_mem (listed j rfl) (by simpa using running)⟩
  split
  · exact .bind falls deciding
  · exact .bind (jobSpec_lists _ _) deciding
  · exact .bind (.pure fun σ inv => ⟨inv, fun _ picked => by cases picked⟩) deciding

theorem fgBuiltin_tracing (args : List String) :
    TripleOn F (Session.Tracing F) (fgBuiltin args) fun _ => Session.Tracing F := by
  unfold fgBuiltin
  refine .bind shell_on fun sh => ?_
  split
  · exact .bind (Q := fun _ => Session.Tracing F) (fun _ on => ⟨on, fun pre => pre.1⟩) fun _ => .pure fun _ inv => inv
  · refine .bind (catchUp_tracing.weaken fun σ ⟨inv, _⟩ => inv) fun _ => ?_
    extract_lets fallback
    refine .bind (jobTarget_tracing ?_) fun target => ?_
    · -- without an operand: the current job
      refine .bind jobs_on fun t => ?_
      split
      · rename_i j found
        exact pure_lists fun _ picked => by cases picked; exact Table.slot?_mem found
      · exact pure_lists_error
    · cases target with
      | none => exact .pure fun σ ⟨inv, _⟩ => inv
      | some j =>
        exact .bind (Q := fun _ σ => σ.Tracing F ∧ Unfinished σ.jobLog j.id)
          (fun σ on => ⟨on, fun pre => ⟨pre.1, pre.2 j rfl⟩⟩) fun _ => foreground_tracing j.id

theorem bgBuiltin_tracing (args : List String) :
    TripleOn F (Session.Tracing F) (bgBuiltin args) fun _ => Session.Tracing F := by
  unfold bgBuiltin
  refine .bind shell_on fun sh => ?_
  split
  · exact .bind (Q := fun _ => Session.Tracing F) (fun _ on => ⟨on, fun pre => pre.1⟩) fun _ => .pure fun _ inv => inv
  · refine .bind (catchUp_tracing.weaken fun σ ⟨inv, _⟩ => inv) fun _ => ?_
    extract_lets fallback
    refine .bind (jobTarget_tracing ?_) fun target => ?_
    · -- without an operand: the last stopped job
      refine .bind jobs_on fun t => ?_
      split
      · exact pure_lists_error
      · split
        · rename_i j found
          exact pure_lists fun _ picked => by cases picked; exact (Table.lastWithStatus?_spec found).1
        · exact pure_lists_error
    · cases target with
      | none => exact .pure fun σ ⟨inv, _⟩ => inv
      | some j =>
        dsimp only
        split
        · exact .bind (Q := fun _ => Session.Tracing F) (fun _ on => ⟨on, fun pre => pre.1⟩)
            fun _ => .pure fun _ inv => inv
        · refine .bind ((background_tracing j.id).weaken fun σ ⟨inv, picked⟩ =>
            ⟨inv, picked j rfl⟩) fun e => ?_
          cases e with
          | some e => exact (LeavesJobs.bind (.log _) fun _ => .pure _).tracing
          | none => exact (LeavesJobs.bind (.say _) fun _ => .pure _).tracing

theorem jobsBuiltin_tracing (args : List String) :
    TripleOn F (Session.Tracing F) (jobsBuiltin args) fun _ => Session.Tracing F := by
  unfold jobsBuiltin
  dsimp only
  split
  · exact (LeavesJobs.bind (.warn _) fun _ => .bind (.warn _) fun _ => .pure _).tracing
  · split
    · exact (LeavesJobs.bind (.say _) fun _ => .pure _).tracing
    · split
      · exact (LeavesJobs.bind (.log _) fun _ => .pure _).tracing
      · refine .bind catchUp_tracing fun _ => .bind jobs_on fun t => ?_
        refine .bind (setJobs_cleanup rfl) fun _ => .bind jobs_on fun t => ?_
        -- the listing only prints
        refine .bind ((LeavesJobs.forIn _ _ fun x _ => ?_).tracing.weaken fun σ ⟨inv, _⟩ => inv)
          fun _ => .pure fun _ inv => inv
        split
        · exact .pure _
        · split
          · exact .pure _
          · split <;> exact .bind (.say _) fun _ => .pure _

end Tracing

end JobShell

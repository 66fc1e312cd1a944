import JobShell.Proofs.Shell.Waits

/-!
# What a reconciliation does to each job

A reconciliation polls every job that is not Done without blocking and returns the jobs whose
status changed. To say which waits it makes and which reply decides what, its waits are
watched: `Recording` wraps any waiter and records every call it answers with the options asked
(`WaitCall`), forwarding the call unchanged, so that a reconciliation through it changes the
table and the inner waiter exactly as one through the inner waiter does.

What happens to the job of one slot is `SlotReconciled before calls after`:

* a Done job is left exactly as it is, and nothing is waited for it;
* a job that is not Done gets waits without blocking for its stages other than its pid, then
  waits for its pid with the poll options until a reply is not interrupted (`SettlesOn`);
  that reply alone decides its new status and exit status (`Job.ReadsPoll`), and its id, pid,
  group, display text and background flag stay (`Job.SameFrame`).

A slot that holds no job, which only a table read back from a snapshot can have, is not
reconciled: reading its status faults, and the reconciliation returns the fault
(`reconcile_faults_on_empty_slot`).

The main statement, `Table.reconcile_exact`: a table with an empty slot faults; on every other
table and through every waiter whose interruption bound is honest, the slots are reconciled in
table order, each slot's waits before the next slot's (`SlotsReconciled`), then the untracked
pids are reaped without blocking; the ids returned are exactly those of the jobs whose status
changed, in table order (`changedIds`); and the last id handed out stays.
-/
namespace JobShell

namespace WaitStatus

theorem ended_eq_false_of_stopped {w : WaitStatus} (stop : w.stopped = true) :
    w.ended = false := by
  simp only [stopped, lowByte_eq, beq_iff_eq] at stop
  simp only [ended, exited, signaled, low7_eq, Bool.or_eq_false_iff, beq_eq_false_iff_ne,
    Bool.and_eq_false_iff, bne_eq_false_iff_eq]
  omega

theorem ended_eq_false_of_continued {w : WaitStatus} (cont : w.continued = true) :
    w.ended = false := by
  simp only [continued, beq_iff_eq] at cont
  simp only [ended, exited, signaled, low7_eq, Bool.or_eq_false_iff, beq_eq_false_iff_ne,
    Bool.and_eq_false_iff, bne_eq_false_iff_eq]
  omega

theorem stopped_eq_false_of_continued {w : WaitStatus} (cont : w.continued = true) :
    w.stopped = false := by
  simp only [continued, beq_iff_eq] at cont
  simp only [stopped, lowByte_eq, beq_eq_false_iff_ne]
  omega

/-- The shell status of an exit or a death by signal is a byte: an exit code, or 128 plus a
signal number below 127. -/
theorem shellStatus_range {w : WaitStatus} (finished : w.ended = true) :
    0 ≤ w.shellStatus ∧ w.shellStatus ≤ 255 := by
  unfold shellStatus
  split
  · simp only [exitCode]
    omega
  · rename_i not_exited
    simp only [ended, not_exited, Bool.false_or] at finished
    simp only [finished, if_true, signal]
    simp only [signaled, low7_eq, Bool.and_eq_true, bne_iff_ne, ne_eq] at finished
    rw [low7_eq]
    omega

end WaitStatus

/-- A call of the wait primitive as a watcher sees it: the pid and options asked, and the
reply. -/
structure WaitCall where
  pid : Int
  opts : Nat
  reply : WaitReply
  deriving DecidableEq, Repr

/-- A waiter that records every call it answers, forwarding it to the waiter inside. -/
structure Recording (σ : Type) where
  inner : σ
  calls : List WaitCall

instance {σ : Type} [Waiter σ] : Waiter (Recording σ) where
  wait t p opts :=
    let answer := Waiter.wait t.inner p opts
    (answer.1, ⟨answer.2, t.calls ++ [⟨p, opts, answer.1⟩]⟩)
  interruptBound t p := Waiter.interruptBound t.inner p

/-- `block` is one wait past interruptions for `pid` with options `opts` that settled on `r`:
interrupted replies, then `r`, the first that is not. -/
def SettlesOn (pid : Int) (opts : Nat) (r : WaitReply) (block : List WaitCall) : Prop :=
  r.interrupted = false ∧ ∃ pre, block = pre ++ [⟨pid, opts, r⟩] ∧
    ∀ c ∈ pre, c.pid = pid ∧ c.opts = opts ∧ c.reply.interrupted = true

theorem SettlesOn.calls {pid : Int} {opts : Nat} {r : WaitReply} {block : List WaitCall}
    (settles : SettlesOn pid opts r block) : ∀ c ∈ block, c.pid = pid ∧ c.opts = opts := by
  obtain ⟨-, pre, rfl, retried⟩ := settles
  intro c member
  rcases List.mem_append.mp member with early | last
  · exact ⟨(retried c early).1, (retried c early).2.1⟩
  · rw [List.mem_singleton.mp last]
    exact ⟨rfl, rfl⟩

namespace Job

/-- Two versions of a job with the same id, pid, group, display text and background flag. -/
structure SameFrame (J j : Job) : Prop where
  id : J.id = j.id
  pid : J.pid = j.pid
  pgid : J.pgid = j.pgid
  command : J.command = j.command
  background : J.background = j.background

/-- How a job `j` that is not Done reads the settled reply `r` of its poll, becoming `J`: an
error makes it Done; "nothing yet" leaves it; an exit or a death by signal makes it Done with
the shell status of the reply, a byte; a stop makes it Stopped and a continue Running; any
other status word leaves it. The exit status changes only on an exit or a death by signal. -/
structure ReadsPoll (j : Job) (r : WaitReply) (J : Job) : Prop where
  failed : r.err.isSome → J.status = .done ∧ J.exitStatus = j.exitStatus
  quiet : r.err = none → r.pid = 0 → J.status = j.status ∧ J.exitStatus = j.exitStatus
  ended : r.err = none → r.pid ≠ 0 → r.status.ended = true →
    J.status = .done ∧ J.exitStatus = r.status.shellStatus ∧
      0 ≤ J.exitStatus ∧ J.exitStatus ≤ 255
  stopped : r.err = none → r.pid ≠ 0 → r.status.stopped = true →
    J.status = .stopped ∧ J.exitStatus = j.exitStatus
  continued : r.err = none → r.pid ≠ 0 → r.status.continued = true →
    J.status = .running ∧ J.exitStatus = j.exitStatus
  other : r.err = none → r.pid ≠ 0 → r.status.ended = false → r.status.stopped = false →
    r.status.continued = false → J.status = j.status ∧ J.exitStatus = j.exitStatus

namespace ReadsPoll

variable {j J : Job} {r : WaitReply}

theorem of_failed (failed : r.err.isSome) (status : J.status = .done)
    (exit : J.exitStatus = j.exitStatus) : j.ReadsPoll r J where
  failed _ := ⟨status, exit⟩
  quiet ok := absurd failed (by simp [ok])
  ended ok := absurd failed (by simp [ok])
  stopped ok := absurd failed (by simp [ok])
  continued ok := absurd failed (by simp [ok])
  other ok := absurd failed (by simp [ok])

theorem of_quiet (ok : r.err = none) (zero : r.pid = 0) : j.ReadsPoll r j where
  failed failed := absurd failed (by simp [ok])
  quiet _ _ := ⟨rfl, rfl⟩
  ended _ nonzero := absurd zero nonzero
  stopped _ nonzero := absurd zero nonzero
  continued _ nonzero := absurd zero nonzero
  other _ nonzero := absurd zero nonzero

/-- A reply about the pid itself is read as `applyWait` reads its status word. -/
theorem of_applyWait (ok : r.err = none) (nonzero : r.pid ≠ 0) :
    j.ReadsPoll r (j.applyWait r.status) where
  failed failed := absurd failed (by simp [ok])
  quiet _ zero := absurd zero nonzero
  ended _ _ finished := by
    have applied : j.applyWait r.status =
        { j.forget j.pid with status := .done, exitStatus := r.status.shellStatus } := by
      simp [applyWait, finished]
    rw [applied]
    exact ⟨rfl, rfl, WaitStatus.shellStatus_range finished⟩
  stopped _ _ stop := by
    simp [applyWait, WaitStatus.ended_eq_false_of_stopped stop, stop]
  continued _ _ cont := by
    simp [applyWait, WaitStatus.ended_eq_false_of_continued cont,
      WaitStatus.stopped_eq_false_of_continued cont, cont]
  other _ _ running moving resting := by
    simp [applyWait, running, moving, resting]

end ReadsPoll

/-- A reply that does not end the process keeps everything but the status. -/
theorem applyWait_sameFrame (j : Job) (w : WaitStatus) : (j.applyWait w).SameFrame j := by
  unfold applyWait
  split_ifs <;> exact ⟨rfl, rfl, rfl, rfl, rfl⟩

theorem SameFrame.with_pids (j : Job) (stages : List Int) :
    ({ j with pids := stages } : Job).SameFrame j :=
  ⟨rfl, rfl, rfl, rfl, rfl⟩

theorem SameFrame.trans {J K j : Job} (first : J.SameFrame K) (second : K.SameFrame j) :
    J.SameFrame j :=
  ⟨first.id.trans second.id, first.pid.trans second.pid, first.pgid.trans second.pgid,
    first.command.trans second.command, first.background.trans second.background⟩

/-- Only the status and exit status of the job before count for how a reply is read. -/
theorem ReadsPoll.of_same {j k J : Job} {r : WaitReply} (reads : k.ReadsPoll r J)
    (status : k.status = j.status) (exit : k.exitStatus = j.exitStatus) : j.ReadsPoll r J := by
  obtain ⟨failed, quiet, ended, stopped, continued, other⟩ := reads
  rw [status, exit] at *
  exact ⟨failed, quiet, ended, stopped, continued, other⟩

end Job

/-- What a reconciliation does to the job of one slot, with the waits it makes for it. -/
inductive SlotReconciled : Job → List WaitCall → Job → Prop
  /-- A Done job stays exactly as it is, and nothing is waited for. -/
  | done {j : Job} : j.status = .done → SlotReconciled j [] j
  /-- A job that is not Done: its other stages are waited for without blocking, then its pid
  with the poll options until a reply settles, and that reply decides its status. -/
  | polled {j J : Job} {reaps polls : List WaitCall} {r : WaitReply} :
      j.status ≠ .done →
      (∀ c ∈ reaps, c.pid ∈ j.stragglers ∧ c.opts = WaitOptions.noHang) →
      SettlesOn j.pid WaitOptions.poll r polls → J.SameFrame j → j.ReadsPoll r J →
      SlotReconciled j (reaps ++ polls) J

/-- Slots reconciled in order: each holds a job before and after, and the waits for each slot
come before those for the next. -/
inductive SlotsReconciled : List (Option Job) → List WaitCall → List (Option Job) → Prop
  | nil : SlotsReconciled [] [] []
  | cons {j J : Job} {block calls : List WaitCall} {rest rest' : List (Option Job)} :
      SlotReconciled j block J → SlotsReconciled rest calls rest' →
      SlotsReconciled (some j :: rest) (block ++ calls) (some J :: rest')

/-- The id of the job in a slot whose status differs between two versions of the slot. -/
def statusChange : Option Job → Option Job → Option Int
  | some j, some J => if J.status = j.status then none else some J.id
  | _, _ => none

/-- The ids of the jobs whose status differs between two versions of the slots, in order. -/
def changedIds : List (Option Job) → List (Option Job) → List Int
  | s :: rest, s' :: rest' => (statusChange s s').toList ++ changedIds rest rest'
  | _, _ => []

namespace Table

/-- Polling a job that is not Done reads the settled reply as `ReadsPoll` says, keeps the
job's frame, and reports a change exactly when the status changed. -/
theorem pollOutcome_reads {j : Job} (r : WaitReply) (running : j.status ≠ .done) :
    j.ReadsPoll r (pollOutcome j r).2 ∧ (pollOutcome j r).2.SameFrame j ∧
      (pollOutcome j r).1 = ((pollOutcome j r).2.status != j.status) := by
  obtain ⟨pid, status, err⟩ := r
  cases err with
  | some e =>
    refine ⟨.of_failed rfl rfl rfl, ⟨rfl, rfl, rfl, rfl, rfl⟩, ?_⟩
    simp [pollOutcome, Ne.symm running]
  | none =>
    by_cases zero : pid = 0
    · have outcome : pollOutcome j ⟨pid, status, none⟩ = (false, j) := by
        simp [pollOutcome, zero]
      rw [outcome]
      exact ⟨.of_quiet rfl zero, ⟨rfl, rfl, rfl, rfl, rfl⟩, by simp⟩
    · have outcome : pollOutcome j ⟨pid, status, none⟩ = j.record status := by
        simp [pollOutcome, zero]
      rw [outcome]
      exact ⟨.of_applyWait rfl zero, j.applyWait_sameFrame status, rfl⟩

section Recording

variable {σ : Type} [Waiter σ]

theorem wait_recorded (w : σ) (l : List WaitCall) (p : Int) (opts : Nat) :
    Waiter.wait (⟨w, l⟩ : Recording σ) p opts =
      ((Waiter.wait w p opts).1,
       ⟨(Waiter.wait w p opts).2, l ++ [⟨p, opts, (Waiter.wait w p opts).1⟩]⟩) := rfl

variable (honest : Waiter.BoundsInterrupts σ)
include honest

/-- Retrying through the trace gives the reply and inner waiter of retrying directly; an honest
bound makes the recorded calls one wait that settles. -/
theorem go_recorded (p : Int) (opts : Nat) :
    ∀ (n : Nat) (w : σ) (l : List WaitCall), Waiter.interruptBound w p < n →
      ∃ block, waitPastInterrupts.go p opts n (⟨w, l⟩ : Recording σ) =
          ((waitPastInterrupts.go p opts n w).1,
           ⟨(waitPastInterrupts.go p opts n w).2, l ++ block⟩) ∧
        SettlesOn p opts (waitPastInterrupts.go p opts n w).1 block
  | 0, _, _, below => absurd below (Nat.not_lt_zero _)
  | n + 1, w, l, below => by
    have lowers := honest w p opts
    simp only [waitPastInterrupts.go, wait_recorded]
    rcases waited : Waiter.wait w p opts with ⟨r, w'⟩
    rw [waited] at lowers
    dsimp only at lowers ⊢
    by_cases interrupted : r.interrupted = true
    · have below' : Waiter.interruptBound w' p < n := by
        have := lowers interrupted
        omega
      obtain ⟨block, run, settled, pre, rfl, retried⟩ := go_recorded p opts n w' _ below'
      simp only [interrupted, if_true]
      refine ⟨⟨p, opts, r⟩ :: pre ++ [⟨p, opts, _⟩], by rw [run]; simp, settled,
        ⟨p, opts, r⟩ :: pre, rfl, fun c member => ?_⟩
      rcases List.mem_cons.mp member with rfl | later
      · exact ⟨rfl, rfl, interrupted⟩
      · exact retried c later
    · have settled : r.interrupted = false := by simpa using interrupted
      simp only [settled, Bool.false_eq_true, if_false]
      exact ⟨[⟨p, opts, r⟩], rfl, settled, [], rfl, by simp⟩

theorem waitPastInterrupts_recorded (w : σ) (l : List WaitCall) (p : Int) (opts : Nat) :
    ∃ block, waitPastInterrupts (⟨w, l⟩ : Recording σ) p opts =
        ((waitPastInterrupts w p opts).1, ⟨(waitPastInterrupts w p opts).2, l ++ block⟩) ∧
      SettlesOn p opts (waitPastInterrupts w p opts).1 block :=
  go_recorded honest p opts _ w l (Nat.lt_succ_self _)

theorem reap_recorded (w : σ) (l : List WaitCall) (p : Int) :
    ∃ block, reap (⟨w, l⟩ : Recording σ) p = ((reap w p).1, ⟨(reap w p).2, l ++ block⟩) ∧
      ∀ c ∈ block, c.pid = p ∧ c.opts = WaitOptions.noHang := by
  obtain ⟨block, run, settles⟩ := waitPastInterrupts_recorded honest w l p WaitOptions.noHang
  have settled : (waitPastInterrupts (⟨w, l⟩ : Recording σ) p WaitOptions.noHang).1.interrupted =
      false := by rw [run]; exact settles.1
  refine ⟨block, Prod.ext ?_ ?_, settles.calls⟩
  · rw [reap_fst settled, reap_fst settles.1, run]
  · rw [reap_snd, reap_snd, run]

theorem foldl_reapStraggler_recorded :
    ∀ (S : List Int) (j : Job) (w : σ) (l : List WaitCall),
      ∃ new, S.foldl reapStraggler (j, (⟨w, l⟩ : Recording σ)) =
          ((S.foldl reapStraggler (j, w)).1, ⟨(S.foldl reapStraggler (j, w)).2, l ++ new⟩) ∧
        ∀ c ∈ new, c.pid ∈ S ∧ c.opts = WaitOptions.noHang
  | [], j, w, l => ⟨[], by simp, by simp⟩
  | s :: rest, j, w, l => by
    obtain ⟨block, reaped, first⟩ := reap_recorded honest w l s
    simp only [List.foldl_cons, reapStraggler, reaped]
    generalize reap w s = verdict
    obtain ⟨gone, w'⟩ := verdict
    dsimp only
    obtain ⟨new, run, later⟩ :=
      foldl_reapStraggler_recorded rest (if gone then j.forget s else j) w' (l ++ block)
    refine ⟨block ++ new, by rw [run]; simp, fun c member => ?_⟩
    rcases List.mem_append.mp member with early | late
    · exact ⟨by simp [(first c early).1], (first c early).2⟩
    · exact ⟨List.mem_cons_of_mem s (later c late).1, (later c late).2⟩

theorem poll_recorded (w : σ) (l : List WaitCall) (j : Job) :
    ∃ block, poll (⟨w, l⟩ : Recording σ) j =
        ((poll w j).1, (poll w j).2.1, ⟨(poll w j).2.2, l ++ block⟩) ∧
      SettlesOn j.pid WaitOptions.poll (waitPastInterrupts w j.pid WaitOptions.poll).1 block := by
  obtain ⟨block, run, settles⟩ := waitPastInterrupts_recorded honest w l j.pid WaitOptions.poll
  refine ⟨block, ?_, settles⟩
  rw [poll_eq, poll_eq, run]

/-- Refreshing one job through the trace: its slot is reconciled as `SlotReconciled` says, and
the change it reports is a change of status. -/
theorem refresh_recorded (w : σ) (l : List WaitCall) (j : Job) :
    ∃ block, refresh (⟨w, l⟩ : Recording σ) j =
        ((refresh w j).1, (refresh w j).2.1, ⟨(refresh w j).2.2, l ++ block⟩) ∧
      SlotReconciled j block (refresh w j).2.1 ∧
      (refresh w j).1 = ((refresh w j).2.1.status != j.status) := by
  by_cases done : j.status = .done
  · have skipped : ∀ {τ : Type} [Waiter τ] (v : τ), refresh v j = (false, j, v) := by
      intro τ _ v
      simp [refresh_eq, done]
    refine ⟨[], by rw [skipped, skipped]; simp, ?_, ?_⟩
    · rw [skipped]
      exact .done done
    · rw [skipped]
      simp
  · have not_done : (j.status == .done) = false := by simpa using done
    obtain ⟨reaps, folded, reaped⟩ := foldl_reapStraggler_recorded honest j.stragglers j w l
    obtain ⟨stages, same_job⟩ : ∃ stages,
        (j.stragglers.foldl reapStraggler (j, w)).1 = { j with pids := stages } :=
      reapStragglers_job j.stragglers j w
    rw [refresh_eq, refresh_eq, not_done, if_neg Bool.false_ne_true, if_neg Bool.false_ne_true,
      folded]
    dsimp only
    generalize j.stragglers.foldl reapStraggler (j, w) = mid at same_job ⊢
    obtain ⟨J, w'⟩ := mid
    dsimp only at same_job ⊢
    subst same_job
    obtain ⟨polls, polled, settles⟩ :=
      poll_recorded honest w' (l ++ reaps) { j with pids := stages }
    -- the stages reaped so far change only the job's pid list
    obtain ⟨reads, frame, flag⟩ := pollOutcome_reads (j := { j with pids := stages })
      (waitPastInterrupts w' j.pid WaitOptions.poll).1 done
    refine ⟨reaps ++ polls, by rw [polled]; simp, ?_, ?_⟩
    · rw [poll_eq]
      exact .polled done reaped settles (frame.trans (Job.SameFrame.with_pids j stages))
        (reads.of_same rfl rfl)
    · rw [poll_eq]
      exact flag

theorem refreshFilled_recorded :
    ∀ (slots : List (Option Job)) (w : σ) (l : List WaitCall), (∀ s ∈ slots, s.isSome) →
      ∃ new, refreshFilled (⟨w, l⟩ : Recording σ) slots =
          ((refreshFilled w slots).1, (refreshFilled w slots).2.1,
           ⟨(refreshFilled w slots).2.2, l ++ new⟩) ∧
        SlotsReconciled slots new (refreshFilled w slots).2.1 ∧
        (refreshFilled w slots).1 = changedIds slots (refreshFilled w slots).2.1
  | [], w, l, _ => ⟨[], by simp [refreshFilled], .nil, rfl⟩
  | none :: _, _, _, filled => absurd (filled none List.mem_cons_self) (by simp)
  | some j :: rest, w, l, filled => by
    obtain ⟨n₁, refreshed, first, flag⟩ := refresh_recorded honest w l j
    simp only [refreshFilled, refreshed]
    generalize refresh w j = result at first flag ⊢
    obtain ⟨changed, J, w'⟩ := result
    dsimp only at first flag ⊢
    obtain ⟨n₂, run, second, ids⟩ := refreshFilled_recorded rest w' (l ++ n₁)
      fun s member => filled s (List.mem_cons_of_mem _ member)
    rw [run]
    generalize refreshFilled w' rest = result at second ids ⊢
    obtain ⟨ids', slots', w''⟩ := result
    dsimp only at second ids ⊢
    refine ⟨n₁ ++ n₂, by simp, .cons first second, ?_⟩
    rw [ids, flag]
    by_cases same : J.status = j.status <;> simp [changedIds, statusChange, same]

theorem reapAll_recorded :
    ∀ (pids : List Int) (w : σ) (l : List WaitCall),
      ∃ new, reapAll (⟨w, l⟩ : Recording σ) pids =
          ((reapAll w pids).1, ⟨(reapAll w pids).2, l ++ new⟩) ∧
        ∀ c ∈ new, c.pid ∈ pids ∧ c.opts = WaitOptions.noHang
  | [], w, l => ⟨[], by simp [reapAll], by simp⟩
  | p :: rest, w, l => by
    obtain ⟨block, reaped, first⟩ := reap_recorded honest w l p
    simp only [reapAll, reaped]
    generalize reap w p = verdict
    obtain ⟨gone, w'⟩ := verdict
    obtain ⟨new, run, later⟩ := reapAll_recorded rest w' (l ++ block)
    rw [run]
    refine ⟨block ++ new, by simp, fun c member => ?_⟩
    rcases List.mem_append.mp member with early | late
    · exact ⟨by simp [(first c early).1], (first c early).2⟩
    · exact ⟨List.mem_cons_of_mem p (later c late).1, (later c late).2⟩

/-- On a table whose slots all hold jobs, a reconciliation through a waiter whose interruption
bound is honest changes the table and the waiter as the same reconciliation watched through
`Recording` does; the calls watched are the slots' waits in table order, then waits without
blocking for the untracked pids; the ids returned are those of the jobs whose status changed,
in table order; and the last id stays. -/
theorem reconcileFilled_exact (t : Table) (w : σ) (filled : ∀ s ∈ t.slots, s.isSome) :
    ∃ slotCalls reapCalls : List WaitCall,
      t.reconcileFilled (⟨w, []⟩ : Recording σ) =
        ((t.reconcileFilled w).1, (t.reconcileFilled w).2.1,
         ⟨(t.reconcileFilled w).2.2, slotCalls ++ reapCalls⟩) ∧
      SlotsReconciled t.slots slotCalls (t.reconcileFilled w).2.1.slots ∧
      (∀ c ∈ reapCalls, c.pid ∈ t.untracked ∧ c.opts = WaitOptions.noHang) ∧
      (t.reconcileFilled w).1 = changedIds t.slots (t.reconcileFilled w).2.1.slots ∧
      (t.reconcileFilled w).2.1.lastId = t.lastId := by
  obtain ⟨n₁, refreshed, reconciled, ids⟩ := refreshFilled_recorded honest t.slots w [] filled
  simp only [reconcileFilled, refreshed]
  generalize refreshFilled w t.slots = result at reconciled ids ⊢
  obtain ⟨changed, slots', w'⟩ := result
  obtain ⟨n₂, reaped, reaps⟩ := reapAll_recorded honest t.untracked w' ([] ++ n₁)
  rw [reaped]
  exact ⟨n₁, n₂, by simp, reconciled, reaps, ids, trivial⟩

/-- A reconciliation is exact. On a table with an empty slot it faults, watched or not. On any
other table, through a waiter whose interruption bound is honest, it returns the ids `changed`,
the table `t'` and the waiter `w'`, and watched through `Recording` it returns the same with
the calls watched, which are, slot by slot in table order, what `SlotReconciled` allows:
nothing for a Done job, which stays exactly as it is; for any other job, waits without blocking
for its other stages, then a poll of its pid whose settled reply decides its status and exit
status, its id, pid, group, display text and background flag kept. Then come waits without
blocking for the untracked pids. The ids returned are exactly those of the jobs whose status
changed, in table order, and the last id stays. -/
theorem reconcile_exact (t : Table) (w : σ) :
    (none ∈ t.slots → t.reconcile w = .error .nilJob ∧
        t.reconcile (⟨w, []⟩ : Recording σ) = .error .nilJob) ∧
    (none ∉ t.slots → ∃ (changed : List Int) (t' : Table) (w' : σ)
        (slotCalls reapCalls : List WaitCall),
      t.reconcile w = .ok (changed, t', w') ∧
      t.reconcile (⟨w, []⟩ : Recording σ) = .ok (changed, t', ⟨w', slotCalls ++ reapCalls⟩) ∧
      SlotsReconciled t.slots slotCalls t'.slots ∧
      (∀ c ∈ reapCalls, c.pid ∈ t.untracked ∧ c.opts = WaitOptions.noHang) ∧
      changed = changedIds t.slots t'.slots ∧
      t'.lastId = t.lastId) := by
  refine ⟨fun empty => ⟨reconcile_eq_error empty w, reconcile_eq_error empty _⟩, fun full => ?_⟩
  have filled := isSome_of_none_not_mem full
  obtain ⟨slotCalls, reapCalls, watched, reconciled, reaps, ids, last⟩ :=
    reconcileFilled_exact honest t w filled
  refine ⟨(t.reconcileFilled w).1, (t.reconcileFilled w).2.1, (t.reconcileFilled w).2.2,
    slotCalls, reapCalls, reconcile_eq_ok filled w, ?_, reconciled, reaps, ids, last⟩
  rw [reconcile_eq_ok filled, watched]

end Recording

/-- A table of three jobs: a Done one, one of two stages, and one whose pid has a stop queued,
with an untracked pid after them. -/
def stopAfterDone : Table :=
  ⟨[some ⟨1, 10, 10, [10], "a", .done, true, 0⟩, some ⟨2, 21, 20, [20, 21], "b | c", .running, true, 0⟩,
    some ⟨3, 30, 30, [30], "d", .running, true, 0⟩], true, 3, 64, [40]⟩

/-- The scripted waiter for `stopAfterDone`: an interruption, then an exit, for the first stage
of the second job, and a stop for the pid of the third. -/
def stopAfterDoneScript : WaitScript :=
  { queues := [(20, [{ err := some .intr }, { status := WaitStatus.ofExit 0 }]),
               (30, [{ status := WaitStatus.ofStop 19 }])] }

theorem reconcile_exact_stop :
    Waiter.BoundsInterrupts WaitScript ∧
      (none ∈ stopAfterDone.slots → stopAfterDone.reconcile stopAfterDoneScript = .error .nilJob ∧
        stopAfterDone.reconcile (⟨stopAfterDoneScript, []⟩ : Recording WaitScript) =
          .error .nilJob) ∧
      (none ∉ stopAfterDone.slots → ∃ (changed : List Int) (t' : Table) (w' : WaitScript)
          (slotCalls reapCalls : List WaitCall),
        stopAfterDone.reconcile stopAfterDoneScript = .ok (changed, t', w') ∧
        stopAfterDone.reconcile (⟨stopAfterDoneScript, []⟩ : Recording WaitScript) =
          .ok (changed, t', ⟨w', slotCalls ++ reapCalls⟩) ∧
        SlotsReconciled stopAfterDone.slots slotCalls t'.slots ∧
        (∀ c ∈ reapCalls, c.pid ∈ stopAfterDone.untracked ∧ c.opts = WaitOptions.noHang) ∧
        changed = changedIds stopAfterDone.slots t'.slots ∧
        t'.lastId = stopAfterDone.lastId) :=
  ⟨WaitScript.boundsInterrupts, reconcile_exact WaitScript.boundsInterrupts _ _⟩

/-- A reconciliation does not return the jobs whose status changed for every table: on a table
read back with an empty slot it faults and returns nothing. -/
theorem reconcile_faults_on_empty_slot :
    (⟨[some ⟨1, 10, 10, [10], "a", .running, true, 0⟩, none], true, 2, 64, []⟩ : Table).reconcile
        ({ queues := [(10, [{ status := WaitStatus.ofStop 19 }])] } : WaitScript) =
      .error .nilJob :=
  rfl

end Table

end JobShell

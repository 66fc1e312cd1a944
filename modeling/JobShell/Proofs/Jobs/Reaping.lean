import Mathlib.Data.List.Perm.Basic
import JobShell.Proofs.Jobs.Invariant

/-!
# What a reconciliation waits for

To say which pids a reconciliation reaped, its waits are watched: `Logged` wraps any waiter and
keeps a log of every wait it answers (`Waited`), forwarding the waits and the interruption
bound unchanged, so that a reconciliation through it changes the table and the inner waiter
exactly as one through the inner waiter does.

A reply reports its pid gone when it is an exit, a death by signal, or an error other than an
interruption (`WaitReply.reportsGone`). With a waiter whose interruption bound is honest
(`Waiter.BoundsInterrupts`), every wait past interruptions ends on a reply that is not
interrupted, and the table drops a pid exactly when its last reply reports it gone.
`Accounts before new after` says what a stretch of waits did to a list of recorded pids: it
waited only on them, no wait followed one that reported its pid gone, and `after` is `before`
without the pids reported gone. Each step of a reconciliation accounts for its pids
(`reap_logged`, `refresh_logged`, `reapAll_logged`), and so does the whole
(`reconcileFilled_logged`).
-/
namespace JobShell

/-- A wait as an observer sees it: the pid asked about, the reply, and whether the table made
it, rather than the shell waiting for a job in the foreground. -/
structure Waited where
  pid : Int
  reply : WaitReply
  byTable : Bool
  deriving DecidableEq, Repr

namespace WaitReply

/-- A reply that says the process is gone: an exit, a death by signal, or an error other than
an interruption. -/
def reportsGone (r : WaitReply) : Bool :=
  match r.err with
  | some e => e != .intr
  | none => r.pid != 0 && r.status.ended

theorem reportsGone_of_interrupted {r : WaitReply} (interrupted : r.interrupted = true) :
    r.reportsGone = false := by
  have intr : r.err = some .intr := by simpa [WaitReply.interrupted] using interrupted
  simp [reportsGone, intr]

end WaitReply

namespace Waited

/-- Whether a wait of the log reported `p` gone. -/
def goneIn (log : List Waited) (p : Int) : Bool :=
  log.any fun e => e.pid == p && e.reply.reportsGone

@[simp] theorem goneIn_nil (p : Int) : goneIn [] p = false := rfl

@[simp] theorem goneIn_append (l₁ l₂ : List Waited) (p : Int) :
    goneIn (l₁ ++ l₂) p = (goneIn l₁ p || goneIn l₂ p) := by
  simp [goneIn, List.any_append]

theorem goneIn_eq_true {log : List Waited} {p : Int} :
    goneIn log p = true ↔ ∃ e ∈ log, e.pid = p ∧ e.reply.reportsGone = true := by
  simp [goneIn]

theorem goneIn_eq_false {log : List Waited} {p : Int} :
    goneIn log p = false ↔ ∀ e ∈ log, e.pid = p → e.reply.reportsGone = false := by
  simp [goneIn]

theorem goneIn_of_not_asked {log : List Waited} {p : Int} (unasked : ∀ e ∈ log, e.pid ≠ p) :
    goneIn log p = false :=
  goneIn_eq_false.mpr fun e member asked => absurd asked (unasked e member)

/-- Some wait of the log was for `p`. -/
def Asked (log : List Waited) (p : Int) : Prop := ∃ e ∈ log, e.pid = p

theorem Asked.append_left {l₁ : List Waited} {p : Int} (asked : Asked l₁ p) (l₂ : List Waited) :
    Asked (l₁ ++ l₂) p := by
  obtain ⟨e, member, same⟩ := asked
  exact ⟨e, List.mem_append_left l₂ member, same⟩

theorem Asked.append_right (l₁ : List Waited) {l₂ : List Waited} {p : Int} (asked : Asked l₂ p) :
    Asked (l₁ ++ l₂) p := by
  obtain ⟨e, member, same⟩ := asked
  exact ⟨e, List.mem_append_right l₁ member, same⟩

end Waited

open Waited

/-- A waiter whose interruption bound is honest: an interrupted reply lowers the bound for its
pid, so that retrying as `waitPastInterrupts` does ends on a reply that is not interrupted. -/
def Waiter.BoundsInterrupts (σ : Type) [Waiter σ] : Prop :=
  ∀ (w : σ) (p : Int) (opts : Nat), (Waiter.wait w p opts).1.interrupted = true →
    Waiter.interruptBound (Waiter.wait w p opts).2 p < Waiter.interruptBound w p

namespace WaitScript

theorem queueOf_setQueue (s : WaitScript) (pid : Int) (q : List WaitEntry) :
    (s.setQueue pid q).queueOf pid = q := by
  simp [queueOf, setQueue]

/-- A scripted waiter's interruption bound is honest: an interrupted reply is a queued entry,
and answering it shortens the queue. -/
theorem boundsInterrupts : Waiter.BoundsInterrupts WaitScript := by
  intro s pid opts interrupted
  change ((s.answer pid opts).2.queueOf pid).length < (s.queueOf pid).length
  change (s.answer pid opts).1.interrupted = true at interrupted
  unfold answer at interrupted ⊢
  -- logging the call changes no queue
  have logged : ({ s with calls := s.calls.push (pid, opts) } : WaitScript).queueOf pid =
      s.queueOf pid := rfl
  dsimp only at interrupted ⊢
  rw [logged] at interrupted ⊢
  split at interrupted
  · rename_i e rest queued
    rw [queued]
    split at interrupted
    · rw [queueOf_setQueue]
      exact Nat.lt_succ_self _
    · split at interrupted <;> simp [WaitReply.interrupted] at interrupted
  · split at interrupted <;> simp [WaitReply.interrupted, WaitReply.failure,
      WaitReply.nothing] at interrupted

end WaitScript

/-- A waiter that logs every wait it answers, as the table's. -/
structure Logged (σ : Type) where
  inner : σ
  log : List Waited

instance {σ : Type} [Waiter σ] : Waiter (Logged σ) where
  wait l p opts :=
    let (r, w) := Waiter.wait l.inner p opts
    (r, ⟨w, l.log ++ [⟨p, r, true⟩]⟩)
  interruptBound l p := Waiter.interruptBound l.inner p

/-- The log of one wait past interruptions for `p`: interrupted replies, then the reply `r`. -/
def Retries (p : Int) (r : WaitReply) (block : List Waited) : Prop :=
  ∃ pre, block = pre ++ [⟨p, r, true⟩] ∧
    ∀ e ∈ pre, e.pid = p ∧ e.reply.interrupted = true ∧ e.byTable = true

theorem Retries.asked {p : Int} {r : WaitReply} {block : List Waited} (retried : Retries p r block) :
    Asked block p := by
  obtain ⟨pre, rfl, -⟩ := retried
  exact ⟨⟨p, r, true⟩, List.mem_append_right pre (List.mem_singleton_self _), rfl⟩

/-- What a stretch of the table's waits did to the recorded pids `before`: it waited only on
them, no wait followed one that reported its pid gone, and what is left, `after`, is `before`
without the pids reported gone. -/
structure Accounts (before : List Int) (new : List Waited) (after : List Int) : Prop where
  kept : after.Perm (before.filter fun p => !goneIn new p)
  asked : ∀ e ∈ new, e.pid ∈ before ∧ e.byTable = true
  fresh : new.Pairwise fun a b => a.pid = b.pid → a.reply.reportsGone = false

namespace Accounts

theorem nil (l : List Int) : Accounts l [] l where
  kept := by simp
  asked := by simp
  fresh := List.Pairwise.nil

theorem perm {before before' after after' : List Int} {new : List Waited}
    (accounts : Accounts before new after) (same_before : before.Perm before')
    (same_after : after.Perm after') : Accounts before' new after' where
  kept := same_after.symm.trans (accounts.kept.trans (same_before.filter _))
  asked := fun e member =>
    ⟨same_before.mem_iff.mp (accounts.asked e member).1, (accounts.asked e member).2⟩
  fresh := accounts.fresh

/-- Waits on disjoint lists of pids account for the two lists together. -/
theorem append {b₁ b₂ a₁ a₂ : List Int} {n₁ n₂ : List Waited}
    (first : Accounts b₁ n₁ a₁) (second : Accounts b₂ n₂ a₂)
    (disjoint : ∀ p ∈ b₁, p ∉ b₂) :
    Accounts (b₁ ++ b₂) (n₁ ++ n₂) (a₁ ++ a₂) where
  kept := by
    have left :
        b₁.filter (fun p => !goneIn (n₁ ++ n₂) p) = b₁.filter fun p => !goneIn n₁ p := by
      refine List.filter_congr fun p member => ?_
      have : goneIn n₂ p = false := goneIn_of_not_asked fun e asked same =>
        disjoint p member (same ▸ (second.asked e asked).1)
      simp [this]
    have right :
        b₂.filter (fun p => !goneIn (n₁ ++ n₂) p) = b₂.filter fun p => !goneIn n₂ p := by
      refine List.filter_congr fun p member => ?_
      have : goneIn n₁ p = false := goneIn_of_not_asked fun e asked same =>
        disjoint p (same ▸ (first.asked e asked).1) member
      simp [this]
    rw [List.filter_append, left, right]
    exact first.kept.append second.kept
  asked := by
    intro e member
    rcases List.mem_append.mp member with early | late
    · exact ⟨List.mem_append_left _ (first.asked e early).1, (first.asked e early).2⟩
    · exact ⟨List.mem_append_right _ (second.asked e late).1, (second.asked e late).2⟩
  fresh := by
    refine List.pairwise_append.mpr ⟨first.fresh, second.fresh, ?_⟩
    intro a early b late same
    exact absurd (same ▸ (second.asked b late).1) (disjoint _ (first.asked a early).1)

/-- One wait past interruptions accounts for its pid: dropped exactly when the last reply
reports it gone. -/
theorem retries {p : Int} {r : WaitReply} {block : List Waited} (retried : Retries p r block) :
    Accounts [p] block (if r.reportsGone then [] else [p]) where
  kept := by
    obtain ⟨pre, rfl, interrupted⟩ := retried
    have quiet : goneIn pre p = false := goneIn_eq_false.mpr fun e member _ =>
      WaitReply.reportsGone_of_interrupted (interrupted e member).2.1
    have final : goneIn [⟨p, r, true⟩] p = r.reportsGone := by simp [goneIn]
    cases last : r.reportsGone <;> simp [quiet, final, last]
  asked := by
    obtain ⟨pre, rfl, interrupted⟩ := retried
    intro e member
    rcases List.mem_append.mp member with early | last
    · exact ⟨by simp [(interrupted e early).1], (interrupted e early).2.2⟩
    · simp only [List.mem_singleton] at last
      subst last
      exact ⟨List.mem_singleton_self p, rfl⟩
  fresh := by
    obtain ⟨pre, rfl, interrupted⟩ := retried
    refine List.pairwise_append.mpr ⟨?_, List.pairwise_singleton _ _, ?_⟩
    · exact (List.pairwise_of_forall fun _ _ => trivial).imp_of_mem fun early _ _ _ =>
        WaitReply.reportsGone_of_interrupted (interrupted _ early).2.1
    · intro a early _ _ _
      exact WaitReply.reportsGone_of_interrupted (interrupted a early).2.1

theorem filtered {before after : List Int} {new : List Waited}
    (accounts : Accounts before new after) :
    Accounts before new (before.filter fun p => !goneIn new p) :=
  accounts.perm (List.Perm.refl _) accounts.kept

/-- The waits for one pid report exactly that pid gone, when its last reply does. -/
theorem goneIn_single {p : Int} {gone : Bool} {block : List Waited}
    (accounts : Accounts [p] block (if gone then [] else [p])) (x : Int) :
    goneIn block x = (x == p && gone) := by
  by_cases same : x = p
  · subst same
    have kept := accounts.kept
    cases gone <;> cases reported : goneIn block x <;> simp_all
  · have : goneIn block x = false := goneIn_of_not_asked fun e member asked => by
      have := (accounts.asked e member).1
      simp only [List.mem_singleton] at this
      exact same (asked ▸ this)
    simp [this, same]

end Accounts

namespace Table

/-- The pids a slot records: a job's tracked pid until the job is Done, and its stages other
than the tracked pid. -/
def slotRecorded : Option Job → List Int
  | some j => (if j.status = .done then [] else [j.pid]) ++ j.stragglers
  | none => []

/-- The pids the table still records and will reap: those of its slots, then the untracked
ones. -/
def recorded (t : Table) : List Int := t.slots.flatMap slotRecorded ++ t.untracked

/-- The pids a reconciliation waits on for a slot: what it records, until its job is Done. -/
def slotPending : Option Job → List Int
  | some j => if j.status = .done then [] else slotRecorded (some j)
  | none => []

/-- The pids a reconciliation waits on: those of the slots of jobs not Done, then the untracked
ones. -/
def pending (t : Table) : List Int := t.slots.flatMap slotPending ++ t.untracked

theorem slotPending_subset (s : Option Job) : ∀ p ∈ slotPending s, p ∈ slotRecorded s := by
  intro p member
  cases s with
  | none => cases member
  | some j =>
    by_cases done : j.status = .done
    · simp [slotPending, done] at member
    · simpa [slotPending, done] using member

theorem pending_subset (t : Table) : ∀ p ∈ t.pending, p ∈ t.recorded := by
  intro p member
  rcases List.mem_append.mp member with slot | untracked
  · obtain ⟨s, held, own⟩ := List.mem_flatMap.mp slot
    exact List.mem_append_left _ (List.mem_flatMap.mpr ⟨s, held, slotPending_subset s p own⟩)
  · exact List.mem_append_right _ untracked

theorem stragglers_forget (j : Job) (s : Int) : (j.forget s).stragglers = j.stragglers.erase s :=
  List.erase_filter.symm

theorem stragglers_forget_pid (j : Job) : (j.forget j.pid).stragglers = j.stragglers := by
  rw [stragglers_forget]
  exact List.erase_of_not_mem (by simp [Job.stragglers])

/-- A reply that does not end the process leaves the job's pids, and leaves it not Done if it
was not. -/
theorem applyWait_of_not_ended {j : Job} {w : WaitStatus} (lives : w.ended = false) :
    (j.applyWait w).pid = j.pid ∧ (j.applyWait w).pids = j.pids ∧
      ((j.applyWait w).status = .done → j.status = .done) := by
  unfold Job.applyWait
  rw [lives]
  split_ifs <;> simp_all

/-- What `poll` makes of a job from the last reply of its wait. -/
def pollOutcome (j : Job) (r : WaitReply) : Bool × Job :=
  match r.err with
  | some _ => (true, { j.forget j.pid with status := .done })
  | none => if r.pid == 0 then (false, j) else j.record r.status

/-- Polling a job that is not Done keeps its pid, drops the pid from what the slot records
exactly when the reply reports it gone, and makes the job Done only then. -/
theorem pollOutcome_job {j : Job} {r : WaitReply} (running : j.status ≠ .done)
    (settled : r.interrupted = false) :
    (pollOutcome j r).2.pid = j.pid ∧
      slotRecorded (some (pollOutcome j r).2) =
        (if r.reportsGone then [] else [j.pid]) ++ j.stragglers ∧
      ((pollOutcome j r).2.status = .done → r.reportsGone = true) := by
  obtain ⟨pid, status, err⟩ := r
  cases err with
  | some e =>
    have gone : WaitReply.reportsGone ⟨pid, status, some e⟩ = true := by
      have : e ≠ .intr := by simpa [WaitReply.interrupted] using settled
      simp [WaitReply.reportsGone, this]
    refine ⟨rfl, ?_, fun _ => gone⟩
    rw [gone, if_pos rfl]
    show [] ++ (j.forget j.pid).stragglers = [] ++ j.stragglers
    rw [stragglers_forget_pid]
  | none =>
    by_cases zero : pid = 0
    · have quiet : WaitReply.reportsGone ⟨pid, status, none⟩ = false := by
        simp [WaitReply.reportsGone, zero]
      have outcome : pollOutcome j ⟨pid, status, none⟩ = (false, j) := by
        simp [pollOutcome, zero]
      rw [outcome, quiet]
      exact ⟨rfl, by simp [slotRecorded, running], fun done => absurd done running⟩
    · have recorded : pollOutcome j ⟨pid, status, none⟩ = j.record status := by
        simp [pollOutcome, zero]
      rw [recorded]
      cases ends : status.ended
      · have quiet : WaitReply.reportsGone ⟨pid, status, none⟩ = false := by
          simp [WaitReply.reportsGone, ends]
        obtain ⟨same_pid, same_pids, not_done⟩ := applyWait_of_not_ended (j := j) ends
        have running' : (j.applyWait status).status ≠ .done := fun done => running (not_done done)
        refine ⟨same_pid, ?_, fun done => absurd (not_done done) running⟩
        rw [quiet, if_neg Bool.false_ne_true]
        simp only [slotRecorded, Job.record, if_neg running', same_pid, Job.stragglers, same_pids]
      · have gone : WaitReply.reportsGone ⟨pid, status, none⟩ = true := by
          simp [WaitReply.reportsGone, ends, zero]
        have applied : (j.record status).2 =
            { j.forget j.pid with status := .done, exitStatus := status.shellStatus } := by
          simp [Job.record, Job.applyWait, ends]
        rw [applied, gone]
        refine ⟨rfl, ?_, fun _ => rfl⟩
        show [] ++ (j.forget j.pid).stragglers = [] ++ j.stragglers
        rw [stragglers_forget_pid]

section Reconcile

variable {σ : Type} [Waiter σ]

theorem wait_logged (w : σ) (l : List Waited) (p : Int) (opts : Nat) :
    Waiter.wait (⟨w, l⟩ : Logged σ) p opts =
      ((Waiter.wait w p opts).1,
       ⟨(Waiter.wait w p opts).2, l ++ [⟨p, (Waiter.wait w p opts).1, true⟩]⟩) := rfl

/-- Retrying through the log gives the reply and inner waiter of retrying directly, with every
reply logged; an honest bound makes the last reply one that is not interrupted. -/
theorem go_logged (honest : Waiter.BoundsInterrupts σ) (p : Int) (opts : Nat) :
    ∀ (n : Nat) (w : σ) (l : List Waited), Waiter.interruptBound w p < n →
      ∃ block, waitPastInterrupts.go p opts n (⟨w, l⟩ : Logged σ) =
          ((waitPastInterrupts.go p opts n w).1,
           ⟨(waitPastInterrupts.go p opts n w).2, l ++ block⟩) ∧
        Retries p (waitPastInterrupts.go p opts n w).1 block ∧
        (waitPastInterrupts.go p opts n w).1.interrupted = false
  | 0, _, _, below => absurd below (Nat.not_lt_zero _)
  | n + 1, w, l, below => by
    have lowers := honest w p opts
    simp only [waitPastInterrupts.go, wait_logged]
    rcases waited : Waiter.wait w p opts with ⟨r, w'⟩
    rw [waited] at lowers
    dsimp only at lowers ⊢
    by_cases interrupted : r.interrupted = true
    · have below' : Waiter.interruptBound w' p < n := by
        have := lowers interrupted
        omega
      obtain ⟨block, run, ⟨pre, rfl, retried⟩, settled⟩ :=
        go_logged honest p opts n w' _ below'
      refine ⟨⟨p, r, true⟩ :: pre ++ [⟨p, _, true⟩], ?_,
        ⟨⟨p, r, true⟩ :: pre, rfl, ?_⟩, ?_⟩
      · simp only [interrupted, if_true]
        rw [run]
        simp
      · intro e member
        rcases List.mem_cons.mp member with rfl | later
        · exact ⟨rfl, interrupted, rfl⟩
        · exact retried e later
      · simpa [interrupted] using settled
    · have settled : r.interrupted = false := by simpa using interrupted
      simp only [settled, Bool.false_eq_true, if_false]
      exact ⟨[⟨p, r, true⟩], rfl, ⟨[], rfl, by simp⟩, trivial⟩

theorem waitPastInterrupts_logged (honest : Waiter.BoundsInterrupts σ) (w : σ)
    (l : List Waited) (p : Int) (opts : Nat) :
    ∃ block, waitPastInterrupts (⟨w, l⟩ : Logged σ) p opts =
        ((waitPastInterrupts w p opts).1, ⟨(waitPastInterrupts w p opts).2, l ++ block⟩) ∧
      Retries p (waitPastInterrupts w p opts).1 block ∧
      (waitPastInterrupts w p opts).1.interrupted = false :=
  go_logged honest p opts _ w l (Nat.lt_succ_self _)

/-- `reap` calls a pid gone exactly when a settled last reply reports it gone. -/
theorem reap_fst {w : σ} {p : Int}
    (settled : (waitPastInterrupts w p WaitOptions.noHang).1.interrupted = false) :
    (reap w p).1 = (waitPastInterrupts w p WaitOptions.noHang).1.reportsGone := by
  unfold reap
  generalize waitPastInterrupts w p WaitOptions.noHang = result at settled ⊢
  obtain ⟨⟨pid, status, err⟩, w'⟩ := result
  cases err with
  | none => by_cases zero : pid = 0 <;> simp [WaitReply.reportsGone, zero]
  | some e =>
    have : e ≠ .intr := by simpa [WaitReply.interrupted] using settled
    simp [WaitReply.reportsGone, this]

theorem reap_snd (w : σ) (p : Int) :
    (reap w p).2 = (waitPastInterrupts w p WaitOptions.noHang).2 := by
  unfold reap
  generalize waitPastInterrupts w p WaitOptions.noHang = result
  obtain ⟨⟨pid, status, err⟩, w'⟩ := result
  cases err <;> rfl

theorem reap_logged (honest : Waiter.BoundsInterrupts σ) (w : σ) (l : List Waited) (p : Int) :
    ∃ block, reap (⟨w, l⟩ : Logged σ) p = ((reap w p).1, ⟨(reap w p).2, l ++ block⟩) ∧
      Accounts [p] block (if (reap w p).1 then [] else [p]) ∧ Asked block p := by
  obtain ⟨block, run, retried, settled⟩ :=
    waitPastInterrupts_logged honest w l p WaitOptions.noHang
  have settled' : (waitPastInterrupts (⟨w, l⟩ : Logged σ) p WaitOptions.noHang).1.interrupted =
      false := by rw [run]; exact settled
  refine ⟨block, Prod.ext ?_ ?_, ?_, retried.asked⟩
  · rw [reap_fst settled', reap_fst settled, run]
  · rw [reap_snd, reap_snd, run]
  · rw [reap_fst settled]
    exact Accounts.retries retried

/-- One step of reaping a job's stragglers: reap the pid, and forget it if it is gone. -/
def reapStraggler (acc : Job × σ) (pid : Int) : Job × σ :=
  let (g, w) := reap acc.2 pid
  (if g then acc.1.forget pid else acc.1, w)

theorem refresh_eq (w : σ) (j : Job) :
    refresh w j = if j.status == .done then (false, j, w)
      else poll (j.stragglers.foldl reapStraggler (j, w)).2
        (j.stragglers.foldl reapStraggler (j, w)).1 := by
  unfold refresh
  rfl

/-- Reaping stragglers through the log forgets exactly the stragglers reported gone. -/
theorem foldl_reapStraggler_logged (honest : Waiter.BoundsInterrupts σ) :
    ∀ (S : List Int) (j : Job) (w : σ) (l : List Waited), S.Nodup → j.stragglers.Nodup →
      ∃ new, S.foldl reapStraggler (j, (⟨w, l⟩ : Logged σ)) =
          ((S.foldl reapStraggler (j, w)).1, ⟨(S.foldl reapStraggler (j, w)).2, l ++ new⟩) ∧
        Accounts S new (S.filter fun s => !goneIn new s) ∧
        (S.foldl reapStraggler (j, w)).1.stragglers =
          (j.stragglers.filter fun s => !goneIn new s) ∧
        ∀ s ∈ S, Asked new s
  | [], j, w, l, _, _ => ⟨[], by simp, by simpa using Accounts.nil [], by simp, by simp⟩
  | s :: rest, j, w, l, nodup, stragglers_nodup => by
    obtain ⟨block, reaped, first, asked⟩ := reap_logged honest w l s
    simp only [List.foldl_cons, reapStraggler, reaped]
    generalize reap w s = verdict at first ⊢
    obtain ⟨gone, w'⟩ := verdict
    dsimp only at first ⊢
    have single := first.goneIn_single
    have forgotten : (if gone then j.forget s else j).stragglers =
        j.stragglers.filter fun x => !goneIn block x := by
      cases gone
      · simp [single]
      · rw [if_pos rfl, stragglers_forget, stragglers_nodup.erase_eq_filter]
        simp [single, bne]
    obtain ⟨new, run, second, rest_stragglers, rest_asked⟩ :=
      foldl_reapStraggler_logged honest rest (if gone then j.forget s else j) w' (l ++ block)
        (List.nodup_cons.mp nodup).2 (forgotten ▸ stragglers_nodup.filter _)
    refine ⟨block ++ new, by rw [run]; simp, ?_, ?_, fun x member => ?_⟩
    · have both := first.append second (by simpa using (List.nodup_cons.mp nodup).1)
      exact both.filtered
    · rw [rest_stragglers, forgotten, List.filter_filter]
      refine List.filter_congr fun x _ => ?_
      simp [Bool.and_comm]
    · rcases List.mem_cons.mp member with rfl | later
      · exact asked.append_left new
      · exact (rest_asked x later).append_right block

theorem poll_eq (w : σ) (j : Job) :
    poll w j =
      ((pollOutcome j (waitPastInterrupts w j.pid WaitOptions.poll).1).1,
       (pollOutcome j (waitPastInterrupts w j.pid WaitOptions.poll).1).2,
       (waitPastInterrupts w j.pid WaitOptions.poll).2) := by
  unfold poll pollOutcome
  generalize waitPastInterrupts w j.pid WaitOptions.poll = result
  obtain ⟨⟨pid, status, err⟩, w'⟩ := result
  cases err with
  | some e => rfl
  | none =>
    dsimp only
    split <;> rfl

theorem poll_logged (honest : Waiter.BoundsInterrupts σ) (w : σ) (l : List Waited) (j : Job) :
    ∃ block, poll (⟨w, l⟩ : Logged σ) j =
        ((poll w j).1, (poll w j).2.1, ⟨(poll w j).2.2, l ++ block⟩) ∧
      Accounts [j.pid] block
        (if (waitPastInterrupts w j.pid WaitOptions.poll).1.reportsGone then [] else [j.pid]) ∧
      (waitPastInterrupts w j.pid WaitOptions.poll).1.interrupted = false ∧ Asked block j.pid := by
  obtain ⟨block, run, retried, settled⟩ :=
    waitPastInterrupts_logged honest w l j.pid WaitOptions.poll
  refine ⟨block, ?_, Accounts.retries retried, settled, retried.asked⟩
  rw [poll_eq, poll_eq, run]

/-- Refreshing a job through the log: its stragglers, then its tracked pid, each dropped from
what the slot records exactly when reported gone; the job becomes Done only so. -/
theorem refresh_logged (honest : Waiter.BoundsInterrupts σ) (w : σ) (l : List Waited) (j : Job)
    (nodup : (slotRecorded (some j)).Nodup) :
    ∃ new, refresh (⟨w, l⟩ : Logged σ) j =
        ((refresh w j).1, (refresh w j).2.1, ⟨(refresh w j).2.2, l ++ new⟩) ∧
      Accounts (slotRecorded (some j)) new (slotRecorded (some (refresh w j).2.1)) ∧
      (refresh w j).2.1.pid = j.pid ∧
      ((refresh w j).2.1.status = .done → j.status = .done ∨ goneIn new j.pid = true) ∧
      ∀ p ∈ slotPending (some (refresh w j).2.1), Asked new p := by
  by_cases done : j.status = .done
  · refine ⟨[], ?_, ?_, ?_, fun _ => Or.inl done, ?_⟩
    · simp [refresh_eq, done]
    · simpa [refresh_eq, done] using Accounts.nil (slotRecorded (some j))
    · simp [refresh_eq, done]
    · simp [refresh_eq, done, slotPending]
  · have not_done : (j.status == .done) = false := by simpa using done
    have recorded : slotRecorded (some j) = [j.pid] ++ j.stragglers := by simp [slotRecorded, done]
    have stragglers_nodup : j.stragglers.Nodup := by
      rw [recorded] at nodup
      exact (List.nodup_append.mp nodup).2.1
    obtain ⟨n₁, folded, first, stragglers, reaped⟩ :=
      foldl_reapStraggler_logged honest j.stragglers j w l stragglers_nodup stragglers_nodup
    obtain ⟨stages, same_job⟩ : ∃ stages,
        (j.stragglers.foldl reapStraggler (j, w)).1 = { j with pids := stages } :=
      reapStragglers_job j.stragglers j w
    rw [refresh_eq, refresh_eq, not_done, if_neg Bool.false_ne_true, if_neg Bool.false_ne_true,
      folded]
    dsimp only
    generalize j.stragglers.foldl reapStraggler (j, w) = mid at stragglers same_job ⊢
    obtain ⟨J, w'⟩ := mid
    dsimp only at stragglers same_job ⊢
    subst same_job
    obtain ⟨n₂, polled, second, settled, asked⟩ :=
      poll_logged honest w' (l ++ n₁) { j with pids := stages }
    obtain ⟨same_pid, polled_recorded, polled_done⟩ :=
      pollOutcome_job (j := { j with pids := stages }) done settled
    refine ⟨n₁ ++ n₂, by rw [polled]; simp, ?_, ?_, ?_, fun p member => ?_⟩
    · have both := first.append second (fun p straggler same => by
        simp only [List.mem_singleton] at same
        simp [Job.stragglers, same] at straggler)
      refine both.perm (by rw [recorded]; exact List.perm_append_comm) ?_
      rw [poll_eq, polled_recorded, stragglers]
      exact List.perm_append_comm
    · rw [poll_eq]
      exact same_pid
    · rw [poll_eq]
      intro finished
      have reported := polled_done finished
      refine Or.inr ?_
      rw [goneIn_append, second.goneIn_single]
      simp [reported]
    · -- what the job still waits on is its pid, polled, or a stage reaped before
      have recorded := slotPending_subset _ p member
      rw [poll_eq, polled_recorded, stragglers] at recorded
      rcases List.mem_append.mp recorded with tracked | straggler
      · split at tracked
        · cases tracked
        · rw [List.mem_singleton.mp tracked]
          exact asked.append_right n₁
      · exact (reaped p (List.mem_filter.mp straggler).1).append_left n₂

/-- Refreshing every slot through the log accounts for what the slots record; each job keeps
its pid and becomes Done only when it was or its pid was reported gone. -/
theorem refreshFilled_logged (honest : Waiter.BoundsInterrupts σ) :
    ∀ (slots : List (Option Job)) (w : σ) (l : List Waited),
      (slots.flatMap slotRecorded).Nodup →
      ∃ new, refreshFilled (⟨w, l⟩ : Logged σ) slots =
          ((refreshFilled w slots).1, (refreshFilled w slots).2.1,
           ⟨(refreshFilled w slots).2.2, l ++ new⟩) ∧
        Accounts (slots.flatMap slotRecorded) new
          ((refreshFilled w slots).2.1.flatMap slotRecorded) ∧
        (∀ J ∈ (refreshFilled w slots).2.1.filterMap id, ∃ j ∈ slots.filterMap id,
          J.pid = j.pid ∧ (J.status = .done → j.status = .done ∨ goneIn new j.pid = true)) ∧
        ∀ p ∈ (refreshFilled w slots).2.1.flatMap slotPending, Asked new p
  | [], w, l, _ =>
    ⟨[], by simp [refreshFilled], by simpa [refreshFilled] using Accounts.nil [],
      by simp [refreshFilled], by simp [refreshFilled]⟩
  | none :: rest, w, l, nodup => by
    obtain ⟨new, run, accounts, kept, asked⟩ :=
      refreshFilled_logged honest rest w l (by simpa [slotRecorded] using nodup)
    simp only [refreshFilled, run]
    generalize refreshFilled w rest = result at accounts kept asked ⊢
    obtain ⟨ids, slots', w'⟩ := result
    exact ⟨new, rfl, by simpa [slotRecorded] using accounts, by simpa using kept,
      by simpa [slotPending] using asked⟩
  | some j :: rest, w, l, nodup => by
    have nodup' : (slotRecorded (some j) ++ rest.flatMap slotRecorded).Nodup := by
      simpa using nodup
    obtain ⟨n₁, refreshed, first, same_pid, became_done, own_asked⟩ :=
      refresh_logged honest w l j (List.nodup_append.mp nodup').1
    simp only [refreshFilled, refreshed]
    generalize refresh w j = result at first same_pid became_done own_asked ⊢
    obtain ⟨changed, J, w'⟩ := result
    dsimp only at first same_pid became_done own_asked ⊢
    obtain ⟨n₂, run, second, kept, rest_asked⟩ :=
      refreshFilled_logged honest rest w' (l ++ n₁) (List.nodup_append.mp nodup').2.1
    rw [run]
    generalize refreshFilled w' rest = result at second kept rest_asked ⊢
    obtain ⟨ids, slots', w''⟩ := result
    refine ⟨n₁ ++ n₂, by simp, ?_, ?_, fun p member => ?_⟩
    · have disjoint : ∀ p ∈ slotRecorded (some j), p ∉ rest.flatMap slotRecorded :=
        fun p early late => (List.nodup_append.mp nodup').2.2 p early p late rfl
      simpa using first.append second disjoint
    · intro K member
      simp only [List.filterMap_cons, id, List.mem_cons] at member
      rcases member with rfl | later
      · exact ⟨j, by simp, same_pid,
          fun finished => (became_done finished).imp_right fun gone => by simp [gone]⟩
      · obtain ⟨k, older, same, done_or⟩ := kept K later
        exact ⟨k, by simp at older; simp [older], same,
          fun finished => (done_or finished).imp_right fun gone => by simp [gone]⟩
    · rw [List.flatMap_cons] at member
      rcases List.mem_append.mp member with own | later
      · exact (own_asked p own).append_left n₂
      · exact (rest_asked p later).append_right n₁

/-- Reaping the untracked pids keeps those no wait reported gone. -/
theorem reapAll_logged (honest : Waiter.BoundsInterrupts σ) :
    ∀ (pids : List Int) (w : σ) (l : List Waited), pids.Nodup →
      ∃ new, reapAll (⟨w, l⟩ : Logged σ) pids =
          ((reapAll w pids).1, ⟨(reapAll w pids).2, l ++ new⟩) ∧
        Accounts pids new (reapAll w pids).1 ∧ ∀ p ∈ pids, Asked new p
  | [], w, l, _ => ⟨[], by simp [reapAll], by simpa [reapAll] using Accounts.nil [], by simp⟩
  | p :: rest, w, l, nodup => by
    obtain ⟨block, reaped, first, asked⟩ := reap_logged honest w l p
    simp only [reapAll, reaped]
    generalize reap w p = verdict at first ⊢
    obtain ⟨gone, w'⟩ := verdict
    obtain ⟨new, kept_run, second, rest_asked⟩ := reapAll_logged honest rest w' (l ++ block)
      (List.nodup_cons.mp nodup).2
    rw [kept_run]
    generalize reapAll w' rest = result at second ⊢
    obtain ⟨kept, w''⟩ := result
    refine ⟨block ++ new, by simp, ?_, fun q member => ?_⟩
    · have both := first.append second (by simpa using (List.nodup_cons.mp nodup).1)
      cases gone <;> simpa using both
    · rcases List.mem_cons.mp member with rfl | later
      · exact asked.append_left new
      · exact (rest_asked q later).append_right block

/-- A reconciliation through the log changes the table and the inner waiter as one through the
inner waiter does. Its waits account for every pid the table records, a job becomes Done only
when its pid was reported gone, and every pid the table is left waiting on was waited on. -/
theorem reconcileFilled_logged (honest : Waiter.BoundsInterrupts σ) (t : Table) (w : σ)
    (l : List Waited) (nodup : t.recorded.Nodup) :
    ∃ new, t.reconcileFilled (⟨w, l⟩ : Logged σ) =
        ((t.reconcileFilled w).1, (t.reconcileFilled w).2.1,
         ⟨(t.reconcileFilled w).2.2, l ++ new⟩) ∧
      Accounts t.recorded new (t.reconcileFilled w).2.1.recorded ∧
      (∀ J ∈ (t.reconcileFilled w).2.1.jobs, ∃ j ∈ t.jobs, J.pid = j.pid ∧
        (J.status = .done → j.status = .done ∨ goneIn new j.pid = true)) ∧
      ∀ p ∈ (t.reconcileFilled w).2.1.pending, Asked new p := by
  have parts := List.nodup_append.mp nodup
  obtain ⟨n₁, refreshed, first, kept, slots_asked⟩ :=
    refreshFilled_logged honest t.slots w l parts.1
  simp only [reconcileFilled, refreshed]
  generalize refreshFilled w t.slots = result at first kept slots_asked ⊢
  obtain ⟨ids, slots', w'⟩ := result
  obtain ⟨n₂, reaped, second, untracked_asked⟩ :=
    reapAll_logged honest t.untracked w' (l ++ n₁) parts.2.1
  rw [reaped]
  generalize reapAll w' t.untracked = result at second ⊢
  obtain ⟨untracked', w''⟩ := result
  refine ⟨n₁ ++ n₂, by simp, ?_, ?_, fun p member => ?_⟩
  · exact first.append second fun p early late => parts.2.2 p early p late rfl
  · intro J member
    obtain ⟨j, older, same, done_or⟩ := kept J member
    exact ⟨j, older, same,
      fun finished => (done_or finished).imp_right fun gone => by simp [gone]⟩
  · rcases List.mem_append.mp member with slot | untracked
    · exact (slots_asked p slot).append_left n₂
    · -- the untracked pids left are some of those reaped
      have reaped_pid : p ∈ t.untracked :=
        (List.mem_filter.mp (second.kept.mem_iff.mp untracked)).1
      exact (untracked_asked p reaped_pid).append_right n₁

end Reconcile

end Table

end JobShell

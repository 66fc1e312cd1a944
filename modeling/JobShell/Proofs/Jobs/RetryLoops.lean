import JobShell.Proofs.Jobs.Reconciliation
import JobShell.Proofs.Shell.PipelineWaits

/-!
# The wait-retry loops end

Three loops ask the waiter again after some replies. A status poll of a job and a reap of a
stray pid ask again after an interrupted wait; the shell's blocking wait for a pid asks again
also after a reply about another process. As written they have no bound on their rounds.
`RetryLoop ask next n w a w'` is such a loop on its own terms: each round asks once, `next`
reads the reply as the value to return or as `none` to go round again, and a run from `w`
that asks `n` times returns `a` and leaves `w'`. A loop has at most one run from a waiter
(`RetryLoop.deterministic`), so that a run is the loop ending, with its value.

The loops of the table and the shell carry a bound instead: the waiter's count of replies
still queued for the pid, plus one. `RetryLoop.of_bounded` says when such a bound is enough:
a measure of the waiter that falls at every round that goes round again. For the scripted
waiter the measure is the length of the asked pid's queue. A reply that sends a loop round
again is always a queued one, since an empty queue answers "no child" or "nothing yet" and
never an interruption, and it answers a wait that may block with "no child". So each loop
ends, within one round more than the queue is long, on the value the table or the shell takes
(`wait_retries_end`). The blocking wait needs its options: asked to return at once, on an
empty queue of a pid that is not gone, it goes round for ever (`await_spins_without_blocking`),
and the shell never asks so.
-/
namespace JobShell

/-- A loop that asks a waiter until a reply settles it, run without a bound: each round asks
once, and `next` reads the reply as the value returned, or as `none` to ask again.
`RetryLoop ask next n w a w'`: started on `w`, it asks `n` times and returns `a`, leaving
`w'`. -/
inductive RetryLoop {σ α : Type} (ask : σ → WaitReply × σ) (next : WaitReply → Option α) :
    Nat → σ → α → σ → Prop
  | stop {w : σ} {a : α} : next (ask w).1 = some a → RetryLoop ask next 1 w a (ask w).2
  | again {n : Nat} {w w' : σ} {a : α} : next (ask w).1 = none →
      RetryLoop ask next n (ask w).2 a w' → RetryLoop ask next (n + 1) w a w'

namespace RetryLoop

variable {σ α : Type} {ask : σ → WaitReply × σ} {next : WaitReply → Option α}

/-- A loop has at most one run from a waiter: its rounds, its value and the waiter it leaves
are fixed. -/
theorem deterministic {n m : Nat} {w w₁ w₂ : σ} {a b : α}
    (first : RetryLoop ask next n w a w₁) (second : RetryLoop ask next m w b w₂) :
    n = m ∧ a = b ∧ w₁ = w₂ := by
  induction first generalizing m with
  | stop settles =>
    cases second with
    | stop settles' =>
      rw [settles, Option.some.injEq] at settles'
      exact ⟨rfl, settles', rfl⟩
    | again goes _ => rw [settles] at goes; cases goes
  | again goes _ ih =>
    cases second with
    | stop settles => rw [goes] at settles; cases settles
    | again _ rest =>
      obtain ⟨rounds, value, left⟩ := ih rest
      exact ⟨congrArg (· + 1) rounds, value, left⟩

/-- Reading every settling reply through `f` reads the same run through `f`. -/
theorem map {β : Type} {next' : WaitReply → Option β} (f : α → β)
    (reads : ∀ r, (next r).map f = next' r) {n : Nat} {w w' : σ} {a : α}
    (run : RetryLoop ask next n w a w') : RetryLoop ask next' n w (f a) w' := by
  induction run with
  | stop settles => exact .stop (by rw [← reads, settles]; rfl)
  | again goes _ ih => exact .again (by rw [← reads, goes]; rfl) ih

/-- A bounded loop `F` computes the loop when a measure of the waiter, on waiters kept within
`I`, falls at every round that goes again and the bound exceeds it: the loop then ends within
one round more than the measure, on what `F` returns. -/
theorem of_bounded {F : Nat → σ → α × σ}
    (unroll : ∀ n w, F (n + 1) w = (next (ask w).1).elim (F n (ask w).2) fun a => (a, (ask w).2))
    (I : σ → Prop) (keeps : ∀ w, I w → I (ask w).2) (μ : σ → Nat)
    (lowers : ∀ w, I w → next (ask w).1 = none → μ (ask w).2 < μ w) (n : Nat) :
    ∀ w, I w → μ w < n → ∃ k ≤ μ w + 1, RetryLoop ask next k w (F n w).1 (F n w).2 := by
  -- the bound falls by one a round, the measure by at least one
  induction n with
  | zero => intro w _ below; exact absurd below (Nat.not_lt_zero _)
  | succ n ih =>
    intro w inv below
    rw [unroll]
    cases settles : next (ask w).1 with
    | some a => exact ⟨1, by omega, .stop settles⟩
    | none =>
      have lower := lowers w inv settles
      obtain ⟨k, few, run⟩ := ih (ask w).2 (keeps w inv) (by omega)
      exact ⟨k + 1, by omega, .again settles run⟩

/-- A loop that goes round again from every waiter of `I`, and stays in `I`, never ends from
there. -/
theorem not_of_spins (I : σ → Prop) (keeps : ∀ w, I w → I (ask w).2)
    (spins : ∀ w, I w → next (ask w).1 = none) {n : Nat} {w w' : σ} {a : α} (inv : I w) :
    ¬ RetryLoop ask next n w a w' := by
  intro run
  induction run with
  | stop settles => rw [spins _ inv] at settles; cases settles
  | again _ _ ih => exact ih (keeps _ inv)

end RetryLoop

namespace WaitReply

/-- How the table's loops read a reply: an interrupted one goes round again, any other is
handed to `f`. -/
def retryInterrupted {α : Type} (f : WaitReply → α) (r : WaitReply) : Option α :=
  if r.interrupted then none else some (f r)

@[simp] theorem retryInterrupted_eq_none {α : Type} {f : WaitReply → α} {r : WaitReply} :
    r.retryInterrupted f = none ↔ r.interrupted = true := by
  unfold retryInterrupted
  split <;> simp_all

theorem map_retryInterrupted {α β : Type} (f : WaitReply → α) (g : α → β) (r : WaitReply) :
    (r.retryInterrupted f).map g = r.retryInterrupted (g ∘ f) := by
  unfold retryInterrupted
  split <;> rfl

/-- Whether a reap finds its pid gone: an error says it is, "nothing yet" that it is not,
and a reply about it that it is when the process exited or was killed. -/
def reapOutcome (r : WaitReply) : Bool :=
  match r.err with
  | some _ => true
  | none => if r.pid == 0 then false else r.status.ended

/-- How the shell's blocking wait for `pid` reads a reply: an interruption and a reply about
another process go round again; any other error, and a reply about `pid`, end the wait. -/
def blockingOutcome (pid : Int) (r : WaitReply) : Option (Except Errno WaitStatus) :=
  match r.err with
  | some .intr => none
  | some e => some (.error e)
  | none => if r.pid == pid then some (.ok r.status) else none

end WaitReply

/-! ## The scripted waiter's queues -/

namespace WaitScript

/-- Every answer takes the next reply off the asked pid's queue, if one is queued. -/
theorem queueOf_answer (s : WaitScript) (pid : Int) (opts : Nat) :
    (s.answer pid opts).2.queueOf pid = (s.queueOf pid).tail := by
  unfold answer
  -- logging the call changes no queue
  have logged : ({ s with calls := s.calls.push (pid, opts) } : WaitScript).queueOf pid =
      s.queueOf pid := rfl
  dsimp only
  split
  · rename_i e rest queued
    rw [logged] at queued
    rw [queued]
    split
    · exact queueOf_setQueue _ pid rest
    · split <;> exact queueOf_setQueue _ pid rest
  · rename_i queued
    rw [logged] at queued
    rw [queued]
    split <;> exact queued

/-- An empty queue answers a wait that may block, or one for a pid that is gone, with
"no child", and any other with "nothing yet"; it only logs the call. -/
theorem answer_of_empty {s : WaitScript} {pid : Int} (empty : s.queueOf pid = []) (opts : Nat) :
    s.answer pid opts =
      (if s.gone.contains pid || opts &&& WaitOptions.noHang == 0 then WaitReply.failure .child
        else WaitReply.nothing, { s with calls := s.calls.push (pid, opts) }) := by
  have logged : ({ s with calls := s.calls.push (pid, opts) } : WaitScript).queueOf pid = [] :=
    empty
  unfold answer
  dsimp only
  split
  · rename_i queued
    rw [logged] at queued
    cases queued
  · split <;> rfl

/-- A blocking wait goes round again only on a queued reply, which it takes off the queue. -/
theorem answer_lowers_of_blocking {s : WaitScript} {pid : Int} {opts : Nat}
    (blocking : opts &&& WaitOptions.noHang = 0)
    (again : (s.answer pid opts).1.blockingOutcome pid = none) :
    ((s.answer pid opts).2.queueOf pid).length < (s.queueOf pid).length := by
  rw [queueOf_answer]
  cases queued : s.queueOf pid with
  | nil =>
    rw [answer_of_empty queued, blocking] at again
    simp [WaitReply.blockingOutcome, WaitReply.failure] at again
  | cons e rest => simp

end WaitScript

/-! ## The loops of the table -/

namespace Table

section Retries

variable {σ : Type} [Waiter σ]

theorem waitPastInterrupts_go_succ (pid : Int) (opts : Nat) (n : Nat) (w : σ) :
    waitPastInterrupts.go pid opts (n + 1) w =
      ((Waiter.wait w pid opts).1.retryInterrupted id).elim
        (waitPastInterrupts.go pid opts n (Waiter.wait w pid opts).2)
        fun r => (r, (Waiter.wait w pid opts).2) := by
  rw [waitPastInterrupts.go]
  generalize Waiter.wait w pid opts = answer
  obtain ⟨r, w'⟩ := answer
  dsimp only [WaitReply.retryInterrupted]
  by_cases interrupted : r.interrupted <;> simp [interrupted]

/-- With an honest interruption bound, retrying past interrupted waits is the loop as written:
it ends within one round more than the bound, on the reply the retry returns. -/
theorem waitPastInterrupts_loop (honest : Waiter.BoundsInterrupts σ) (w : σ) (pid : Int)
    (opts : Nat) :
    ∃ n ≤ Waiter.interruptBound w pid + 1,
      RetryLoop (Waiter.wait · pid opts) (WaitReply.retryInterrupted id) n w
        (waitPastInterrupts w pid opts).1 (waitPastInterrupts w pid opts).2 := by
  -- only an interrupted reply goes round again, and the honest bound falls with it
  have lowers : ∀ w : σ, True → (Waiter.wait w pid opts).1.retryInterrupted id = none →
      Waiter.interruptBound (Waiter.wait w pid opts).2 pid < Waiter.interruptBound w pid :=
    fun w _ again => honest w pid opts (WaitReply.retryInterrupted_eq_none.mp again)
  exact RetryLoop.of_bounded (waitPastInterrupts_go_succ pid opts) (fun _ => True)
    (fun _ _ => trivial) (Waiter.interruptBound · pid) lowers _ w trivial (Nat.lt_succ_self _)

theorem reap_eq (w : σ) (p : Int) :
    reap w p = ((waitPastInterrupts w p WaitOptions.noHang).1.reapOutcome,
      (waitPastInterrupts w p WaitOptions.noHang).2) := by
  unfold reap WaitReply.reapOutcome
  generalize waitPastInterrupts w p WaitOptions.noHang = result
  obtain ⟨⟨pid, status, err⟩, w'⟩ := result
  cases err <;> rfl

/-- A poll is its loop: interrupted waits go round again, and the first other reply decides
the job. -/
theorem poll_loop (honest : Waiter.BoundsInterrupts σ) (w : σ) (j : Job) :
    ∃ n ≤ Waiter.interruptBound w j.pid + 1,
      RetryLoop (Waiter.wait · j.pid WaitOptions.poll)
        (WaitReply.retryInterrupted (pollOutcome j)) n w ((poll w j).1, (poll w j).2.1)
        (poll w j).2.2 := by
  obtain ⟨n, few, run⟩ := waitPastInterrupts_loop honest w j.pid WaitOptions.poll
  rw [poll_eq]
  exact ⟨n, few, run.map (pollOutcome j) fun r => WaitReply.map_retryInterrupted id _ r⟩

/-- A reap is its loop: interrupted waits go round again, and the first other reply says
whether the pid is gone. -/
theorem reap_loop (honest : Waiter.BoundsInterrupts σ) (w : σ) (pid : Int) :
    ∃ n ≤ Waiter.interruptBound w pid + 1,
      RetryLoop (Waiter.wait · pid WaitOptions.noHang)
        (WaitReply.retryInterrupted WaitReply.reapOutcome) n w (reap w pid).1 (reap w pid).2 := by
  obtain ⟨n, few, run⟩ := waitPastInterrupts_loop honest w pid WaitOptions.noHang
  rw [reap_eq]
  exact ⟨n, few, run.map WaitReply.reapOutcome fun r => WaitReply.map_retryInterrupted id _ r⟩

end Retries

end Table

/-! ## The shell's blocking wait -/

namespace System

theorem await_go_succ (pid : Int) (opts : Nat) (n : Nat) (sys : System) :
    await.go pid opts (n + 1) sys =
      ((sys.wait pid opts).1.blockingOutcome pid).elim (await.go pid opts n (sys.wait pid opts).2)
        fun a => (a, (sys.wait pid opts).2) := by
  rw [await.go]
  generalize sys.wait pid opts = answer
  obtain ⟨⟨rpid, status, err⟩, sys'⟩ := answer
  cases err with
  | none =>
    unfold WaitReply.blockingOutcome
    dsimp only
    split <;> rfl
  | some e => cases e <;> rfl

/-- On the scripted system, a wait that may block for `pid` is the loop as written: it ends
within one round more than the pid's queue is long, on what the shell's wait returns. -/
theorem await_loop (s : WaitScript) (pid : Int) {opts : Nat}
    (blocking : opts &&& WaitOptions.noHang = 0) :
    ∃ n ≤ (s.queueOf pid).length + 1,
      RetryLoop (System.wait · pid opts) (WaitReply.blockingOutcome pid) n (.scripted s)
        ((System.scripted s).await pid opts).1 ((System.scripted s).await pid opts).2 := by
  -- the system stays scripted, and its bound is the queue that a round going again shortens
  have keeps : ∀ sys : System, (∃ s, sys = .scripted s) →
      ∃ s, (sys.wait pid opts).2 = .scripted s := by
    rintro _ ⟨s, rfl⟩
    exact ⟨_, rfl⟩
  have lowers : ∀ sys : System, (∃ s, sys = .scripted s) →
      (sys.wait pid opts).1.blockingOutcome pid = none →
      (sys.wait pid opts).2.replyBound pid < sys.replyBound pid := by
    rintro _ ⟨s, rfl⟩ again
    exact WaitScript.answer_lowers_of_blocking blocking again
  exact RetryLoop.of_bounded (await_go_succ pid opts) (fun sys => ∃ s, sys = .scripted s) keeps
    (System.replyBound · pid) lowers _ (.scripted s) ⟨s, rfl⟩ (Nat.lt_succ_self _)

/-- Asked to return at once, for a pid other than 0 that is not gone and has nothing queued,
the scripted system answers "nothing yet" and stays so: the blocking loop never ends. -/
theorem await_spins_without_blocking (s : WaitScript) {pid : Int} {opts : Nat}
    (nonzero : pid ≠ 0) (returns : opts &&& WaitOptions.noHang ≠ 0)
    (empty : s.queueOf pid = []) (alive : s.gone.contains pid = false) (n : Nat)
    (a : Except Errno WaitStatus) (sys : System) :
    ¬ RetryLoop (System.wait · pid opts) (WaitReply.blockingOutcome pid) n (.scripted s) a sys := by
  let Idle : System → Prop := fun sys =>
    ∃ s : WaitScript, sys = .scripted s ∧ s.queueOf pid = [] ∧ s.gone.contains pid = false
  have answered : ∀ s : WaitScript, s.queueOf pid = [] → s.gone.contains pid = false →
      s.answer pid opts = (WaitReply.nothing, { s with calls := s.calls.push (pid, opts) }) := by
    intro s empty alive
    rw [WaitScript.answer_of_empty empty, alive]
    simp [returns]
  refine RetryLoop.not_of_spins Idle ?keeps ?spins ⟨s, rfl, empty, alive⟩
  case keeps =>
    rintro _ ⟨s, rfl, empty, alive⟩
    refine ⟨{ s with calls := s.calls.push (pid, opts) }, ?_, empty, alive⟩
    show System.scripted (s.answer pid opts).2 = _
    rw [answered s empty alive]
  case spins =>
    rintro _ ⟨s, rfl, empty, alive⟩
    show (s.answer pid opts).1.blockingOutcome pid = none
    rw [answered s empty alive]
    simp [WaitReply.blockingOutcome, WaitReply.nothing, Ne.symm nonzero]

end System

/-- The wait-retry loops end on the scripted waiter, from every state of it: the poll of any job,
the reap of any pid, and the shell's wait for any pid with options that may block. Each ends
within one round more than the asked pid's queue is long, on what the table or the shell takes
from it. -/
theorem wait_retries_end (s : WaitScript) :
    (∀ j : Job, ∃ n ≤ (s.queueOf j.pid).length + 1,
      RetryLoop (WaitScript.answer · j.pid WaitOptions.poll)
        (WaitReply.retryInterrupted (Table.pollOutcome j)) n s
        ((Table.poll s j).1, (Table.poll s j).2.1) (Table.poll s j).2.2) ∧
    (∀ pid : Int, ∃ n ≤ (s.queueOf pid).length + 1,
      RetryLoop (WaitScript.answer · pid WaitOptions.noHang)
        (WaitReply.retryInterrupted WaitReply.reapOutcome) n s
        (Table.reap s pid).1 (Table.reap s pid).2) ∧
    (∀ (pid : Int) (opts : Nat), opts &&& WaitOptions.noHang = 0 → ∀ σ : Session,
      ∃ n ≤ (s.queueOf pid).length + 1,
        RetryLoop (System.wait · pid opts) (WaitReply.blockingOutcome pid) n (.scripted s)
          ((ShellM.waitFor pid opts).run (σ.withSystem (.scripted s))).1
          ((ShellM.waitFor pid opts).run (σ.withSystem (.scripted s))).2.world.system) := by
  refine ⟨fun j => Table.poll_loop WaitScript.boundsInterrupts s j,
    fun pid => Table.reap_loop WaitScript.boundsInterrupts s pid, ?_⟩
  intro pid opts blocking σ
  rw [waitFor_run]
  exact System.await_loop s pid blocking

/-- A wait of the shell for 7 that is interrupted, then told about 9, then told that 7
exited. -/
theorem wait_retries_end_on_untraced_wait :
    let s : WaitScript :=
      { queues := [(7, [{ err := some .intr }, { pid := some 9 }, { status := .ofExit 3 }])] }
    let σ := Session.start Settings.builtin [] { nodes := [([], .dir)] } [] "" .frozen []
    WaitOptions.untraced &&& WaitOptions.noHang = 0 ∧
      ∃ n ≤ (s.queueOf 7).length + 1,
        RetryLoop (System.wait · 7 WaitOptions.untraced) (WaitReply.blockingOutcome 7) n
          (.scripted s)
          ((ShellM.waitFor 7 WaitOptions.untraced).run (σ.withSystem (.scripted s))).1
          ((ShellM.waitFor 7 WaitOptions.untraced).run
            (σ.withSystem (.scripted s))).2.world.system := by
  intro s σ
  exact ⟨by decide, (wait_retries_end s).2.2 7 WaitOptions.untraced (by decide) σ⟩

end JobShell

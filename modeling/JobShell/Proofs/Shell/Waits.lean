import JobShell.Shell.Exec
import JobShell.Proofs.Jobs.Reaping

/-!
# Waits that answer as `wait4` does

`wait4` reports to a wait a stop, an exit or a kill (a *settled* status), or a continue, and the
continue only to a wait that asked for continues (`WaitStatus.Reportable`). A blocking wait that
asks for stops but not for continues therefore gets a settled status.

A live host answers so by construction while every status it holds back is settled: settled
children stay settled under every wait, every signal the shell sends (`Procs.Settled.signal`) and
every child it starts, since a script ends in an exit, a kill or a stop (`stageState_settled`).
A scripted host pops its replies whatever the wait asked, so whether it answers as `wait4` does
depends on the waits it gets: it does for a list of calls when every reply it gives them is one
`wait4` could give (`WaitScript.AnswersAsWait4`).

A run's waits are known only once it has ended, so a system is judged against the list `F` of
calls a run makes in the end: it is on track while its log of calls is a prefix of `F`
(`System.OnTrack`), and answers as `wait4` does when the calls of `F` still to come get such
replies (`System.Wait4`). A wait on track keeps the system answering so and gets a reportable
reply (`System.Wait4.wait`); `System.Follows` packs this up for any stretch of waits, signals and
launches, and a reconciliation is such a stretch (`Table.reconcileFilled_kept`).
-/
namespace JobShell

namespace WaitStatus

/-- A status that a blocking wait asking for stops can give: a stop, an exit or a kill. -/
def Settled (w : WaitStatus) : Prop := w.stopped = true ∨ w.ended = true

theorem ofInt_raw_toNat (n : Int) (low : 0 ≤ n) (high : n < 4294967296) :
    (ofInt n).raw.toNat = n.toNat := by
  simp only [ofInt, UInt32.toNat_ofNat']
  omega

theorem low7_eq (w : WaitStatus) : w.low7 = w.raw.toNat % 128 := by
  simp only [low7, UInt32.toNat_and]
  exact Nat.and_two_pow_sub_one_eq_mod _ 7

theorem lowByte_eq (w : WaitStatus) : (w.raw &&& 0xff).toNat = w.raw.toNat % 256 := by
  simp only [UInt32.toNat_and]
  exact Nat.and_two_pow_sub_one_eq_mod _ 8

theorem ofExit_ended (code : Int) : (ofExit code).ended = true := by
  have raw := ofInt_raw_toNat ((code % 256) * 256) (by omega) (by omega)
  simp only [ended, exited, ofExit, low7_eq, raw, Bool.or_eq_true, beq_iff_eq]
  left
  omega

theorem ofStop_stopped (s : Int) : (ofStop s).stopped = true := by
  have raw := ofInt_raw_toNat (0x7f + (s % 256) * 256) (by omega) (by omega)
  simp only [stopped, ofStop, lowByte_eq, raw, beq_iff_eq]
  omega

/-- A kill by a signal whose low seven bits are all ones reads as a stop; every other one
reads as an exit or a kill. -/
theorem ofSignal_settled (s : Int) : (ofSignal s).Settled := by
  have raw := ofInt_raw_toNat (s % 128) (by omega) (by omega)
  unfold Settled
  simp only [stopped, ended, exited, signaled, ofSignal, low7_eq, lowByte_eq, raw]
  by_cases top : s % 128 = 127
  · left
    simp only [beq_iff_eq]
    omega
  · right
    simp only [Bool.or_eq_true, beq_iff_eq, Bool.and_eq_true, bne_iff_ne, ne_eq]
    omega

theorem ofExit_settled (code : Int) : (ofExit code).Settled := .inr (ofExit_ended code)

theorem ofStop_settled (s : Int) : (ofStop s).Settled := .inl (ofStop_stopped s)

/-- "Nothing yet" carries the status word zero, which reads as an exit. -/
theorem nothing_settled : WaitReply.nothing.status.Settled := .inr rfl

/-- A settled status that is no stop is an exit or a kill. -/
theorem Settled.ended_of_not_stopped {w : WaitStatus} (settled : w.Settled)
    (running : w.stopped = false) : w.ended = true := by
  rcases settled with stop | ended
  · rw [stop] at running
    cases running
  · exact ended

end WaitStatus

namespace Host

/-- A child whose pending status is settled. -/
def ProcState.Settled : ProcState → Prop
  | .held ws _ => ws.Settled
  | .zombie ws => ws.Settled
  | .stopped _ _ _ => True
  | .reaped => True

/-- The state a script's end leaves a stage in is settled. -/
theorem stageState_settled (e : ShEnd) (upstream : Option Int) (reads : Bool) :
    (stageState e upstream reads).Settled := by
  cases e with
  | exited code =>
    simp only [stageState]
    split
    · split
      · exact WaitStatus.ofExit_settled code
      · exact WaitStatus.ofExit_settled code
    · exact WaitStatus.ofExit_settled code
  | killed sig =>
    simp only [stageState]
    split
    · split
      · exact WaitStatus.ofSignal_settled sig
      · exact WaitStatus.ofSignal_settled sig
    · exact WaitStatus.ofSignal_settled sig
  | stopped sig rest => trivial

namespace Procs

/-- Every child's pending status is settled. -/
def Settled (ps : Procs) : Prop := ∀ p ∈ ps.procs, p.state.Settled

variable {ps : Procs}

theorem Settled.find? (settled : ps.Settled) {pid : Int} {p : Proc}
    (found : ps.find? pid = some p) : p.state.Settled :=
  settled p (List.mem_of_find?_eq_some found)

theorem Settled.setState (settled : ps.Settled) (pid : Int) {st : ProcState}
    (st_settled : st.Settled) : (ps.setState pid st).Settled := by
  intro p member
  simp only [Procs.setState, List.mem_map] at member
  obtain ⟨q, q_mem, rfl⟩ := member
  split
  · exact st_settled
  · exact settled q q_mem

theorem Settled.add (settled : ps.Settled) {p : Proc} (p_settled : p.state.Settled) :
    (ps.add p).Settled := by
  intro q member
  simp only [Procs.add, List.mem_append, List.mem_singleton] at member
  rcases member with old | rfl
  · exact settled q old
  · exact p_settled

theorem Settled.fresh (settled : ps.Settled) : ps.fresh.2.Settled := settled

/-- Ending the children held back on a stage hands on their own statuses. -/
theorem Settled.finish_go (n : Nat) (up : Int) (settled : ps.Settled) :
    (finish.go n ps up).Settled := by
  induction n generalizing ps up with
  | zero => exact settled
  | succ n ih =>
    unfold finish.go
    split
    · rename_i p found
      split
      · rename_i ws u state
        have held : (ProcState.held ws u).Settled :=
          state ▸ settled p (List.mem_of_find?_eq_some found)
        exact ih _ (settled.setState _ held)
      · exact settled
    · exact settled

theorem Settled.finish (settled : ps.Settled) (pid : Int) {ws : WaitStatus}
    (ws_settled : ws.Settled) : (ps.finish pid ws).Settled :=
  Settled.finish_go _ pid (settled.setState pid ws_settled)

theorem Settled.ended (settled : ps.Settled) (pid : Int) (e : ShEnd) :
    (ps.ended pid e).Settled := by
  cases e with
  | exited code => exact settled.finish pid (WaitStatus.ofExit_settled code)
  | killed sig => exact settled.finish pid (WaitStatus.ofSignal_settled sig)
  | stopped sig rest => exact settled.setState pid trivial

theorem Settled.deliver (settled : ps.Settled) (h : Host) (p : Proc) (sig : Nat) :
    (ps.deliver h p sig).1.Settled := by
  unfold Procs.deliver
  split
  · exact settled.ended _ _
  · exact settled.finish _ (WaitStatus.ofSignal_settled _)
  · exact settled

/-- A fold whose every step keeps the children settled keeps them settled. -/
theorem Settled.foldl {α : Type} {step : Procs × Host → α → Procs × Host}
    (keeps : ∀ acc a, acc.1.Settled → (step acc a).1.Settled) (l : List α) {acc : Procs × Host}
    (settled : acc.1.Settled) : (l.foldl step acc).1.Settled := by
  induction l generalizing acc with
  | nil => exact settled
  | cons a rest ih => exact ih (keeps acc a settled)

theorem Settled.signal (settled : ps.Settled) (h : Host) (target : Int) (sig : Nat) :
    (ps.signal h target sig).2.1.Settled := by
  unfold Procs.signal
  dsimp only
  generalize ps.procs.filter _ = targets
  split
  · exact settled
  · -- each delivery starts from the children the one before left
    refine Settled.foldl (fun acc p kept => ?_) targets settled
    split
    · exact kept.deliver _ _ _
    · exact kept

/-- A wait on a settled set of children keeps it settled, and whatever it reports without an
error is settled. -/
theorem Settled.wait (settled : ps.Settled) (pid : Int) (opts : Nat) :
    (ps.wait pid opts).2.Settled ∧
      ((ps.wait pid opts).1.err = none → (ps.wait pid opts).1.status.Settled) := by
  have block : ∀ r : WaitReply,
      r = (if opts &&& WaitOptions.noHang != 0 then WaitReply.nothing else WaitReply.failure .child) →
        r.err = none → r.status.Settled := by
    intro r is_block no_error
    split at is_block
    · exact is_block ▸ WaitStatus.nothing_settled
    · rw [is_block] at no_error
      cases no_error
  simp only [Procs.wait]
  cases found : ps.find? pid with
  | none => exact ⟨settled, fun no_error => by cases no_error⟩
  | some p =>
    have p_settled := settled.find? found
    dsimp only
    cases state : p.state with
    | reaped => exact ⟨settled, fun no_error => by cases no_error⟩
    | zombie ws =>
      rw [state] at p_settled
      exact ⟨settled.setState _ trivial, fun _ => p_settled⟩
    | stopped sig reported rest =>
      cases reported with
      | false =>
        dsimp only
        split
        · exact ⟨settled.setState _ trivial, fun _ => WaitStatus.ofStop_settled _⟩
        · exact ⟨settled, block _ rfl⟩
      | true => exact ⟨settled, block _ rfl⟩
    | held ws up => exact ⟨settled, block _ rfl⟩

end Procs

end Host

/-! ## Replies a wait can get -/

/-- A status `wait4` can report to a wait with the options `opts`: a stop, an exit or a kill,
or a continue when the wait asked for continues. -/
def WaitStatus.Reportable (opts : Nat) (w : WaitStatus) : Prop :=
  w.Settled ∨ w.continued = true ∧ opts &&& WaitOptions.continued ≠ 0

/-- To a wait that does not ask for continues, `wait4` reports only settled statuses. -/
theorem WaitStatus.Reportable.settled {opts : Nat} {w : WaitStatus} (reportable : w.Reportable opts)
    (stops_only : opts &&& WaitOptions.continued = 0) : w.Settled :=
  reportable.resolve_right fun asked => asked.2 stops_only

/-- A reply `wait4` can give to a wait with the options `opts`: an error, or a status it can
report. -/
def WaitReply.Reportable (opts : Nat) (r : WaitReply) : Prop :=
  r.err = none → r.status.Reportable opts

/-! ## Scripts that answer as `wait4` does -/

namespace WaitScript

theorem answer_calls (s : WaitScript) (pid : Int) (opts : Nat) :
    (s.answer pid opts).2.calls = s.calls.push (pid, opts) := by
  unfold answer
  dsimp only
  split
  · split
    · rfl
    · dsimp only
      split <;> rfl
  · split <;> rfl

/-- What a script answers, and the queues and gone pids it leaves, depend on its queues and
gone pids alone. -/
theorem answer_congr {s s' : WaitScript} (queues : s.queues = s'.queues) (gone : s.gone = s'.gone)
    (pid : Int) (opts : Nat) :
    (s.answer pid opts).1 = (s'.answer pid opts).1 ∧
      (s.answer pid opts).2.queues = (s'.answer pid opts).2.queues ∧
      (s.answer pid opts).2.gone = (s'.answer pid opts).2.gone := by
  obtain ⟨q, g, c, l, e, sg⟩ := s
  obtain ⟨q', g', c', l', e', sg'⟩ := s'
  dsimp only at queues gone
  subst queues gone
  simp only [answer, queueOf, setQueue]
  split
  · rename_i entry rest _
    split
    · exact ⟨rfl, rfl, rfl⟩
    · by_cases reports : (entry.pid.getD pid == pid && entry.status.ended && !g.contains pid) = true
      · simp only [reports, if_true, and_self]
      · simp only [reports, Bool.false_eq_true, if_false, and_self]
  · split <;> exact ⟨rfl, rfl, rfl⟩

/-- The replies a script gives to the calls in turn, each with the options of its call. -/
def replies (s : WaitScript) : List (Int × Nat) → List (Nat × WaitReply)
  | [] => []
  | c :: rest => (c.2, (s.answer c.1 c.2).1) :: (s.answer c.1 c.2).2.replies rest

theorem replies_congr {s s' : WaitScript} (queues : s.queues = s'.queues) (gone : s.gone = s'.gone)
    (calls : List (Int × Nat)) : s.replies calls = s'.replies calls := by
  induction calls generalizing s s' with
  | nil => rfl
  | cons c rest ih =>
    obtain ⟨reply, queues', gone'⟩ := answer_congr queues gone c.1 c.2
    simp only [replies, reply, ih queues' gone']

/-- The script answers the calls, in turn, as `wait4` could. -/
def AnswersAsWait4 (s : WaitScript) (calls : List (Int × Nat)) : Prop :=
  ∀ r ∈ s.replies calls, r.2.Reportable r.1

theorem answersAsWait4_cons {s : WaitScript} {c : Int × Nat} {rest : List (Int × Nat)} :
    s.AnswersAsWait4 (c :: rest) ↔
      (s.answer c.1 c.2).1.Reportable c.2 ∧ (s.answer c.1 c.2).2.AnswersAsWait4 rest := by
  simp only [AnswersAsWait4, replies, List.forall_mem_cons]

end WaitScript

/-! ## Systems along a run

The waits of a run are fixed only once it has ended, so what a system answers is judged against
the list of calls `F` the run makes in the end: a system is on track while the calls it has logged
are the first ones of `F`, and answers as `wait4` does when the calls of `F` it has still to answer
get replies `wait4` could give. A run on track at its end was on track all along, since the log only
grows. -/

namespace System

/-- The waits a system has logged: a scripted one logs each, the others none. -/
def calls : System → List (Int × Nat)
  | .scripted s => s.calls.toList
  | _ => []

/-- The waits the system has logged are the first of `F`. -/
def OnTrack (F : List (Int × Nat)) (sys : System) : Prop := sys.calls <+: F

/-- The system answers the calls of `F` past those it has logged as `wait4` does: a scripted
system by the replies its queues hold; a live host when every status it holds back is settled,
since it then reports only stops, exits and kills; a frozen one always, since it only ever says
"nothing yet". -/
def Wait4 (F : List (Int × Nat)) : System → Prop
  | .scripted s => s.AnswersAsWait4 (F.drop s.calls.size)
  | .frozen => True
  | .live ps => ps.Settled

/-- `sys'` comes from `sys` by waits, signals and requests to start processes: whenever `sys'`
is on track, so was `sys`, and if `sys` answered as `wait4` does, so does `sys'`. -/
def Follows (sys sys' : System) : Prop :=
  ∀ F, sys'.OnTrack F → sys.OnTrack F ∧ (sys.Wait4 F → sys'.Wait4 F)

theorem Follows.refl (sys : System) : sys.Follows sys := fun _ on => ⟨on, id⟩

theorem Follows.trans {s₁ s₂ s₃ : System} (first : s₁.Follows s₂) (second : s₂.Follows s₃) :
    s₁.Follows s₃ := fun F on =>
  have later := second F on
  have earlier := first F later.1
  ⟨earlier.1, later.2 ∘ earlier.2⟩

/-- A live host follows another when every settled status the one holds back leaves the other
settled. -/
theorem follows_live {ps ps' : Host.Procs} (kept : ps.Settled → ps'.Settled) :
    (System.live ps).Follows (.live ps') := fun _ on => ⟨on, kept⟩

/-- A scripted system with more launches used or more signals taken answers as it did. -/
theorem follows_scripted {s s' : WaitScript} (queues : s'.queues = s.queues)
    (gone : s'.gone = s.gone) (calls : s'.calls = s.calls) :
    (System.scripted s).Follows (.scripted s') := by
  intro F on
  change s'.calls.toList <+: F at on
  rw [calls] at on
  refine ⟨on, fun good => ?_⟩
  change s'.AnswersAsWait4 (F.drop s'.calls.size)
  unfold WaitScript.AnswersAsWait4
  rw [WaitScript.replies_congr queues gone, calls]
  exact good

theorem follows_launch (sys : System) : sys.Follows sys.launch.2 := by
  cases sys with
  | scripted s =>
    obtain ⟨queues, gone, calls, launches, pipeError, signals⟩ := s
    cases launches with
    | nil => exact .refl _
    | cons r rest => exact follows_scripted rfl rfl rfl
  | frozen => exact .refl _
  | live ps => exact .refl _

/-- A wait on track is answered as `wait4` does by a system that answers so, which goes on
answering so. -/
theorem Wait4.wait {F : List (Int × Nat)} {sys : System} (good : sys.Wait4 F) (pid : Int) (opts : Nat)
    (on : (sys.wait pid opts).2.OnTrack F) :
    (sys.wait pid opts).2.Wait4 F ∧ (sys.wait pid opts).1.Reportable opts := by
  cases sys with
  | scripted s =>
    change ((s.answer pid opts).2.calls.toList <+: F) at on
    change s.AnswersAsWait4 (F.drop s.calls.size) at good
    rw [WaitScript.answer_calls, Array.toList_push] at on
    -- the call is the next one of `F`
    obtain ⟨rest, rfl⟩ := on
    have next : (s.calls.toList ++ [(pid, opts)] ++ rest).drop s.calls.size = (pid, opts) :: rest := by
      simp
    have after : (s.calls.toList ++ [(pid, opts)] ++ rest).drop (s.calls.size + 1) = rest := by
      rw [List.append_assoc, List.singleton_append, ← Array.length_toList, List.drop_append]
      simp
    rw [next, WaitScript.answersAsWait4_cons] at good
    refine ⟨?_, good.1⟩
    change (s.answer pid opts).2.AnswersAsWait4 (List.drop (s.answer pid opts).2.calls.size _)
    rw [WaitScript.answer_calls, Array.size_push, after]
    exact good.2
  | frozen => exact ⟨trivial, fun _ => .inl WaitStatus.nothing_settled⟩
  | live ps =>
    have kept := Host.Procs.Settled.wait good pid opts
    exact ⟨kept.1, fun no_error => .inl (kept.2 no_error)⟩

theorem follows_wait (sys : System) (pid : Int) (opts : Nat) : sys.Follows (sys.wait pid opts).2 := by
  intro F on
  refine ⟨?_, fun good => (good.wait pid opts on).1⟩
  cases sys with
  | scripted s =>
    change ((s.answer pid opts).2.calls.toList <+: F) at on
    rw [WaitScript.answer_calls, Array.toList_push] at on
    exact (List.prefix_append _ _).trans on
  | frozen => exact on
  | live ps => exact on

end System

namespace Table

section Kept

variable {σ : Type} [Waiter σ] {Good : σ → Prop}
  (keeps : ∀ w pid opts, Good w → Good (Waiter.wait w pid opts).2)
include keeps

theorem waitPastInterrupts_kept {w : σ} (good : Good w) (pid : Int) (opts : Nat) :
    Good (waitPastInterrupts w pid opts).2 := by
  unfold waitPastInterrupts
  -- each retry waits once more from the waiter the last one left
  generalize Waiter.interruptBound w pid + 1 = n
  induction n generalizing w with
  | zero => exact keeps w pid opts good
  | succ n ih =>
    simp only [waitPastInterrupts.go]
    split
    · exact ih (keeps w pid opts good)
    · exact keeps w pid opts good

theorem reap_kept {w : σ} (good : Good w) (pid : Int) : Good (reap w pid).2 := by
  rw [reap_snd]
  exact waitPastInterrupts_kept keeps good pid _

theorem poll_kept {w : σ} (good : Good w) (j : Job) : Good (poll w j).2.2 := by
  rw [poll_eq]
  exact waitPastInterrupts_kept keeps good j.pid _

theorem foldl_reapStraggler_kept (pids : List Int) {j : Job} {w : σ} (good : Good w) :
    Good (pids.foldl reapStraggler (j, w)).2 := by
  induction pids generalizing j w with
  | nil => exact good
  | cons pid rest ih =>
    rw [List.foldl_cons]
    exact ih (reap_kept keeps good pid)

theorem refresh_kept {w : σ} (good : Good w) (j : Job) : Good (refresh w j).2.2 := by
  rw [refresh_eq]
  split
  · exact good
  · exact poll_kept keeps (foldl_reapStraggler_kept keeps _ good) _

theorem refreshFilled_kept (slots : List (Option Job)) {w : σ} (good : Good w) :
    Good (refreshFilled w slots).2.2 := by
  induction slots generalizing w with
  | nil => exact good
  | cons slot rest ih =>
    cases slot with
    | none => exact ih good
    | some j => exact ih (refresh_kept keeps good j)

theorem reapAll_kept (pids : List Int) {w : σ} (good : Good w) : Good (reapAll w pids).2 := by
  induction pids generalizing w with
  | nil => exact good
  | cons pid rest ih => exact ih (reap_kept keeps good pid)

/-- A property of the waiter that every wait keeps is kept by a whole reconciliation. -/
theorem reconcileFilled_kept (t : Table) {w : σ} (good : Good w) : Good (t.reconcileFilled w).2.2 :=
  reapAll_kept keeps _ (refreshFilled_kept keeps _ good)

end Kept

end Table

end JobShell

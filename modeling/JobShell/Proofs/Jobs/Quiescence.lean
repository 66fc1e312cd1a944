import JobShell.Proofs.Jobs.Reconciliation

/-!
# Reconciling again when nothing is pending

A reconciliation waits, without blocking, on every pid it is pending on (`Table.pending`): the
pid and the other stages of every job not Done, and the untracked pids. With a scripted waiter,
a pid that has nothing queued and was never reported gone is answered "nothing yet"
(`WaitScript.Quiet`), which changes no job and keeps the pid. So a reconciliation of a table
whose every pending pid is quiet reports no job and leaves the table as it was
(`Table.reconcile_quiet`).

After a first reconciliation, a pid the table is still pending on is quiet as soon as its queue
is empty. It was waited on in that run (`Table.reconcileFilled_logged`). The script marks a pid
gone only on a reply that reports it gone, which drops it from the table; and a pid gone from
the start, with nothing queued, is answered "no such child" the first time it is asked about,
which drops it too (`UnaskedOrGone`). Hence reconciling twice with nothing queued in between is
the same as reconciling once (`Table.reconcile_twice`), provided no recorded pid is shared and
no pid gone to begin with has replies queued. Nor may a recorded pid be 0, which names no
process: the table reads a reply about it as "nothing yet", while the script marks it gone and
answers the next wait "no such child" (`Table.reconcile_twice_drops_untracked_zero`).
-/
namespace JobShell

namespace WaitScript

/-- A pid the script has nothing more to say about: no reply queued and not gone, so a wait
that does not block is answered "nothing yet". -/
def Quiet (s : WaitScript) (p : Int) : Prop := p ∉ s.gone ∧ s.queueOf p = []

/-- Two scripts that answer alike: the same queues and the same gone pids; only the calls they
logged may differ. -/
def SameReplies (s s' : WaitScript) : Prop := s'.queues = s.queues ∧ s'.gone = s.gone

namespace SameReplies

theorem refl (s : WaitScript) : SameReplies s s := ⟨rfl, rfl⟩

theorem trans {s₁ s₂ s₃ : WaitScript} (first : SameReplies s₁ s₂) (second : SameReplies s₂ s₃) :
    SameReplies s₁ s₃ :=
  ⟨second.1.trans first.1, second.2.trans first.2⟩

theorem quiet {s s' : WaitScript} {p : Int} (same : SameReplies s s') (quiet : s.Quiet p) :
    s'.Quiet p := by
  unfold Quiet queueOf at *
  rw [same.1, same.2]
  exact quiet

end SameReplies

/-- A wait that does not block, on a quiet pid: "nothing yet", and only the call is logged. -/
theorem answer_quiet {s : WaitScript} {p : Int} {opts : Nat} (quiet : s.Quiet p)
    (noHang : opts &&& WaitOptions.noHang ≠ 0) :
    s.answer p opts = (WaitReply.nothing, { s with calls := s.calls.push (p, opts) }) := by
  have logged : ({ s with calls := s.calls.push (p, opts) } : WaitScript).queueOf p =
      s.queueOf p := rfl
  unfold answer
  dsimp only
  rw [logged, quiet.2]
  simp [quiet.1, noHang]

/-- The script marks a pid gone only when a reply reports that pid's own exit or death. -/
theorem answer_gone {s : WaitScript} {p q : Int} {opts : Nat}
    (marked : q ∈ (s.answer p opts).2.gone) :
    q ∈ s.gone ∨ (q = p ∧ (s.answer p opts).1.err = none ∧ (s.answer p opts).1.pid = p ∧
      (s.answer p opts).1.status.ended = true) := by
  have logged : ({ s with calls := s.calls.push (p, opts) } : WaitScript).queueOf p =
      s.queueOf p := rfl
  unfold answer at marked ⊢
  dsimp only at marked ⊢
  rw [logged] at marked ⊢
  cases queued : s.queueOf p with
  | nil =>
    simp only [queued] at marked
    split at marked <;> exact .inl marked
  | cons e rest =>
    simp only [queued] at marked ⊢
    cases fails : e.err with
    | some err =>
      simp only [fails] at marked
      exact .inl marked
    | none =>
      simp only [fails] at marked ⊢
      -- the only pid that can be added is the one asked about, on its own exit or death
      split at marked
      · rename_i reports
        simp only [Bool.and_eq_true, beq_iff_eq] at reports
        rcases List.mem_cons.mp marked with rfl | earlier
        · exact .inr ⟨rfl, trivial, reports.1.1, reports.1.2⟩
        · exact .inl earlier
      · exact .inl marked

/-- Rewriting one pid's queue leaves the queue of every other pid. -/
theorem queueOf_setQueue_of_ne (s : WaitScript) {p q : Int} (rest : List WaitEntry)
    (other : q ≠ p) : (s.setQueue p rest).queueOf q = s.queueOf q := by
  have skips : ((p, rest).1 == q) = false := beq_false_of_ne (Ne.symm other)
  -- past the new head, the filter only removes entries of `p`, which a search for `q` skips
  have same_test :
      (fun e : Int × List WaitEntry => decide ((e.1 != p) = true ∧ (e.1 == q) = true)) =
        (·.1 == q) := by
    funext e
    by_cases asked : e.1 = q
    · simp [asked, other]
    · simp [asked]
  unfold queueOf setQueue
  rw [List.find?_cons_of_neg (by simp only [skips]; decide), List.find?_filter, same_test]

/-- A wait for one pid leaves the queue of every other pid. -/
theorem queueOf_answer_of_ne {s : WaitScript} {p q : Int} {opts : Nat} (other : q ≠ p) :
    (s.answer p opts).2.queueOf q = s.queueOf q := by
  have logged : ({ s with calls := s.calls.push (p, opts) } : WaitScript).queueOf q =
      s.queueOf q := rfl
  unfold answer
  dsimp only
  split
  · split
    · rw [queueOf_setQueue_of_ne _ _ other, logged]
    · split
      · exact (queueOf_setQueue_of_ne _ _ other).trans logged
      · rw [queueOf_setQueue_of_ne _ _ other, logged]
  · split <;> exact logged

/-- A pid once gone stays gone. -/
theorem gone_answer {s : WaitScript} {p q : Int} {opts : Nat} (gone : q ∈ s.gone) :
    q ∈ (s.answer p opts).2.gone := by
  unfold answer
  dsimp only
  split
  · split
    · exact gone
    · split
      · exact List.mem_cons_of_mem _ gone
      · exact gone
  · split <;> exact gone

/-- A wait for a pid that is gone with nothing queued finds no such child. -/
theorem answer_of_gone {s : WaitScript} {p : Int} {opts : Nat} (gone : p ∈ s.gone)
    (empty : s.queueOf p = []) : (s.answer p opts).1 = WaitReply.failure .child := by
  have logged : ({ s with calls := s.calls.push (p, opts) } : WaitScript).queueOf p =
      s.queueOf p := rfl
  unfold answer
  dsimp only
  rw [logged, empty]
  simp [gone]

end WaitScript

open WaitScript

namespace Table

theorem waitPastInterrupts_quiet {s : WaitScript} {p : Int} (quiet : s.Quiet p) (opts : Nat)
    (noHang : opts &&& WaitOptions.noHang ≠ 0) :
    (waitPastInterrupts s p opts).1 = WaitReply.nothing ∧
      SameReplies s (waitPastInterrupts s p opts).2 := by
  -- nothing queued: the bound is zero and the one wait is answered at once
  have bound : Waiter.interruptBound s p = 0 := by
    change (s.queueOf p).length = 0
    rw [quiet.2, List.length_nil]
  have answered : Waiter.wait s p opts = s.answer p opts := rfl
  unfold waitPastInterrupts
  rw [bound]
  simp only [waitPastInterrupts.go, answered, answer_quiet quiet noHang]
  exact ⟨rfl, rfl, rfl⟩

theorem reap_quiet {s : WaitScript} {p : Int} (quiet : s.Quiet p) :
    (reap s p).1 = false ∧ SameReplies s (reap s p).2 := by
  obtain ⟨nothing, same⟩ := waitPastInterrupts_quiet quiet WaitOptions.noHang (by decide)
  have settled : (waitPastInterrupts s p WaitOptions.noHang).1.interrupted = false := by
    rw [nothing]
    rfl
  refine ⟨?_, by rw [reap_snd]; exact same⟩
  rw [reap_fst settled, nothing]
  rfl

theorem poll_quiet {s : WaitScript} {j : Job} (quiet : s.Quiet j.pid) :
    (poll s j).1 = false ∧ (poll s j).2.1 = j ∧ SameReplies s (poll s j).2.2 := by
  obtain ⟨nothing, same⟩ := waitPastInterrupts_quiet quiet WaitOptions.poll (by decide)
  rw [poll_eq, nothing]
  exact ⟨rfl, rfl, same⟩

theorem foldl_reapStraggler_quiet :
    ∀ (S : List Int) (j : Job) (s : WaitScript), (∀ p ∈ S, s.Quiet p) →
      (S.foldl reapStraggler (j, s)).1 = j ∧ SameReplies s (S.foldl reapStraggler (j, s)).2
  | [], _, s, _ => ⟨rfl, SameReplies.refl s⟩
  | p :: rest, j, s, quiet => by
    obtain ⟨kept, same⟩ := reap_quiet (quiet p List.mem_cons_self)
    have step : reapStraggler (j, s) p = (j, (reap s p).2) := by
      simp [reapStraggler, kept]
    rw [List.foldl_cons, step]
    obtain ⟨unchanged, later⟩ := foldl_reapStraggler_quiet rest j (reap s p).2
      fun q member => same.quiet (quiet q (List.mem_cons_of_mem p member))
    exact ⟨unchanged, same.trans later⟩

theorem refresh_quiet {s : WaitScript} {j : Job} (quiet : ∀ p ∈ slotPending (some j), s.Quiet p) :
    (refresh s j).1 = false ∧ (refresh s j).2.1 = j ∧ SameReplies s (refresh s j).2.2 := by
  rw [refresh_eq]
  by_cases done : j.status = .done
  · rw [if_pos (by simp [done])]
    exact ⟨rfl, rfl, SameReplies.refl s⟩
  · have running : (j.status == .done) = false := by simpa using done
    rw [running, if_neg Bool.false_ne_true]
    have waited : ∀ p ∈ slotRecorded (some j), s.Quiet p :=
      fun p member => quiet p (by simpa [slotPending, done] using member)
    have tracked : s.Quiet j.pid := waited j.pid (by simp [slotRecorded, done])
    obtain ⟨unchanged, same⟩ := foldl_reapStraggler_quiet j.stragglers j s
      fun p member => waited p (by simp [slotRecorded, member])
    rw [unchanged]
    obtain ⟨quietPoll, kept, later⟩ := poll_quiet (same.quiet tracked)
    exact ⟨quietPoll, kept, same.trans later⟩

theorem refreshFilled_quiet :
    ∀ (slots : List (Option Job)) (s : WaitScript), (∀ p ∈ slots.flatMap slotPending, s.Quiet p) →
      (refreshFilled s slots).1 = [] ∧ (refreshFilled s slots).2.1 = slots ∧
        SameReplies s (refreshFilled s slots).2.2
  | [], s, _ => ⟨rfl, rfl, SameReplies.refl s⟩
  | none :: rest, s, quiet => by
    obtain ⟨none_changed, kept, same⟩ := refreshFilled_quiet rest s
      fun p member => quiet p (by simpa [slotPending] using member)
    simp only [refreshFilled]
    generalize refreshFilled s rest = result at none_changed kept same ⊢
    obtain ⟨ids, slots', s'⟩ := result
    dsimp only at none_changed kept same ⊢
    subst none_changed kept
    exact ⟨rfl, rfl, same⟩
  | some j :: rest, s, quiet => by
    have own : ∀ p ∈ slotPending (some j), s.Quiet p :=
      fun p member => quiet p (List.mem_flatMap.mpr ⟨some j, List.mem_cons_self, member⟩)
    obtain ⟨unchanged, kept, same⟩ := refresh_quiet own
    simp only [refreshFilled]
    generalize refresh s j = result at unchanged kept same ⊢
    obtain ⟨changed, J, s'⟩ := result
    dsimp only at unchanged kept same ⊢
    subst unchanged kept
    obtain ⟨none_changed, kept_rest, later⟩ := refreshFilled_quiet rest s'
      fun p member => same.quiet (quiet p (by
        rw [List.flatMap_cons]
        exact List.mem_append_right _ member))
    generalize refreshFilled s' rest = result at none_changed kept_rest later ⊢
    obtain ⟨ids, slots', s''⟩ := result
    dsimp only at none_changed kept_rest later ⊢
    subst none_changed kept_rest
    exact ⟨rfl, rfl, same.trans later⟩

theorem reapAll_quiet :
    ∀ (pids : List Int) (s : WaitScript), (∀ p ∈ pids, s.Quiet p) →
      (reapAll s pids).1 = pids ∧ SameReplies s (reapAll s pids).2
  | [], s, _ => ⟨rfl, SameReplies.refl s⟩
  | p :: rest, s, quiet => by
    obtain ⟨kept, same⟩ := reap_quiet (quiet p List.mem_cons_self)
    simp only [reapAll]
    generalize reap s p = verdict at kept same ⊢
    obtain ⟨gone, s'⟩ := verdict
    dsimp only at kept same ⊢
    subst kept
    obtain ⟨kept_rest, later⟩ := reapAll_quiet rest s'
      fun q member => same.quiet (quiet q (List.mem_cons_of_mem p member))
    generalize reapAll s' rest = result at kept_rest later ⊢
    obtain ⟨pids', s''⟩ := result
    dsimp only at kept_rest later ⊢
    subst kept_rest
    exact ⟨rfl, same.trans later⟩

/-- A reconciliation of a table with a job in every slot and whose every pending pid is quiet
reports no job and leaves the table as it was. -/
theorem reconcile_quiet (t : Table) (s : WaitScript) (filled : ∀ x ∈ t.slots, x.isSome)
    (quiet : ∀ p ∈ t.pending, s.Quiet p) : ∃ s', t.reconcile s = .ok ([], t, s') := by
  obtain ⟨none_changed, kept, same⟩ := refreshFilled_quiet t.slots s
    fun p member => quiet p (List.mem_append_left _ member)
  rw [reconcile_eq_ok filled]
  simp only [reconcileFilled]
  generalize refreshFilled s t.slots = result at none_changed kept same ⊢
  obtain ⟨ids, slots', s'⟩ := result
  dsimp only at none_changed kept same ⊢
  subst none_changed kept
  obtain ⟨kept_untracked, -⟩ := reapAll_quiet t.untracked s'
    fun p member => same.quiet (quiet p (List.mem_append_right _ member))
  generalize reapAll s' t.untracked = result at kept_untracked ⊢
  obtain ⟨untracked', s''⟩ := result
  dsimp only at kept_untracked ⊢
  subst kept_untracked
  exact ⟨s'', rfl⟩

/-- Every pid other than 0 that the script behind a log marks gone was gone in `s₀` already or
was reported gone by a wait of the log. -/
def GoneLogged (s₀ : WaitScript) (l : Logged WaitScript) : Prop :=
  ∀ q ∈ l.inner.gone, q ≠ 0 → q ∈ s₀.gone ∨ Waited.goneIn l.log q = true

/-- Each wait keeps `GoneLogged`: the script marks a pid gone only on a reply that reports it. -/
theorem GoneLogged.wait {s₀ : WaitScript} {l : Logged WaitScript} (logged : GoneLogged s₀ l)
    (p : Int) (opts : Nat) : GoneLogged s₀ (Waiter.wait l p opts).2 := by
  intro q marked nonzero
  change q ∈ (l.inner.answer p opts).2.gone at marked
  change q ∈ s₀.gone ∨ Waited.goneIn (l.log ++ [⟨p, (l.inner.answer p opts).1, true⟩]) q = true
  rcases answer_gone marked with earlier | ⟨rfl, fine, own, ended⟩
  · exact (logged q earlier nonzero).imp_right fun gone => by simp [gone]
  · have reports : (l.inner.answer q opts).1.reportsGone = true := by
      simp [WaitReply.reportsGone, fine, own, ended, nonzero]
    exact .inr (by simp [Waited.goneIn, reports])

/-- A pid gone with nothing queued, as the script starts, stays so until a wait asks about it;
the first wait that does finds no such child, which reports it gone. -/
def UnaskedOrGone (q : Int) (l : Logged WaitScript) : Prop :=
  (q ∈ l.inner.gone ∧ l.inner.queueOf q = [] ∧ ∀ e ∈ l.log, e.pid ≠ q) ∨
    Waited.goneIn l.log q = true

theorem UnaskedOrGone.wait {q : Int} {l : Logged WaitScript} (holds : UnaskedOrGone q l)
    (p : Int) (opts : Nat) : UnaskedOrGone q (Waiter.wait l p opts).2 := by
  change (q ∈ (l.inner.answer p opts).2.gone ∧ (l.inner.answer p opts).2.queueOf q = [] ∧
      ∀ e ∈ l.log ++ [⟨p, (l.inner.answer p opts).1, true⟩], e.pid ≠ q) ∨
    Waited.goneIn (l.log ++ [⟨p, (l.inner.answer p opts).1, true⟩]) q = true
  rcases holds with ⟨gone, empty, unasked⟩ | reported
  · by_cases asked : p = q
    · -- the first wait on it finds no such child
      subst asked
      have reply : (l.inner.answer p opts).1 = WaitReply.failure .child :=
        answer_of_gone gone empty
      refine .inr ?_
      simp [Waited.goneIn, reply, WaitReply.failure, WaitReply.reportsGone]
    · refine .inl ⟨gone_answer gone, by rw [queueOf_answer_of_ne (Ne.symm asked), empty], ?_⟩
      intro e member
      rcases List.mem_append.mp member with old | fresh
      · exact unasked e old
      · rw [List.mem_singleton.mp fresh]
        exact asked
  · exact .inr (by simp [reported])

/-- Reconciling once more changes nothing when nothing is pending. Take a first reconciliation
that returns, of a table whose recorded pids are distinct and not 0, against a script that has
no reply queued for a pid it already reports gone; when afterwards no reply is queued for the
pids the table still records, a second reconciliation returns, reports no job and leaves the
table exactly as the first left it. -/
theorem reconcile_twice {t t₁ : Table} {s s₁ : WaitScript} {ids : List Int}
    (nodup : t.recorded.Nodup) (nonzero : ∀ p ∈ t.recorded, p ≠ 0)
    (settled : ∀ p ∈ s.gone, s.queueOf p = [])
    (first : t.reconcile s = .ok (ids, t₁, s₁))
    (drained : ∀ p ∈ t₁.recorded, s₁.queueOf p = []) :
    ∃ s₂, t₁.reconcile s₁ = .ok ([], t₁, s₂) := by
  obtain ⟨filled, ran⟩ := reconcile_eq_ok_iff.mp first
  have filled₁ : ∀ x ∈ t₁.slots, x.isSome := by
    have kept := filled_reconcile filled s
    rw [ran] at kept
    exact kept
  obtain ⟨new, logged_run, accounts, -, asked⟩ :=
    reconcileFilled_logged WaitScript.boundsInterrupts t s [] nodup
  rw [ran] at logged_run accounts asked
  -- what a property every wait keeps says of the script and log after the first run
  have after : ∀ Good : Logged WaitScript → Prop,
      (∀ (l : Logged WaitScript) (p : Int) (opts : Nat), Good l → Good (Waiter.wait l p opts).2) →
      Good ⟨s, []⟩ → Good ⟨s₁, new⟩ := by
    intro Good keeps start
    have kept := reconcileFilled_kept keeps t start
    rw [logged_run] at kept
    simpa using kept
  have marks : GoneLogged s ⟨s₁, new⟩ :=
    after _ (fun _ p opts logged => logged.wait p opts) fun q marked _ => .inl marked
  refine reconcile_quiet t₁ s₁ filled₁ fun p pending =>
    ⟨fun gone => ?_, drained p (pending_subset t₁ p pending)⟩
  have left : p ∈ t.recorded.filter fun p => !Waited.goneIn new p :=
    accounts.kept.mem_iff.mp (pending_subset t₁ p pending)
  rw [List.mem_filter, Bool.not_eq_true'] at left
  rcases marks p gone (nonzero p left.1) with earlier | reported
  · -- gone from the start with nothing queued: the first run asked about it and found no child
    have untouched : UnaskedOrGone p ⟨s₁, new⟩ :=
      after _ (fun _ q opts holds => holds.wait q opts)
        (.inl ⟨earlier, settled p earlier, fun e member => by cases member⟩)
    rcases untouched with ⟨-, -, unasked⟩ | reported
    · obtain ⟨e, member, same⟩ := asked p pending
      exact unasked e member same
    · rw [left.2] at reported
      cases reported
  · rw [left.2] at reported
    cases reported

/-- A first reconciliation that reaps a stage, stops one job and ends another after an
interruption, and drops an untracked pid that was gone from the start; the second reconciliation
finds nothing to do. -/
theorem reconcile_twice_after_gone :
    let t : Table := ⟨[some ⟨1, 10, 10, [9, 10], "a | b", .running, true, 0⟩,
      some ⟨2, 20, 20, [20], "c", .running, true, 0⟩], true, 2, 64, [30, 31]⟩
    let s : WaitScript :=
      { queues := [(9, [{ status := WaitStatus.ofExit 0 }]),
          (10, [{ status := WaitStatus.ofStop 19 }]),
          (20, [{ err := some .intr }, { status := WaitStatus.ofExit 3 }]),
          (31, [{ pid := some 0 }])]
        gone := [30] }
    let t₁ : Table := ⟨[some ⟨1, 10, 10, [10], "a | b", .stopped, true, 0⟩,
      some ⟨2, 20, 20, [], "c", .done, true, 3⟩], true, 2, 64, [31]⟩
    let s₁ : WaitScript :=
      { queues := [(31, []), (20, []), (10, []), (9, [])]
        gone := [20, 9, 30]
        calls := #[(9, 1), (10, 11), (20, 11), (20, 11), (30, 1), (31, 1)] }
    (t.recorded.Nodup ∧ (∀ p ∈ t.recorded, p ≠ 0) ∧ (∀ p ∈ s.gone, s.queueOf p = []) ∧
      t.reconcile s = .ok ([1, 2], t₁, s₁) ∧ ∀ p ∈ t₁.recorded, s₁.queueOf p = []) ∧
    ∃ s₂, t₁.reconcile s₁ = .ok ([], t₁, s₂) := by
  intro t s t₁ s₁
  have nodup : t.recorded.Nodup := by decide
  have nonzero : ∀ p ∈ t.recorded, p ≠ 0 := by decide
  have settled : ∀ p ∈ s.gone, s.queueOf p = [] := by decide
  have first : t.reconcile s = .ok ([1, 2], t₁, s₁) := by dsimp only [t, s, t₁, s₁]; rfl
  have drained : ∀ p ∈ t₁.recorded, s₁.queueOf p = [] := by decide
  exact ⟨⟨nodup, nonzero, settled, first, drained⟩,
    reconcile_twice nodup nonzero settled first drained⟩

/-- A reply about pid 0 reads as "nothing yet" to the table but marks 0 gone in the script: an
untracked 0 survives a first reconciliation with nothing left queued, and the second drops it. -/
theorem reconcile_twice_drops_untracked_zero :
    let t : Table := { untracked := [0] }
    let s : WaitScript := { queues := [(0, [{ status := WaitStatus.ofExit 1 }])] }
    let s₁ : WaitScript := { queues := [(0, [])], gone := [0], calls := #[(0, 1)] }
    t.reconcile s = .ok ([], t, s₁) ∧ (∀ p ∈ t.recorded, s₁.queueOf p = []) ∧
      ∃ s₂, t.reconcile s₁ = .ok ([], { t with untracked := [] }, s₂) :=
  ⟨rfl, by decide, _, rfl⟩

end Table

end JobShell

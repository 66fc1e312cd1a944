import JobShell.Proofs.Shell.Triples

/-!
# How the shell waits for a pipeline

A pipeline that leaves the shell gets one process per stage, in one group led by the first.
A background pipeline becomes a Running job at once. The shell waits for a foreground one
stage by stage, and the outcomes of those waits decide everything: the last stage's status
is the pipeline's; the first stage that stops turns itself and the stages after it into a
Stopped job, and nothing later is waited for; a failed wait for the last stage leaves it to
later reconciliation as a Running job. When the table is full, the stages are continued and
left untracked instead.

A blocking wait as the shell makes it (`waitFor`) depends on the system alone, so the outcomes
of waiting for the stages in turn are read off the system (`System.await`,
`System.awaitEach`). What a run must leave is said by `Registers` for a background pipeline
and by `WaitsEnd` for a foreground one, each table change by `Adopts`; the main statement is
`execute_waits_by_stage`. It holds on every system: a live host that starts the stages itself,
and a system that answers from a script, which may interrupt a wait, fail it or report a stop
at any stage. `spawn_ok` says what a start that succeeds leaves on either.
-/
namespace JobShell

open ShellM

namespace System

/-- A blocking wait for `pid` as the shell makes it, on the system alone: an interrupted reply
and a reply about another process are asked again, within the system's bound. -/
def await (sys : System) (pid : Int) (opts : Nat) : Except Errno WaitStatus × System :=
  go (sys.replyBound pid + 1) sys
where
  go : Nat → System → Except Errno WaitStatus × System
    | 0, sys =>
      let answer := sys.wait pid opts
      (match answer.1.err with
        | some e => .error e
        | none => .ok answer.1.status, answer.2)
    | n + 1, sys =>
      let answer := sys.wait pid opts
      match answer.1.err with
      | some .intr => go n answer.2
      | some e => (.error e, answer.2)
      | none => if answer.1.pid == pid then (.ok answer.1.status, answer.2) else go n answer.2

/-- Blocking waits for `pids` in turn, each on the system the one before left: the outcome of
each, with the system after it. -/
def awaitEach (sys : System) (opts : Nat) : List Int → List (Except Errno WaitStatus × System)
  | [] => []
  | pid :: rest => sys.await pid opts :: (sys.await pid opts).2.awaitEach opts rest

@[simp] theorem awaitEach_nil (sys : System) (opts : Nat) : sys.awaitEach opts [] = [] := rfl

theorem awaitEach_cons (sys : System) (opts : Nat) (pid : Int) (rest : List Int) :
    sys.awaitEach opts (pid :: rest) =
      sys.await pid opts :: (sys.await pid opts).2.awaitEach opts rest := rfl

@[simp] theorem length_awaitEach (sys : System) (opts : Nat) (pids : List Int) :
    (sys.awaitEach opts pids).length = pids.length := by
  induction pids generalizing sys with
  | nil => rfl
  | cons pid rest ih => simp [awaitEach_cons, ih]

end System

/-- The session with another system answering its waits. -/
def Session.withSystem (σ : Session) (sys : System) : Session :=
  { σ with world := { σ.world with system := sys } }

@[simp] theorem Session.withSystem_shell (σ : Session) (sys : System) :
    (σ.withSystem sys).shell = σ.shell := rfl

@[simp] theorem Session.withSystem_system (σ : Session) (sys : System) :
    (σ.withSystem sys).world.system = sys := rfl

/-! ## A wait depends on the system alone -/

theorem waitOnce_bind_run (pid : Int) (opts : Nat) {α : Type} (f : WaitReply → ShellM α)
    (σ : Session) :
    (waitOnce pid opts >>= f).run σ =
      (f (σ.world.system.wait pid opts).1).run (σ.withSystem (σ.world.system.wait pid opts).2) :=
  rfl

theorem waitFor_go_run (pid : Int) (opts : Nat) :
    ∀ (n : Nat) (σ : Session), (waitFor.go pid opts n).run σ =
      ((System.await.go pid opts n σ.world.system).1,
       σ.withSystem (System.await.go pid opts n σ.world.system).2)
  | 0, σ => by
    simp only [waitFor.go, System.await.go]
    rfl
  | n + 1, σ => by
    rw [waitFor.go, System.await.go, waitOnce_bind_run]
    generalize σ.world.system.wait pid opts = answer
    obtain ⟨⟨rpid, status, err⟩, sys'⟩ := answer
    dsimp only
    cases err with
    | none =>
      dsimp only
      split
      · rfl
      · exact waitFor_go_run pid opts n _
    | some e =>
      -- an interrupted reply is asked again; every other error ends the wait
      cases e
      case intr => exact waitFor_go_run pid opts n _
      all_goals rfl

/-- A blocking wait answers what the system alone answers, and changes nothing else. -/
theorem waitFor_bind_run (pid : Int) (opts : Nat) {α : Type}
    (f : Except Errno WaitStatus → ShellM α) (σ : Session) :
    (waitFor pid opts >>= f).run σ =
      (f (σ.world.system.await pid opts).1).run
        (σ.withSystem (σ.world.system.await pid opts).2) := by
  change (waitFor.go pid opts (σ.world.system.replyBound pid + 1) >>= f).run σ = _
  rw [StateT.run_bind, waitFor_go_run]
  rfl

theorem waitFor_run (pid : Int) (opts : Nat) (σ : Session) :
    (waitFor pid opts).run σ =
      ((σ.world.system.await pid opts).1, σ.withSystem (σ.world.system.await pid opts).2) := by
  rw [← bind_pure (waitFor pid opts), waitFor_bind_run]
  rfl

theorem waitFor_await {P : Session → Prop} (pid : Int) (opts : Nat) :
    Triple P (waitFor pid opts) fun r σ' => ∃ σ, P σ ∧ r = (σ.world.system.await pid opts).1 ∧
      σ' = σ.withSystem (σ.world.system.await pid opts).2 :=
  fun σ pre => ⟨σ, pre, by rw [waitFor_run], by rw [waitFor_run]⟩

/-- A blocking wait from a known table and system: its outcome and the system after it are
`System.await`'s, and the table is kept. -/
theorem waitFor_from {t : Table} {sys : System} (pid : Int) (opts : Nat) :
    Triple (fun σ => σ.shell.jobs = t ∧ σ.world.system = sys) (waitFor pid opts)
      fun r σ' => (σ'.shell.jobs = t ∧ σ'.world.system = (sys.await pid opts).2) ∧
        r = (sys.await pid opts).1 :=
  (waitFor_await pid opts).mono fun _ _ ⟨σ, ⟨jobs, system⟩, reply, after⟩ => by
    subst after
    rw [system] at reply ⊢
    exact ⟨⟨jobs, rfl⟩, reply⟩

theorem kill_shell (target : Int) (sig : Nat) (σ : Session) :
    ((kill target sig).run σ).2.shell = σ.shell :=
  kill_spec (P := (· = σ)) (Q := fun σ' => σ'.shell = σ.shell)
    (fun _ _ same keeps => same ▸ keeps.shell) σ rfl

/-! ## Adding the job for a group -/

namespace Table

/-- The table with `j` added as its most recent job, `j`'s id being the last handed out. -/
def push (t : Table) (j : Job) : Table :=
  { t with slots := t.slots ++ [some j], listed := true, lastId := j.id }

@[simp] theorem jobs_push (t : Table) (j : Job) : (t.push j).jobs = t.jobs ++ [j] := by
  simp [push, jobs]

/-- Rewriting the job just pushed, when no older job has its id, rewrites it alone. -/
theorem update?_push {t : Table} {j : Job} {f : Job → Job} (fresh : ∀ k ∈ t.jobs, k.id ≠ j.id)
    (keeps_id : (f j).id = j.id) : (t.push j).update? j.id f = some (t.push (f j)) := by
  have none_older : t.jobs.find? (·.id == j.id) = none :=
    List.find?_eq_none.mpr fun k member => by simpa using fresh k member
  have found : ((t.push j).get? j.id).isSome := by
    simp [get?, List.find?_append, none_older]
  have older : t.slots.map (·.map fun k => if k.id == j.id then f k else k) = t.slots := by
    conv_rhs => rw [← List.map_id t.slots]
    refine List.map_congr_left fun s member => ?_
    cases s with
    | none => rfl
    | some k => simp [fresh k (mem_jobs.mpr member)]
  unfold update?
  rw [if_pos found]
  simp only [push, List.map_append, older, List.map_cons, List.map_nil, Option.map_some,
    beq_self_eq_true, if_true, keeps_id]

/-- In a well-formed table, adding a job for `pid` and rewriting it by `f` pushes the rewritten
job. -/
theorem add_update? {t t₁ : Table} {pid id : Int} {command : String} {background : Bool}
    (wf : t.WellFormed) (f : Job → Job) (keeps_id : ∀ j, (f j).id = j.id)
    (added : t.add pid command background = .ok (id, t₁)) :
    id = t.lastId + 1 ∧ t₁.update? id f =
      some (t.push (f ⟨id, pid, pid, [pid], truncateCommand command, .running, background, 0⟩)) := by
  obtain ⟨-, -, rfl, rfl⟩ := add_eq_ok.mp added
  refine ⟨rfl, update?_push (j := ⟨t.lastId + 1, pid, pid, [pid], truncateCommand command,
    .running, background, 0⟩) (fun k member same => ?_) (keeps_id _)⟩
  have := wf.issued k member
  simp only at same
  omega

/-- A table refuses a positive pid only when it is full. -/
theorem full_of_add_error {t : Table} {pid : Int} {command : String} {background : Bool}
    {e : TableError} (positive : 0 < pid) (refused : t.add pid command background = .error e) :
    t.capacity ≤ t.size := by
  rcases add_eq_error.mp refused with ⟨nonpositive, -⟩ | ⟨-, full, -⟩
  · omega
  · exact full

end Table

/-- What adopting the stages `pids` of group `g` as a job with status `st` leaves, from a table
`t` and a system `sys`. With room, `t` with one more job: the next id, tracking the last stage,
in the group's process group, with the stages `pids`, the display text as stored, status `st`,
in the background exactly when stopped, and the system as it was. In a full table, no job, the
stages untracked, and the system after the group was continued. -/
def Adopts (t : Table) (text : String) (g : Group) (pids : List Int) (st : JobStatus)
    (sys : System) (σ' : Session) : Prop :=
  ((t.size : Int) < t.capacity ∧
    σ'.shell.jobs = t.push ⟨t.lastId + 1, g.last, g.pgid, pids, truncateCommand text, st,
      st == .stopped, 0⟩ ∧
    σ'.world.system = sys) ∨
  (t.capacity ≤ t.size ∧ σ'.shell.jobs = t.untrack pids ∧
    ∃ σ₂ : Session, σ₂.world.system = sys ∧
      σ'.world.system = ((kill (-g.pgid) sigCont).run σ₂).2.world.system)

theorem Adopts.of_same {t : Table} {text : String} {g : Group} {pids : List Int}
    {st : JobStatus} {sys : System} {σ' σ'' : Session} (adopts : Adopts t text g pids st sys σ')
    (jobs : σ''.shell.jobs = σ'.shell.jobs) (system : σ''.world.system = σ'.world.system) :
    Adopts t text g pids st sys σ'' := by
  unfold Adopts at adopts ⊢
  rw [jobs, system]
  exact adopts

/-- Rewriting the job a well-formed table was just given, by a rewrite that keeps ids, leaves the
table with the rewritten job pushed, and the system as it was. -/
theorem updateJob_added {t t₁ : Table} {pid id : Int} {command : String} {background : Bool}
    {sys : System} (wf : t.WellFormed) (added : t.add pid command background = .ok (id, t₁))
    (f : Job → Job) (keeps_id : ∀ j, (f j).id = j.id) :
    Triple (fun σ => σ.shell.jobs = t₁ ∧ σ.world.system = sys) (updateJob id f)
      fun _ σ => σ.shell.jobs =
          t.push (f ⟨id, pid, pid, [pid], truncateCommand command, .running, background, 0⟩) ∧
        σ.world.system = sys := by
  obtain ⟨-, pushed⟩ := Table.add_update? wf f keeps_id added
  refine updateJob_spec (fun σ t₂ ⟨jobs, system⟩ updated => ?_)
    fun σ ⟨jobs, _⟩ missed => ?_
  · rw [jobs, pushed] at updated
    cases updated
    exact ⟨rfl, system⟩
  · rw [jobs, pushed] at missed
    cases missed

/-- Adopting keeps to `Adopts`: a positive pid is refused only by a full table. -/
theorem adopt_adopts {t : Table} {sys : System} (text : String) (g : Group) (pids : List Int)
    (st : JobStatus) (wf : t.WellFormed) (positive : 0 < g.last) :
    Triple (fun σ => σ.shell.jobs = t ∧ σ.world.system = sys) (adopt text g pids st)
      fun _ σ' => Adopts t text g pids st sys σ' := by
  unfold adopt
  refine .bind jobs_spec fun t' => ?_
  split
  · rename_i e refused
    refine .bind (Q := fun _ σ => (σ.shell.jobs = t ∧ σ.world.system = sys) ∧ t' = t)
      (fun _ ⟨pre, same⟩ => ⟨pre, same.trans pre.1⟩) fun _ => ?_
    refine .bind (Q := fun _ σ' => t' = t ∧ ∃ σ₂ : Session,
        (σ₂.shell.jobs = t ∧ σ₂.world.system = sys) ∧ σ' = ((kill (-g.pgid) sigCont).run σ₂).2)
      (fun σ ⟨pre, same⟩ => ⟨same, σ, pre, rfl⟩) fun _ => ?_
    refine .bind jobs_spec fun t'' => ?_
    refine setJobs_spec fun σ pre => ?_
    obtain ⟨⟨same, σ₂, ⟨jobs, system⟩, rfl⟩, read⟩ := pre
    refine .inr ⟨?_, ?_, σ₂, system, rfl⟩
    · rw [same] at refused
      exact Table.full_of_add_error positive refused
    · rw [read, kill_shell, jobs]
  · rename_i id t₁ added
    have room := (Table.add_eq_ok.mp added).2.1
    refine .bind (Q := fun _ σ => (σ.shell.jobs = t₁ ∧ σ.world.system = sys) ∧ t' = t)
      (fun σ ⟨pre, same⟩ => ⟨⟨rfl, pre.2⟩, same.trans pre.1⟩) fun _ => ?_
    refine Triple.assume fun same => ?_
    subst same
    obtain ⟨-, -, rfl, -⟩ := Table.add_eq_ok.mp added
    exact .bind (updateJob_added wf added _ fun _ => rfl) fun _ =>
      .pure fun _ ⟨jobs, system⟩ => .inl ⟨room, jobs, system⟩

/-- What registering the group `g` of a background pipeline leaves, from a table `t` and a
system `sys`: with room, `t` with one more Running job in the background, the next id,
tracking the last stage, in the group's process group, with every stage, and the display text
as stored; in a full table, no job and every stage untracked. Nothing is waited for. -/
def Registers (t : Table) (text : String) (g : Group) (sys : System) (σ' : Session) : Prop :=
  (((t.size : Int) < t.capacity ∧
      σ'.shell.jobs = t.push ⟨t.lastId + 1, g.last, g.pgid, g.pids, truncateCommand text,
        .running, true, 0⟩) ∨
    (t.capacity ≤ t.size ∧ σ'.shell.jobs = t.untrack g.pids)) ∧
  σ'.world.system = sys

theorem registerBackground_registers {t : Table} {sys : System} (p : Pipeline) (g : Group)
    (wf : t.WellFormed) (positive : 0 < g.last) :
    Triple (fun σ => σ.shell.jobs = t ∧ σ.world.system = sys) (registerBackground p g)
      fun _ σ' => Registers t p.display g sys σ' := by
  unfold registerBackground
  refine .bind jobs_spec fun t' => ?_
  split
  · rename_i e refused
    refine .bind (Q := fun _ σ => (σ.shell.jobs = t ∧ σ.world.system = sys) ∧ t' = t)
      (fun _ ⟨pre, same⟩ => ⟨pre, same.trans pre.1⟩) fun _ => ?_
    refine .bind jobs_spec fun t'' => ?_
    refine setJobs_spec fun σ ⟨⟨⟨jobs, system⟩, same⟩, read⟩ => ⟨.inr ⟨?_, ?_⟩, system⟩
    · rw [same] at refused
      exact Table.full_of_add_error positive refused
    · rw [read, jobs]
  · rename_i id t₁ added
    have room := (Table.add_eq_ok.mp added).2.1
    refine .bind (Q := fun _ σ => (σ.shell.jobs = t₁ ∧ σ.world.system = sys) ∧ t' = t)
      (fun σ ⟨pre, same⟩ => ⟨⟨rfl, pre.2⟩, same.trans pre.1⟩) fun _ => ?_
    refine Triple.assume fun same => ?_
    subst same
    obtain ⟨-, -, rfl, -⟩ := Table.add_eq_ok.mp added
    refine .bind (updateJob_added wf added _ fun _ => rfl) fun _ => ?_
    -- announcing the job changes neither the table nor the system
    refine .bind (job?_spec _) fun found => ?_
    cases found with
    | none => exact .pure fun _ ⟨⟨jobs, system⟩, _⟩ => ⟨.inl ⟨room, jobs⟩, system⟩
    | some j =>
      refine .bind (Q := fun _ σ => Registers t' p.display g sys σ)
        (fun _ ⟨⟨jobs, system⟩, _⟩ => ⟨.inl ⟨room, jobs⟩, system⟩) fun _ => ?_
      exact jobEvent_spec fun σ σ' registers logs => by
        unfold Registers at registers ⊢
        rw [logs.shell, logs.system]
        exact registers

/-! ## Waiting for a foreground pipeline -/

/-- Whether the outcome of a wait is a stop. -/
def reportsStop : Except Errno WaitStatus → Bool
  | .ok ws => ws.stopped
  | .error _ => false

/-- How waiting for the stages `pids` of group `g` in turn ends, given the outcomes `outs` of
the waits, each with the system after it, from a table `t`. -/
structure WaitsEnd (t : Table) (text : String) (g : Group) (pids : List Int)
    (outs : List (Except Errno WaitStatus × System)) (result : Int) (σ' : Session) : Prop where
  /-- No stage stopped and the last wait gave a status: it is the pipeline's, whatever the
  stages before gave, and no job is added. -/
  finished : ∀ ws sys, outs.getLast? = some (.ok ws, sys) →
    (∀ o ∈ outs, reportsStop o.1 = false) →
    result = ws.shellStatus ∧ σ'.shell.jobs = t ∧ σ'.world.system = sys
  /-- Stage `i` is the first that stopped: the pipeline gives 0, the stages from `i` on become a
  Stopped job, and no later stage is waited for. -/
  stopped : ∀ i ws sys, outs[i]? = some (.ok ws, sys) → ws.stopped = true →
    (∀ o ∈ outs.take i, reportsStop o.1 = false) →
    result = 0 ∧ Adopts t text g (pids.drop i) .stopped sys σ'
  /-- No stage stopped and the wait for the last one failed: the pipeline gives -1 and the last
  stage becomes a Running job, left to reconciliation. -/
  lost : ∀ e sys, outs.getLast? = some (.error e, sys) →
    (∀ o ∈ outs.dropLast, reportsStop o.1 = false) →
    result = execFailure ∧ Adopts t text g [g.last] .running sys σ'

namespace WaitsEnd

variable {t : Table} {text : String} {g : Group} {result : Int} {σ' : Session}

/-- How waiting ends is a matter of the table and the system alone. -/
theorem of_same {pids : List Int} {outs : List (Except Errno WaitStatus × System)} {σ'' : Session}
    (ends : WaitsEnd t text g pids outs result σ') (jobs : σ''.shell.jobs = σ'.shell.jobs)
    (system : σ''.world.system = σ'.world.system) : WaitsEnd t text g pids outs result σ'' := by
  refine ⟨fun ws sys last quiet => ?_, fun i ws sys at_i stop quiet => ?_,
    fun e sys last quiet => ?_⟩
  · obtain ⟨status, jobs', system'⟩ := ends.finished ws sys last quiet
    exact ⟨status, jobs.trans jobs', system.trans system'⟩
  · obtain ⟨status, adopts⟩ := ends.stopped i ws sys at_i stop quiet
    exact ⟨status, adopts.of_same jobs system⟩
  · obtain ⟨status, adopts⟩ := ends.lost e sys last quiet
    exact ⟨status, adopts.of_same jobs system⟩

/-- A wait that does not stop, before more waits, leaves the ending to them. -/
theorem cons_pass {pid : Int} {rest : List Int} {o : Except Errno WaitStatus × System}
    {outs : List (Except Errno WaitStatus × System)} (passes : reportsStop o.1 = false)
    (more : outs ≠ []) (ends : WaitsEnd t text g rest outs result σ') :
    WaitsEnd t text g (pid :: rest) (o :: outs) result σ' := by
  obtain ⟨x, xs, rfl⟩ := List.exists_cons_of_ne_nil more
  refine ⟨fun ws sys last quiet => ?_, fun i ws sys at_i stop quiet => ?_,
    fun e sys last quiet => ?_⟩
  · rw [List.getLast?_cons_cons] at last
    exact ends.finished ws sys last fun o' member => quiet o' (List.mem_cons_of_mem o member)
  · cases i with
    | zero =>
      simp only [List.getElem?_cons_zero, Option.some.injEq] at at_i
      rw [at_i] at passes
      simp [reportsStop, stop] at passes
    | succ i =>
      have later := ends.stopped i ws sys (by simpa using at_i) stop
        fun o' member => quiet o' (by simp [List.take_succ_cons, member])
      simpa using later
  · rw [List.getLast?_cons_cons] at last
    refine ends.lost e sys last fun o' member => quiet o' ?_
    rw [List.dropLast_cons_cons]
    exact List.mem_cons_of_mem o member

/-- A first wait that stops decides the ending. -/
theorem head_stop {pids : List Int} {o : Except Errno WaitStatus × System}
    {outs : List (Except Errno WaitStatus × System)} {ws : WaitStatus} (reply : o.1 = .ok ws)
    (stop : ws.stopped = true) (adopts : Adopts t text g pids .stopped o.2 σ') :
    WaitsEnd t text g pids (o :: outs) 0 σ' := by
  have stops : reportsStop o.1 = true := by simp [reply, reportsStop, stop]
  refine ⟨fun ws' sys _ quiet => ?_, fun i ws' sys at_i _ quiet => ?_, fun e sys last quiet => ?_⟩
  · simp [quiet o List.mem_cons_self] at stops
  · cases i with
    | zero =>
      simp only [List.getElem?_cons_zero, Option.some.injEq] at at_i
      subst at_i
      exact ⟨rfl, adopts⟩
    | succ i => simp [quiet o (by simp)] at stops
  · cases outs with
    | nil =>
      simp only [List.getLast?_singleton, Option.some.injEq] at last
      rw [last] at reply
      cases reply
    | cons x xs => simp [quiet o (by simp)] at stops

/-- A failed wait for the only stage left, the last one. -/
theorem single_error {o : Except Errno WaitStatus × System} {e : Errno} (reply : o.1 = .error e)
    (adopts : Adopts t text g [g.last] .running o.2 σ') :
    WaitsEnd t text g [g.last] [o] execFailure σ' := by
  refine ⟨fun ws sys last _ => ?_, fun i ws sys at_i _ _ => ?_, fun e' sys last _ => ?_⟩
  · simp only [List.getLast?_singleton, Option.some.injEq] at last
    rw [last] at reply
    cases reply
  · cases i with
    | zero =>
      simp only [List.getElem?_cons_zero, Option.some.injEq] at at_i
      rw [at_i] at reply
      cases reply
    | succ i => simp at at_i
  · simp only [List.getLast?_singleton, Option.some.injEq] at last
    subst last
    exact ⟨rfl, adopts⟩

/-- A wait for the only stage left, the last one, that gives a status other than a stop. -/
theorem single_ok {pid : Int} {o : Except Errno WaitStatus × System} {ws : WaitStatus}
    (reply : o.1 = .ok ws) (running : ws.stopped = false) (jobs : σ'.shell.jobs = t)
    (system : σ'.world.system = o.2) : WaitsEnd t text g [pid] [o] ws.shellStatus σ' := by
  refine ⟨fun ws' sys last _ => ?_, fun i ws' sys at_i stop _ => ?_, fun e sys last _ => ?_⟩
  · simp only [List.getLast?_singleton, Option.some.injEq] at last
    rw [last] at reply system
    cases reply
    exact ⟨rfl, jobs, system⟩
  · cases i with
    | zero =>
      simp only [List.getElem?_cons_zero, Option.some.injEq] at at_i
      rw [at_i] at reply
      cases reply
      rw [running] at stop
      cases stop
    | succ i => simp at at_i
  · simp only [List.getLast?_singleton, Option.some.injEq] at last
    rw [last] at reply
    cases reply

end WaitsEnd

/-- Of distinct stages ending in `last`, the first is `last` exactly when it is alone. -/
theorem stages_of_last {pid last : Int} {rest : List Int} (nodup : (pid :: rest).Nodup)
    (ends : (pid :: rest).getLast? = some last) :
    (rest = [] ∧ pid = last) ∨ (rest ≠ [] ∧ pid ≠ last ∧ rest.getLast? = some last) := by
  cases rest with
  | nil =>
    simp only [List.getLast?_singleton, Option.some.injEq] at ends
    exact .inl ⟨rfl, ends⟩
  | cons next rest =>
    rw [List.getLast?_cons_cons] at ends
    have later : last ∈ next :: rest := List.mem_of_getLast? ends
    refine .inr ⟨List.cons_ne_nil _ _, fun same => ?_, ends⟩
    exact (List.nodup_cons.mp nodup).1 (same ▸ later)

/-- Waiting for the stages `pids` in turn, the last being the group's last, from a table `t` and
a system `sys`, ends as `WaitsEnd` says for the outcomes `System.awaitEach` reads off `sys`. -/
theorem go_waitsEnd (p : Pipeline) (g : Group) (positive : 0 < g.last) :
    ∀ (pids : List Int) (status : Int) (t : Table) (sys : System), t.WellFormed → pids.Nodup →
      pids.getLast? = some g.last →
      Triple (fun σ => σ.shell.jobs = t ∧ σ.world.system = sys) (waitPipeline.go p g pids status)
        fun r σ' => WaitsEnd t p.display g pids (sys.awaitEach WaitOptions.untraced pids) r σ'
  | [], _, _, _, _, _, ends => by simp at ends
  | pid :: rest, status, t, sys, wf, nodup, ends => by
    rw [waitPipeline.go, System.awaitEach_cons]
    refine .bind (waitFor_from pid WaitOptions.untraced) fun r => Triple.assume fun reply => ?_
    generalize sys.await pid WaitOptions.untraced = o at reply ⊢
    obtain ⟨out, sys'⟩ := o
    dsimp only at reply ⊢
    subst reply
    have more : rest ≠ [] → sys'.awaitEach WaitOptions.untraced rest ≠ [] := fun some => by
      rw [← List.length_pos_iff, System.length_awaitEach]
      exact List.length_pos_iff.mpr some
    cases r with
    | error e =>
      refine .bind (Q := fun _ σ => σ.shell.jobs = t ∧ σ.world.system = sys')
        (fun _ pre => pre) fun _ => ?_
      split
      · rename_i is_last
        -- a failed wait for the last stage: it is adopted as Running
        rcases stages_of_last nodup ends with ⟨rfl, rfl⟩ | ⟨-, other, -⟩
        · exact .bind (adopt_adopts p.display g [g.last] .running wf positive) fun _ =>
            .pure fun _ adopts => WaitsEnd.single_error (o := (.error e, sys')) rfl adopts
        · exact absurd (beq_iff_eq.mp is_last) other
      · rename_i not_last
        rcases stages_of_last nodup ends with ⟨rfl, rfl⟩ | ⟨nonempty, -, ends'⟩
        · exact absurd (beq_self_eq_true g.last) not_last
        · exact (go_waitsEnd p g positive rest status t sys' wf nodup.of_cons ends').mono
            fun _ _ rest_ends => rest_ends.cons_pass rfl (more nonempty)
    | ok ws =>
      dsimp only
      split
      · rename_i stop
        -- the first stop: the stages from here on become a Stopped job, reported to the user
        refine .bind (adopt_adopts p.display g (pid :: rest) .stopped wf positive) fun found => ?_
        have ends_here : ∀ σ', Adopts t p.display g (pid :: rest) .stopped sys' σ' →
            WaitsEnd t p.display g (pid :: rest)
              ((.ok ws, sys') :: sys'.awaitEach WaitOptions.untraced rest) 0 σ' :=
          fun _ adopts => WaitsEnd.head_stop (o := (.ok ws, sys')) rfl stop adopts
        cases found with
        | none => exact .pure ends_here
        | some id =>
          have event : Triple (Adopts t p.display g (pid :: rest) .stopped sys')
              (jobEvent Event.stopped id)
              fun _ => Adopts t p.display g (pid :: rest) .stopped sys' :=
            jobEvent_spec fun _ _ adopts logs =>
              adopts.of_same (congrArg Shell.jobs logs.shell) logs.system
          refine .bind (job?_spec id) fun j => ?_
          cases j with
          | none =>
            exact (event.weaken fun _ pre => pre.1).bind fun _ => .pure ends_here
          | some j =>
            exact .bind (Q := fun _ => Adopts t p.display g (pid :: rest) .stopped sys')
              (fun _ pre => pre.1) fun _ => event.bind fun _ => .pure ends_here
      · rename_i running
        rcases stages_of_last nodup ends with ⟨rfl, rfl⟩ | ⟨nonempty, -, ends'⟩
        · -- the last stage gave its status: it is the pipeline's
          simp only [beq_self_eq_true, if_true]
          rw [waitPipeline.go]
          exact .pure fun _ ⟨jobs, system⟩ =>
            WaitsEnd.single_ok (o := (.ok ws, sys')) rfl (Bool.eq_false_iff.mpr running) jobs
              system
        · exact (go_waitsEnd p g positive rest _ t sys' wf nodup.of_cons ends').mono
            fun _ _ rest_ends =>
              rest_ends.cons_pass (by simpa [reportsStop] using running) (more nonempty)

/-- Waiting for a foreground group, which holds the keyboard signals meanwhile, ends as
`WaitsEnd` says for the table and the system it starts from. -/
theorem waitPipeline_waitsEnd (p : Pipeline) (g : Group) {t : Table} {sys : System}
    (wf : t.WellFormed) (distinct : g.pids.Nodup) (ends : g.pids.getLast? = some g.last)
    (leads : 0 < g.last) :
    Triple (fun σ => σ.shell.jobs = t ∧ σ.world.system = sys) (waitPipeline p g)
      fun r σ' => WaitsEnd t p.display g g.pids (sys.awaitEach WaitOptions.untraced g.pids) r σ' := by
  unfold waitPipeline
  -- handing the group the keyboard signals touches neither the table nor the system
  refine Triple.withForeground (go_waitsEnd p g leads g.pids 0 t sys wf distinct ends) ?_ ?_
  · intro _ _ same kept
    obtain ⟨jobs', -, system'⟩ := Session.jobState_eq_iff.mp same
    exact ⟨jobs'.trans kept.1, system'.trans kept.2⟩
  · intro _ _ _ same ends
    obtain ⟨jobs, -, system⟩ := Session.jobState_eq_iff.mp same
    exact ends.of_same jobs system

/-! ## Starting the group -/

/-- The group of `n` stages started from a process table that hands out `first` next: the
pids from `first` on, the first leading. -/
def Group.starting (first : Int) (n : Nat) : Group :=
  ⟨first, (List.range n).map fun i : Nat => first + (i : Int)⟩

/-- The loop that starts a group from `ps`, after `k` of its stages: what is left is the rest of
the numbered stages, `k` pids were handed out in order from `ps.nextPid`, and once one was, the
first leads the group. -/
def StartedCount (p : Pipeline) (ps : Host.Procs) (k : Nat) (rest : List (Command × Nat))
    (c : Host.Procs × Array Int × Int × Host.Source × Option Int) : Prop :=
  k ≤ p.stages.length ∧ rest = p.stages.zipIdx.drop k ∧ c.1.nextPid = ps.nextPid + k ∧
    c.2.1.toList = (List.range k).map (fun i : Nat => ps.nextPid + (i : Int)) ∧ (0 < k → c.2.2.1 = ps.nextPid)

/-- What is left of the numbered stages after `k` starts with stage `k`. -/
theorem zipIdx_drop_eq_cons {l : List Command} {k : Nat} {a : Command × Nat}
    {rest : List (Command × Nat)} (left : a :: rest = l.zipIdx.drop k) :
    k < l.length ∧ a.2 = k ∧ rest = l.zipIdx.drop (k + 1) := by
  have within : k < l.zipIdx.length := by
    by_contra beyond
    rw [List.drop_eq_nil_iff.mpr (Nat.le_of_not_lt beyond)] at left
    cases left
  rw [List.drop_eq_getElem_cons within, List.cons.injEq] at left
  refine ⟨List.length_zipIdx ▸ within, ?_, left.2⟩
  rw [left.1, List.getElem_zipIdx]
  simp

/-- Starting stage `k` hands out the next pid; the group keeps a leader with the first. -/
theorem StartedCount.step {p : Pipeline} {ps : Host.Procs} {k : Nat} {stage : Command}
    {rest : List (Command × Nat)} {c : Host.Procs × Array Int × Int × Host.Source × Option Int}
    (count : StartedCount p ps k ((stage, k) :: rest) c) {pgid : Int} (leads : pgid = ps.nextPid)
    (ps' : Host.Procs) (handed : ps'.nextPid = c.1.nextPid + 1) (input : Host.Source)
    (upstream : Option Int) :
    StartedCount p ps (k + 1) rest (ps', c.2.1.push c.1.nextPid, pgid, input, upstream) := by
  obtain ⟨-, left, next, pids, -⟩ := count
  obtain ⟨within, -, rest_eq⟩ := zipIdx_drop_eq_cons left
  refine ⟨within, rest_eq, ?_, ?_, fun _ => leads⟩
  · rw [handed, next]
    omega
  · show (c.2.1.push c.1.nextPid).toList = _
    rw [Array.toList_push, pids, next, List.range_succ, List.map_append]
    simp

/-- Starting the stages of a pipeline hands them the pids from the table's next one on, the
first leading the group, and leaves the shell as it was. -/
theorem startGroup_starts (p : Pipeline) (ps : Host.Procs) (sh : Shell) (nonempty : p.stages ≠ []) :
    Triple (fun σ => σ.shell = sh) (startGroup p ps) fun g σ' =>
      g = Group.starting ps.nextPid p.stages.length ∧ σ'.shell = sh := by
  unfold startGroup
  refine .bind shell_spec fun _ => ?_
  refine .bind jobs_spec fun _ => ?_
  refine .bind world_spec fun _ => ?_
  dsimp only
  refine .bind ((Triple.forIn_yield (fun rest c σ => ∃ k, σ.shell = sh ∧ StartedCount p ps k rest c)
    fun a rest c => ?_).weaken fun σ pre => ?_) fun c => ?_
  · refine Triple.of_exists fun k => Triple.assume fun ⟨bound, left, next, pids, leader⟩ => ?_
    obtain ⟨within, index, rest_eq⟩ := zipIdx_drop_eq_cons left
    obtain ⟨stage, i⟩ := a
    dsimp only at index
    subst index
    have count : StartedCount p ps i ((stage, i) :: rest) c := ⟨bound, left, next, pids, leader⟩
    dsimp only [Host.Procs.fresh]
    -- whatever the stage's script does, only the host changes, never the shell
    split <;>
    · rename_i first
      refine .bind host_spec fun _ => ?_
      refine .bind (Q := fun _ σ => σ.shell = sh) (fun _ pre => pre.1) fun _ => ?_
      refine .pure fun _ shell => ⟨_, rfl, i + 1, shell, count.step ?_ _ rfl _ _⟩
      first
      | rw [next, beq_iff_eq.mp first]; simp
      | exact leader (Nat.pos_of_ne_zero fun zero => first (by simp [zero]))
  · exact ⟨0, pre.1.1.1, Nat.zero_le _, rfl, by simp, rfl, fun zero => absurd zero (Nat.lt_irrefl 0)⟩
  · refine Triple.of_exists fun k => Triple.assume fun ⟨bound, left, _, pids, leader⟩ => ?_
    have every : k = p.stages.length := by
      have beyond := List.drop_eq_nil_iff.mp left.symm
      rw [List.length_zipIdx] at beyond
      omega
    subst every
    refine .bind (Q := fun _ σ => σ.shell = sh) (fun _ shell => shell) fun _ => ?_
    refine .pure fun _ shell => ⟨?_, shell⟩
    show Group.mk c.2.2.1 c.2.1.toList = _
    rw [pids, leader (List.length_pos_iff.mpr nonempty)]
    rfl

/-- On a live system, spawning a pipeline starts its group as `startGroup_starts` says. -/
theorem spawn_starts (p : Pipeline) {ps : Host.Procs} {sh : Shell} (nonempty : p.stages ≠ []) :
    Triple (fun σ => σ.shell = sh ∧ σ.world.system = .live ps) (spawn p) fun r σ' =>
      r = .ok (Group.starting ps.nextPid p.stages.length) ∧ σ'.shell = sh := by
  unfold spawn
  refine .bind world_spec fun w => ?_
  split
  · rename_i ps' found
    refine (Triple.assume fun same => ?_).weaken fun σ ⟨⟨shell, live⟩, read⟩ =>
      ⟨shell, System.live.inj (found.symm.trans (read ▸ live))⟩
    subst same
    exact .bind (startGroup_starts p ps' sh nonempty) fun _ =>
      .pure fun _ ⟨started, shell⟩ => ⟨started ▸ rfl, shell⟩
  · rename_i other
    exact fun σ ⟨⟨_, live⟩, read⟩ => absurd (read ▸ live) (other ps)

/-- The group after starting the processes `started`, in turn: the first one to start leads it. -/
def Group.grow (g : Group) : List Int → Group
  | [] => g
  | pid :: rest => Group.grow { pgid := if g.pgid == 0 then pid else g.pgid, pids := g.pids ++ [pid] } rest

/-- A group that has a leader keeps it, and every process started joins it. -/
theorem Group.grow_led (g : Group) (led : g.pgid ≠ 0) (started : List Int) :
    g.grow started = { pgid := g.pgid, pids := g.pids ++ started } := by
  induction started generalizing g with
  | nil => simp [Group.grow]
  | cons pid rest ih =>
    have keeps : (g.pgid == 0) = false := by simpa using led
    rw [Group.grow, keeps, if_neg Bool.false_ne_true, ih { pgid := g.pgid, pids := g.pids ++ [pid] } led]
    simp

/-- The first of the processes started leads the new group. -/
theorem Group.grow_new {started : List Int} (positive : ∀ pid ∈ started, 0 < pid) :
    ({ pgid := 0, pids := [] } : Group).grow started = { pgid := started.headD 0, pids := started } := by
  cases started with
  | nil => rfl
  | cons pid rest =>
    have leads : pid ≠ 0 := Int.ne_of_gt (positive pid List.mem_cons_self)
    rw [Group.grow, Group.grow_led _ leads]
    rfl

@[simp] theorem Group.grow_pids (g : Group) (started : List Int) :
    (g.grow started).pids = g.pids ++ started := by
  induction started generalizing g with
  | nil => simp [Group.grow]
  | cons pid rest ih => simp [Group.grow, ih]

theorem launch_run (σ : Session) :
    launch.run σ = (σ.world.system.launch.1, σ.withSystem σ.world.system.launch.2) := rfl

/-- Starting stages that all start: one process per stage, each joining the group in turn, and
the shell left as it was. -/
theorem launchStages_ok (g : Group) (stages : List Command) (σ : Session) {g' : Group}
    (started : ((launchStages g stages).run σ).1 = .ok g') :
    ∃ launched : List Int, launched.length = stages.length ∧ g' = g.grow launched ∧
      ((launchStages g stages).run σ).2.shell = σ.shell := by
  -- one stage per round; the system's answer to the start request decides the round
  induction stages generalizing g σ with
  | nil =>
    cases started
    exact ⟨[], rfl, rfl, rfl⟩
  | cons stage rest ih =>
    unfold launchStages at started ⊢
    rw [ShellM.run_bind, launch_run] at started ⊢
    generalize σ.world.system.launch = answer at started ⊢
    obtain ⟨r, sys⟩ := answer
    cases r with
    | error e =>
      rw [ShellM.run_bind] at started
      cases started
    | ok pid =>
      obtain ⟨launched, counts, grown, shell⟩ := ih _ _ started
      exact ⟨pid :: launched, by simp [counts], grown, shell⟩

/-- Off a live host, `spawn` makes the pipes, and starts the stages when it can. -/
theorem spawn_run_of_not_live (p : Pipeline) {σ : Session}
    (not_live : ∀ ps, σ.world.system ≠ .live ps) :
    (spawn p).run σ = (σ.world.system.pipeError p.stages.length).elim
      ((launchStages { pgid := 0, pids := [] } p.stages).run σ)
      (fun e => (.error ("pipe: pipe2: " ++ e.message), σ)) := by
  unfold spawn
  rw [ShellM.run_bind]
  split
  · rename_i ps live
    exact absurd live (not_live ps)
  · split
    · rename_i e refused
      have piped : σ.world.system.pipeError p.stages.length = some e := refused
      rw [piped]
      rfl
    · rename_i unpiped
      have piped : σ.world.system.pipeError p.stages.length = none := unpiped
      rw [piped]
      rfl

/-- A spawn that starts its group, on any system, leaves the shell as it was and starts one
process per stage; when every pid handed out is positive, the first stage leads the group. -/
theorem spawn_ok (p : Pipeline) (σ : Session) {g : Group} (nonempty : p.stages ≠ [])
    (started : ((spawn p).run σ).1 = .ok g) :
    ((spawn p).run σ).2.shell = σ.shell ∧ g.pids.length = p.stages.length ∧
      ((∀ pid ∈ g.pids, 0 < pid) → g.pids.head? = some g.pgid) := by
  by_cases live : ∃ ps, σ.world.system = .live ps
  · -- a live host hands out the next pids itself
    obtain ⟨ps, live⟩ := live
    obtain ⟨starts, shell⟩ := spawn_starts p nonempty σ ⟨rfl, live⟩
    rw [starts] at started
    cases started
    have stages : p.stages.length ≠ 0 := Nat.pos_iff_ne_zero.mp (List.length_pos_iff.mpr nonempty)
    exact ⟨shell, by simp [Group.starting], fun _ => by simp [Group.starting, List.head?_range, stages]⟩
  · -- elsewhere the system answers each start request
    simp only [not_exists] at live
    rw [spawn_run_of_not_live p live] at started ⊢
    cases piped : σ.world.system.pipeError p.stages.length with
    | some e =>
      rw [piped] at started
      cases started
    | none =>
      rw [piped] at started
      obtain ⟨launched, counts, rfl, shell⟩ := launchStages_ok _ _ _ started
      refine ⟨shell, by simpa using counts, fun positive => ?_⟩
      have positive' : ∀ pid ∈ launched, 0 < pid := fun pid member => positive pid (by simpa using member)
      have some_started : launched ≠ [] := fun none_started => nonempty
        (List.eq_nil_of_length_eq_zero (counts.symm.trans (by rw [none_started]; rfl)))
      rw [Group.grow_new positive']
      obtain ⟨first, others, rfl⟩ := List.exists_cons_of_ne_nil some_started
      rfl

/-! ## Running a pipeline -/

/-- Whether a pipeline runs inside the shell: a lone builtin or tool, not redirected, not in
the background and with no assignments of its own. -/
def Pipeline.inShell (p : Pipeline) : Bool :=
  match p.stages with
  | [stage] => !p.hasRedirect && !p.background && stage.env.isEmpty &&
      (isBuiltin stage.name || (Tool.find? stage.name).isSome)
  | _ => false

/-- A lone stage of a pipeline that leaves the shell fails the direct test, or is neither a
builtin nor a tool. -/
theorem Pipeline.lone_refused {p : Pipeline} {stage : Command} (outside : p.inShell = false)
    (single : p.stages = [stage]) :
    ¬((!p.hasRedirect && !p.background && stage.env.isEmpty) = true ∧
      (isBuiltin stage.name || (Tool.find? stage.name).isSome) = true) := by
  simpa [Pipeline.inShell, single] using outside

/-- Every valid pipeline that leaves the shell and whose stages all start, on any system: one
process per stage, the first leading the group, and the outcomes of the waits on the system
the start left decide the rest, whatever those outcomes are (a wait interrupted and asked again,
a wait that fails, a stop at any stage). A background pipeline gives 0 and is registered as
`Registers` says, nothing waited for; a foreground one gives what `WaitsEnd` says of the
outcomes. -/
theorem execute_waits_by_stage (p : Pipeline) (σ : Session) {g : Group}
    (valid : p.validate = .ok ()) (outside : p.inShell = false) (wf : σ.shell.jobs.WellFormed)
    (started : ((spawn p).run σ).1 = .ok g) (distinct : g.pids.Nodup)
    (positive : ∀ pid ∈ g.pids, 0 < pid) :
    let sys := ((spawn p).run σ).2.world.system
    g.pids.length = p.stages.length ∧ g.pids.head? = some g.pgid ∧
    (p.background = true → ((execute p).run σ).1 = 0 ∧
      Registers σ.shell.jobs p.display g sys ((execute p).run σ).2) ∧
    (p.background = false → WaitsEnd σ.shell.jobs p.display g g.pids
      (sys.awaitEach WaitOptions.untraced g.pids) ((execute p).run σ).1 ((execute p).run σ).2) := by
  intro sys
  have nonempty : p.stages ≠ [] := fun empty => by simp [Pipeline.validate, empty] at valid
  obtain ⟨shell, stages, leader⟩ := spawn_ok p σ nonempty started
  -- the last stage is the group's last pid, and it is positive
  have some_pids : g.pids ≠ [] := fun none_started =>
    nonempty (List.eq_nil_of_length_eq_zero (stages.symm.trans (by rw [none_started]; rfl)))
  have ends : g.pids.getLast? = some g.last := by
    rw [Group.last, List.getLastD_eq_getLast?, List.getLast?_eq_some_getLast some_pids]
    rfl
  have leads : 0 < g.last := positive _ (List.mem_of_getLast? ends)
  have from_spawn : ∀ σ', σ' = ((spawn p).run σ).2 →
      σ'.shell.jobs = σ.shell.jobs ∧ σ'.world.system = sys :=
    fun _ same => same ▸ ⟨congrArg Shell.jobs shell, rfl⟩
  suffices ran : Triple (· = σ) (execute p) fun r σ' =>
      (p.background = true → r = 0 ∧ Registers σ.shell.jobs p.display g sys σ') ∧
      (p.background = false → WaitsEnd σ.shell.jobs p.display g g.pids
        (sys.awaitEach WaitOptions.untraced g.pids) r σ') from
    ⟨stages, leader positive, ran σ rfl⟩
  unfold execute
  simp only [List.isEmpty_eq_false_iff.mpr nonempty, Bool.false_eq_true, if_false, valid]
  -- a pipeline that leaves the shell reaches the spawn whichever test turns it away: of the
  -- lone stage, neither the builtin nor the tool branch can be taken
  split
  rename_i stage single
  have refused := Pipeline.lone_refused outside single
  split
  rename_i direct
  split
  · rename_i builtin
    exact absurd ⟨direct, by simp [builtin]⟩ refused
  split
  · rename_i tool found
    exact absurd ⟨direct, by simp [found]⟩ refused
  all_goals
    refine .bind (Q := fun r σ' => r = .ok g ∧ σ' = ((spawn p).run σ).2)
      (fun _ same => by rw [same]; exact ⟨started, rfl⟩) fun r => ?_
    refine (Triple.assume fun found => ?_).weaken fun σ' pre => ⟨pre.2, pre.1⟩
    subst found
    dsimp only
    split
    · rename_i background
      refine .bind ((registerBackground_registers p g wf leads).weaken from_spawn) fun _ =>
        .pure fun _ registers => ⟨fun _ => ⟨rfl, registers⟩, fun foreground => ?_⟩
      rw [background] at foreground
      cases foreground
    · rename_i foreground
      exact ((waitPipeline_waitsEnd p g wf distinct ends leads).weaken from_spawn).mono
        fun _ _ ends => ⟨fun background => absurd background foreground, fun _ => ends⟩

/-- Two foreground stages that a script starts as 41 and 42: the wait for the first is
interrupted once and asked again, then the first exits; the wait for the last fails, as no
reply is queued for it. The pipeline gives -1 and the last stage is left as a Running job. -/
theorem pipeline_last_wait_fails :
    let p : Pipeline := { stages := [{ args := ["a"] }, { args := ["b"] }] }
    let w : WaitScript := { launches := [.ok 41, .ok 42],
                            queues := [(41, [{ err := some .intr }, { status := .ofExit 0 }])] }
    let σ := Session.start Settings.builtin [] { nodes := [([], .dir)] } [] "" (.scripted w) []
    (p.validate = .ok () ∧ p.inShell = false ∧ ((spawn p).run σ).1 = .ok ⟨41, [41, 42]⟩) ∧
    ((execute p).run σ).1 = execFailure ∧
    Adopts σ.shell.jobs p.display ⟨41, [41, 42]⟩ [42] .running
      ((((spawn p).run σ).2.world.system.await 41 WaitOptions.untraced).2.await 42
        WaitOptions.untraced).2 ((execute p).run σ).2 := by
  intro p w σ
  have valid : p.validate = .ok () := rfl
  have outside : p.inShell = false := rfl
  have started : ((spawn p).run σ).1 = .ok ⟨41, [41, 42]⟩ := rfl
  obtain ⟨-, -, -, waits⟩ := execute_waits_by_stage p σ valid outside (Table.WellFormed.empty _)
    started (by decide) (by decide)
  -- the first wait gives an exit after the interruption, the second no child
  have first : (((spawn p).run σ).2.world.system.await 41 WaitOptions.untraced).1 =
      .ok (.ofExit 0) := rfl
  have second : ((((spawn p).run σ).2.world.system.await 41 WaitOptions.untraced).2.await 42
      WaitOptions.untraced).1 = .error .child := rfl
  have last : (((spawn p).run σ).2.world.system.awaitEach WaitOptions.untraced [41, 42]).getLast? =
      some (.error .child, ((((spawn p).run σ).2.world.system.await 41
        WaitOptions.untraced).2.await 42 WaitOptions.untraced).2) := by
    rw [System.awaitEach_cons, System.awaitEach_cons, System.awaitEach_nil,
      List.getLast?_cons_cons, List.getLast?_singleton]
    exact congrArg some (Prod.ext second rfl)
  have quiet : ∀ o ∈ (((spawn p).run σ).2.world.system.awaitEach WaitOptions.untraced
      [41, 42]).dropLast, reportsStop o.1 = false := by
    simp [System.awaitEach_cons, reportsStop, first]
    -- an exit is no stop
    decide
  obtain ⟨failed, adopts⟩ := (waits rfl).lost .child _ last quiet
  exact ⟨⟨valid, outside, started⟩, failed, adopts⟩

end JobShell

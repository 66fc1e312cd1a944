import JobShell.Proofs.Shell.JobControl
import JobShell.Proofs.Shell.PipelineWaits
import JobShell.Proofs.Jobs.Reconciliation

/-!
# What `fg` and `bg` do

`fg` and `bg` first catch the table up with the children (`catchUp`), then look up the job
their arguments name (`Table.target?`): the current job for `fg` and the last stopped one for
`bg` when there is no operand, the job a `%+`, `%%`, `%-`, `N` or `%N` operand names, and none
for more operands. A name that finds no job changes nothing; a done job has the done jobs
cleaned up (`Settles`).

`fg` then continues its job if it is stopped and waits for it, and the reply decides everything
(`ForegroundOutcome`): a failed wait leaves the job Running, a stop puts it back in the
background as Stopped, and an exit or a kill removes exactly that job and gives its status.
`bg` leaves a running job as it is and sends a stopped one the continue signal, marking it
Running in the background only when the signal goes through (`BgOutcome`).

The main statement is `fg_bg_outcomes`. Each table effect is stated through the table's own
`update?` and `remove`, which touch only the job with the given id: a well-formed table has one
job per id, and a removal forgets the rewrites of the job before it (`Table.remove_update?`).
-/
namespace JobShell

open ShellM

/-! ## Rewriting and removing one job -/

namespace Job

theorem stragglers_applyWait (j : Job) (w : WaitStatus) :
    (j.applyWait w).stragglers = j.stragglers := by
  unfold applyWait
  split_ifs
  · -- the tracked pid is never a straggler, so forgetting it changes none
    have untracked : j.pid ∉ j.pids.filter (· != j.pid) := by simp
    simp only [stragglers, forget]
    rw [← List.erase_filter, List.erase_of_not_mem untracked]
  all_goals rfl

theorem exitStatus_applyWait (j : Job) (w : WaitStatus) :
    (j.applyWait w).exitStatus = if w.ended then w.shellStatus else j.exitStatus := by
  unfold applyWait
  split_ifs <;> rfl

end Job

namespace Table

theorem remove_ok_of_get? {t : Table} {id : Int} {j : Job} (found : t.get? id = some j) :
    ∃ t', t.remove id = .ok t' := by
  obtain ⟨member, rfl⟩ := get?_spec found
  have located : (t.indexOf? j.id).isSome := by
    rw [indexOf?_eq, List.findIdx?_isSome, List.any_eq_true]
    exact ⟨some j, mem_jobs.mp member, by simp [holds]⟩
  obtain ⟨i, at_i⟩ := Option.isSome_iff_exists.mp located
  unfold remove
  rw [at_i]
  exact ⟨_, rfl⟩

theorem update?_of_get? {t : Table} {id : Int} {j : Job} (found : t.get? id = some j)
    (f : Job → Job) : ∃ t', t.update? id f = some t' := by
  unfold update?
  rw [found]
  exact ⟨_, rfl⟩

/-- Two rewrites of a job that keep its id are one rewrite by their composite. -/
theorem update?_update? {t t₁ t₂ : Table} {id : Int} {f g : Job → Job}
    (keeps_id : ∀ j, (f j).id = j.id) (first : t.update? id f = some t₁)
    (second : t₁.update? id g = some t₂) : t.update? id (g ∘ f) = some t₂ := by
  obtain ⟨found, rfl⟩ := update?_eq_some first
  obtain ⟨-, rfl⟩ := update?_eq_some second
  unfold update?
  rw [if_pos found, List.map_map]
  congr 3
  funext s
  cases s with
  | none => rfl
  | some j => by_cases named : j.id = id <;> simp [named, keeps_id]

/-- In a well-formed table, removing a job forgets any rewrite of it that keeps its id and its
stray stages. -/
theorem remove_update? {t t₁ : Table} {id : Int} {f : Job → Job} (wf : t.WellFormed)
    (keeps_id : ∀ j, (f j).id = j.id) (keeps_strays : ∀ j, (f j).stragglers = j.stragglers)
    (updated : t.update? id f = some t₁) : t₁.remove id = t.remove id := by
  obtain ⟨found, rfl⟩ := update?_eq_some updated
  obtain ⟨j, got⟩ := Option.isSome_iff_exists.mp found
  obtain ⟨t', removed⟩ := remove_ok_of_get? got
  obtain ⟨t₁', removed₁⟩ := remove_ok_of_get? ((get?_update? keeps_id updated).trans (by rw [got]; rfl))
  rw [removed, removed₁]
  obtain ⟨k, -, first, rfl⟩ := remove_eq_ok removed
  obtain ⟨k₁, -, first₁, rfl⟩ := remove_eq_ok removed₁
  -- the rewrite keeps which slots hold the id
  have holding : (holds id ∘ Option.map fun j => if j.id == id then f j else j) = holds id := by
    funext s
    cases s with
    | none => rfl
    | some j => by_cases named : j.id = id <;> simp [holds, named, keeps_id]
  have named : k.id = id := by simpa [holds] using List.find?_some first
  have rewritten : k₁ = f k := by
    rw [List.find?_map, holding, first] at first₁
    simpa [named] using first₁.symm
  -- in a well-formed table no other slot holds the id, so the rest is not rewritten
  have rest : t.slots.eraseP (holds id) = (t.jobs.filter (·.id != id)).map some := by
    rw [wf.slots_eq, List.eraseP_map]
    exact congrArg (List.map some) (List.eraseP_eq_filter_of_nodup Job.id id wf.ids_nodup)
  have kept : ((t.slots.map fun s => s.map fun j => if j.id == id then f j else j).eraseP
      (holds id)) = t.slots.eraseP (holds id) := by
    rw [List.eraseP_map, holding, rest, List.map_map]
    apply List.map_congr_left
    intro j member
    have other : j.id ≠ id := by simpa using (List.mem_filter.mp member).2
    simp [other]
  rw [kept, rewritten, keeps_strays]

/-- The wait for a job continued in the foreground is recorded, then the job is removed: its
exit status is then the one the wait gives, and the removal is the removal of the job as it was. -/
theorem remove_after_record {t t₁ t₂ : Table} {j : Job} {ws : WaitStatus} (wf : t.WellFormed)
    (resumed : t.update? j.id (fun k => { k with status := .running, background := false }) =
      some t₁)
    (recorded : t₁.update? j.id (fun k => (k.record ws).2) = some t₂) (found : t.get? j.id = some j) :
    ((t₂.get? j.id).map (·.exitStatus)).getD 0 =
        (if ws.ended then ws.shellStatus else j.exitStatus) ∧
      t₂.remove j.id = t.remove j.id := by
  constructor
  · rw [get?_update? (f := fun k => (k.record ws).2) (fun k => applyWait_id k ws) recorded,
      get?_update? (f := fun k => { k with status := .running, background := false })
        (fun _ => rfl) resumed, found]
    exact Job.exitStatus_applyWait _ ws
  · -- both rewrites keep the job's id and its stray stages
    exact remove_update? (f := (fun k : Job => (k.record ws).2) ∘
        fun k : Job => { k with status := .running, background := false }) wf
      (fun k => applyWait_id { k with status := .running, background := false } ws)
      (fun k => Job.stragglers_applyWait { k with status := .running, background := false } ws)
      (update?_update? (f := fun k => { k with status := .running, background := false })
        (fun _ => rfl) resumed recorded)

end Table

/-! ## The job an operand names -/

namespace Table

/-- The job an operand of `fg` or `bg` names: `%+` and `%%` the current job, `%-` the previous
one, and `N` or `%N` the job with id `N`, a positive number. -/
def operandJob? (t : Table) (spec : String) : Option Job :=
  if spec = "%+" ∨ spec = "%%" then t.current?.join
  else if spec = "%-" then t.previous?.join
  else (strictInt? (if spec.startsWith "%" then (spec.drop 1).toString else spec)).bind
    fun id => if 0 < id then t.get? id else none

/-- The job `fg` or `bg` with arguments `args` (its own name first) goes on with: `fallback`
without an operand, the job the operand names with one, and none with more. -/
def target? (t : Table) (fallback : Option Job) : List String → Option Job
  | [_] => fallback
  | [_, spec] => t.operandJob? spec
  | _ => none

theorem lastWithStatus?_of_size_zero {t : Table} (empty : t.size = 0) (s : JobStatus) :
    t.lastWithStatus? s = none := by
  have no_slots : t.slots = [] := List.eq_nil_of_length_eq_zero empty
  simp [lastWithStatus?, jobs, no_slots]

/-- The job an operand names is one of the table's. -/
theorem operandJob?_mem {t : Table} {spec : String} {j : Job} (named : t.operandJob? spec = some j) :
    j ∈ t.jobs := by
  unfold operandJob? at named
  by_cases current : spec = "%+" ∨ spec = "%%"
  · rw [if_pos current] at named
    exact slot?_mem (Option.join_eq_some_iff.mp named)
  rw [if_neg current] at named
  by_cases previous : spec = "%-"
  · rw [if_pos previous] at named
    exact slot?_mem (Option.join_eq_some_iff.mp named)
  rw [if_neg previous] at named
  obtain ⟨id, -, picked⟩ := Option.bind_eq_some_iff.mp named
  by_cases positive : 0 < id
  · rw [if_pos positive] at picked
    exact (get?_spec picked).1
  · rw [if_neg positive] at picked
    cases picked

theorem target?_mem {t : Table} {fallback : Option Job} {args : List String} {j : Job}
    (named : t.target? fallback args = some j) (listed : fallback = some j → j ∈ t.jobs) :
    j ∈ t.jobs := by
  unfold target? at named
  split at named
  · exact listed named
  · exact operandJob?_mem named
  · cases named

end Table

theorem join_eq_none_of_forall {o : Option (Option Job)} (missing : ∀ j, ¬o = some (some j)) :
    o.join = none :=
  Option.eq_none_iff_forall_ne_some.mpr fun j same => missing j (Option.join_eq_some_iff.mp same)

theorem jobs_bind_run {α : Type} (f : Table → ShellM α) (σ : Session) :
    (jobs >>= f).run σ = (f σ.shell.jobs).run σ := rfl

theorem jobSpec_run (name spec : String) (σ : Session) :
    ((jobSpec name spec).run σ).2 = σ ∧
      ((jobSpec name spec).run σ).1.toOption = σ.shell.jobs.operandJob? spec := by
  unfold jobSpec Table.operandJob?
  rw [jobs_bind_run]
  split
  case h_1 | h_2 | h_3 =>
    split
    · rename_i j found
      simp only [found, Option.join_some, if_pos, true_or]
      exact ⟨rfl, rfl⟩
    · rename_i missing
      simp [join_eq_none_of_forall missing]
      exact ⟨rfl, rfl⟩
  case h_4 plus percent minus =>
    rw [if_neg (not_or.mpr ⟨plus, percent⟩), if_neg minus]
    dsimp only
    generalize strictInt? (if spec.startsWith "%" = true then (spec.drop 1).toString else spec) =
      parsed
    cases parsed with
    | none => exact ⟨rfl, rfl⟩
    | some id =>
      dsimp only [Option.bind_some]
      by_cases positive : 0 < id
      · rw [if_neg (by omega), if_pos positive]
        cases σ.shell.jobs.get? id <;> exact ⟨rfl, rfl⟩
      · rw [if_pos (by omega), if_neg positive]
        exact ⟨rfl, rfl⟩

/-- How looking up the job `target` of `fg` or `bg` from `σ` ends in `r`: with no job and
nothing changed when there is none, with no job after cleaning up the done jobs when it is done,
and with the job and nothing changed otherwise. -/
structure Resolved (σ : Session) (target : Option Job) (r : Option Job × Session) : Prop where
  missing : target = none → r.1 = none ∧ r.2.shell = σ.shell
  done : ∀ j, target = some j → j.status = .done →
    r.1 = none ∧ r.2.shell = { σ.shell with jobs := σ.shell.jobs.cleanup.2 }
  found : ∀ j, target = some j → j.status ≠ .done → r = (some j, σ)

theorem jobTarget_run (args : List String) {fallback : ShellM (Except String Job)} {σ : Session}
    {default : Option Job} (stays : (fallback.run σ).2 = σ)
    (picks : (fallback.run σ).1.toOption = default) :
    Resolved σ (σ.shell.jobs.target? default args) ((jobTarget args fallback).run σ) := by
  unfold jobTarget
  dsimp -zeta only
  extract_lets name decide
  -- what follows the lookup is a join point of the code
  have deciding : ∀ found : Except String Job, found.toOption = σ.shell.jobs.target? default args →
      Resolved σ (σ.shell.jobs.target? default args) ((decide found).run σ) := by
    intro found named
    cases found with
    | error msg =>
      refine ⟨fun _ => ⟨rfl, rfl⟩, (fun j picked => ?_), (fun j picked => ?_)⟩ <;>
        · rw [← named] at picked
          cases picked
    | ok j =>
      simp only [Except.toOption] at named
      refine ⟨(fun missing => by rw [missing] at named; cases named), (fun k picked done => ?_),
        (fun k picked running => ?_)⟩
      · rw [← named, Option.some.injEq] at picked
        subst picked
        simp only [decide, done, beq_self_eq_true, if_true]
        exact ⟨rfl, rfl⟩
      · rw [← named, Option.some.injEq] at picked
        subst picked
        simp only [decide, beq_iff_eq, running, if_false]
        rfl
  split
  · rw [ShellM.run_bind, stays]
    exact deciding _ picks
  · rw [ShellM.run_bind, (jobSpec_run name _ σ).1]
    exact deciding _ (jobSpec_run name _ σ).2
  · rename_i one two
    have none : σ.shell.jobs.target? default args = none := by
      unfold Table.target?
      split
      · rename_i x
        exact absurd rfl (one x)
      · rename_i x spec
        exact absurd rfl (two x spec)
      · rfl
    exact deciding (.error _) none.symm

/-! ## Continuing a job in the foreground -/

/-- How waiting for the job `j` of the table `t`, continued in the foreground, ends with the
status `code` and the table `t'`, given the wait's `reply`: a failed wait leaves the job Running,
a stop puts it back in the background as Stopped, and anything else removes it and gives its
exit status. -/
structure ForegroundOutcome (t : Table) (j : Job) (reply : Except Errno WaitStatus) (code : Int)
    (t' : Table) : Prop where
  failed : ∀ e, reply = .error e → code = 1 ∧
    t.update? j.id (fun k => { k with status := .running, background := false }) = some t'
  stopped : ∀ ws, reply = .ok ws → ws.stopped = true → code = 0 ∧
    t.update? j.id (fun k => { k with status := .stopped, background := true }) = some t'
  ended : ∀ ws, reply = .ok ws → ws.stopped = false →
    code = (if ws.ended then ws.shellStatus else j.exitStatus) ∧
      (ws.ended → 0 ≤ code ∧ code ≤ 255) ∧ t.remove j.id = .ok t'

namespace ForegroundOutcome

variable {t t' : Table} {j : Job} {reply : Except Errno WaitStatus}

theorem of_error {e : Errno} (replied : reply = .error e)
    (resumed : t.update? j.id (fun k => { k with status := .running, background := false }) = some t') :
    ForegroundOutcome t j reply 1 t' := by
  subst replied
  exact ⟨fun _ _ => ⟨rfl, resumed⟩, (fun _ same => by cases same), (fun _ same => by cases same)⟩

theorem of_stop {ws : WaitStatus} (replied : reply = .ok ws) (stop : ws.stopped = true)
    (stopped : t.update? j.id (fun k => { k with status := .stopped, background := true }) = some t') :
    ForegroundOutcome t j reply 0 t' := by
  subst replied
  refine ⟨(fun _ same => by cases same), (fun _ _ _ => ⟨rfl, stopped⟩), (fun ws' same running => ?_)⟩
  cases same
  rw [stop] at running
  cases running

theorem of_end {ws : WaitStatus} (replied : reply = .ok ws) (running : ws.stopped = false)
    (removed : t.remove j.id = .ok t') :
    ForegroundOutcome t j reply (if ws.ended then ws.shellStatus else j.exitStatus) t' := by
  subst replied
  refine ⟨(fun _ same => by cases same), (fun ws' same stop => ?_), (fun ws' same _ => ?_)⟩
  · cases same
    rw [running] at stop
    cases stop
  · cases same
    refine ⟨rfl, fun finished => ?_, removed⟩
    rw [if_pos finished]
    exact WaitStatus.shellStatus_range finished

end ForegroundOutcome

/-- Rewriting a job of a known shell puts the rewritten table in place and touches no system. -/
theorem updateJob_shell {id : Int} {f : Job → Job} {S : Shell} {t : Table} {W : System → Prop}
    (updated : S.jobs.update? id f = some t) :
    Triple (fun σ => σ.shell = S ∧ W σ.world.system) (updateJob id f)
      fun _ σ => σ.shell = { S with jobs := t } ∧ W σ.world.system := by
  refine updateJob_spec (fun σ t' ⟨same, kept⟩ written => ?_) fun σ ⟨same, _⟩ missed => ?_
  · rw [same, updated, Option.some.injEq] at written
    subst written
    exact ⟨by rw [same], kept⟩
  · rw [same, updated] at missed
    cases missed

theorem jobEvent_shell {name : String} {id : Int} {S : Shell} {W : System → Prop} :
    Triple (fun σ => σ.shell = S ∧ W σ.world.system) (jobEvent name id)
      fun _ σ => σ.shell = S ∧ W σ.world.system :=
  jobEvent_spec fun _ _ ⟨same, kept⟩ logs => ⟨logs.shell.trans same, logs.system ▸ kept⟩

/-- Looking up a job that the shell `S` holds finds it and changes nothing. -/
theorem bind_job?_found {α : Type} {S : Shell} {W : Session → Prop} {id : Int} {j : Job}
    (found : S.jobs.get? id = some j) {f : Option Job → ShellM α} {Q : α → Session → Prop}
    (next : Triple (fun σ => σ.shell = S ∧ W σ) (f (some j)) Q) :
    Triple (fun σ => σ.shell = S ∧ W σ) (job? id >>= f) Q := by
  refine .bind (job?_spec id) fun looked => ?_
  refine (Triple.assume fun picked => ?_).weaken fun σ read =>
    ⟨read.1, show looked = some j by rw [read.2, read.1.1, found]⟩
  subst picked
  exact next

/-- Continuing the job `j` of a well-formed table and waiting for it, from a shell `S`: the wait
is asked of the system `sys` that the continue signal leaves, and its reply decides the table and
the status as `ForegroundOutcome` says; nothing else of the shell changes. -/
theorem resumeAndWait_outcome (j : Job) {S : Shell} {sys : System} (wf : S.jobs.WellFormed)
    (found : S.jobs.get? j.id = some j) :
    Triple (fun σ => σ.shell = S ∧ (if j.status = .stopped then
        ((kill (-j.group) sigCont).run σ).2.world.system else σ.world.system) = sys)
      (resumeAndWait j.id j) fun code σ' =>
        ForegroundOutcome S.jobs j (sys.await j.pid WaitOptions.untraced).1 code σ'.shell.jobs ∧
          σ'.shell = { S with jobs := σ'.shell.jobs } := by
  unfold resumeAndWait
  extract_lets stopped resume
  -- the job is first marked Running in the foreground
  obtain ⟨T₁, resumed⟩ := Table.update?_of_get? found
    (fun k => { k with status := .running, background := false })
  have resumed_found : T₁.get? j.id = some { j with status := .running, background := false } := by
    rw [Table.get?_update? (f := fun k => { k with status := .running, background := false })
      (fun _ => rfl) resumed, found]
    rfl
  have resuming : Triple (fun σ => σ.shell = S ∧ σ.world.system = sys) (resume ())
      fun code σ' => ForegroundOutcome S.jobs j (sys.await j.pid WaitOptions.untraced).1 code
        σ'.shell.jobs ∧ σ'.shell = { S with jobs := σ'.shell.jobs } := by
    refine .bind (updateJob_shell (W := (· = sys)) resumed) fun _ =>
      .bind (jobEvent_shell (W := (· = sys))) fun _ => ?_
    have waited : Triple (fun σ => σ.shell = { S with jobs := T₁ } ∧ σ.world.system = sys)
        (waitFor j.pid WaitOptions.untraced) fun reply σ =>
          σ.shell = { S with jobs := T₁ } ∧ reply = (sys.await j.pid WaitOptions.untraced).1 :=
      (waitFor_await j.pid WaitOptions.untraced).mono
        fun reply σ' ⟨σ, ⟨same, system⟩, replied, after⟩ => ⟨after ▸ same, system ▸ replied⟩
    refine .bind waited fun reply => ?_
    cases reply with
    | error e =>
      refine .bind (Q := fun _ σ => σ.shell = { S with jobs := T₁ } ∧
        .error e = (sys.await j.pid WaitOptions.untraced).1) (fun σ pre => pre)
        fun _ => .pure fun σ ⟨same, replied⟩ => ?_
      rw [same]
      exact ⟨.of_error replied.symm resumed, rfl⟩
    | ok ws =>
      dsimp only
      split
      · rename_i stop
        -- a stop puts the job back in the background as Stopped
        obtain ⟨T₂, put_back⟩ := Table.update?_of_get? resumed_found
          (fun k => { k with status := .stopped, background := true })
        have stopped_outcome : ForegroundOutcome S.jobs j (.ok ws) 0 T₂ :=
          .of_stop rfl stop (Table.update?_update?
            (f := fun k => { k with status := .running, background := false }) (fun _ => rfl)
            resumed put_back)
        have stopping : Triple (fun σ => σ.shell = { S with jobs := T₂ } ∧
            .ok ws = (sys.await j.pid WaitOptions.untraced).1) (stopped ())
            fun code σ' => ForegroundOutcome S.jobs j (sys.await j.pid WaitOptions.untraced).1 code
              σ'.shell.jobs ∧ σ'.shell = { S with jobs := σ'.shell.jobs } := by
          refine .bind (jobEvent_shell (W := fun _ => .ok ws = (sys.await j.pid WaitOptions.untraced).1))
            fun _ => .pure fun σ ⟨same, replied⟩ => ?_
          rw [same, ← replied]
          exact ⟨stopped_outcome, rfl⟩
        refine .bind (updateJob_shell (W := fun _ => .ok ws = (sys.await j.pid WaitOptions.untraced).1)
          put_back) fun _ => .bind (job?_spec j.id) fun notice => ?_
        split
        · exact .bind (fun σ ⟨pre, _⟩ => pre) fun _ => stopping
        · exact stopping.weaken fun σ ⟨pre, _⟩ => pre
      · rename_i running
        -- anything else is an end: the job is recorded, then removed
        obtain ⟨T₂, recorded⟩ := Table.update?_of_get? resumed_found fun k => (k.record ws).2
        obtain ⟨exit_status, same_removal⟩ := Table.remove_after_record wf resumed recorded found
        obtain ⟨T₃, removed⟩ := Table.remove_ok_of_get? found
        have ended_outcome : ForegroundOutcome S.jobs j (.ok ws)
            (if ws.ended then ws.shellStatus else j.exitStatus) T₃ :=
          .of_end rfl (by simpa using running) removed
        refine .bind (updateJob_shell (W := fun _ => .ok ws = (sys.await j.pid WaitOptions.untraced).1)
          recorded) fun _ =>
          .bind (jobEvent_shell (W := fun _ => .ok ws = (sys.await j.pid WaitOptions.untraced).1))
            fun _ => ?_
        refine .bind (job?_spec j.id) fun last => .bind jobs_spec fun t => ?_
        split
        · rename_i t' removed'
          refine .bind (setJobs_spec fun σ ⟨⟨⟨same, replied⟩, read⟩, current⟩ => ?_) fun _ =>
            .pure fun σ done => done
          have read : last = T₂.get? j.id := by rw [read, same]
          have current : t = T₂ := by rw [current, same]
          rw [current, same_removal, removed, Except.ok.injEq] at removed'
          subst removed'
          rw [read, exit_status, ← replied, same]
          exact ⟨ended_outcome, rfl⟩
        · rename_i failure unremoved
          exact fun σ ⟨⟨⟨same, _⟩, _⟩, current⟩ => by
            have current : t = T₂ := by rw [current, same]
            rw [current, same_removal, removed] at unremoved
            cases unremoved
  by_cases stopped_job : j.status = .stopped
  · simp only [stopped_job, beq_self_eq_true, if_true]
    refine .bind (Q := fun _ σ => σ.shell = S ∧ σ.world.system = sys)
      (fun σ ⟨same, system⟩ => ⟨(kill_shell _ _ σ).trans same, system⟩) fun e => ?_
    split
    · split
      · exact .bind (fun σ pre => pre) fun _ => resuming
      · exact resuming
    · exact resuming
  · have running_job : (j.status == .stopped) = false := by simpa using stopped_job
    simp only [stopped_job, running_job, if_false]
    exact resuming

/-- The continue signal acts on the world alone. -/
theorem kill_system_of_shell (target : Int) (sig : Nat) (σ : Session) (sh : Shell) :
    ((kill target sig).run { σ with shell := sh }).2.world.system =
      ((kill target sig).run σ).2.world.system := by
  obtain ⟨_, ⟨_, _, _, _, _, system, _, _, _, _⟩⟩ := σ
  cases system <;> rfl

/-- Bringing job `j` of a well-formed table to the foreground: it is continued and waited for as
`resumeAndWait_outcome` says, and the shell has the keyboard back afterwards. -/
theorem foreground_outcome (j : Job) {S : Shell} {sys : System} (wf : S.jobs.WellFormed)
    (found : S.jobs.get? j.id = some j) :
    Triple (fun σ => σ.shell = S ∧ (if j.status = .stopped then
        ((kill (-j.group) sigCont).run σ).2.world.system else σ.world.system) = sys)
      (foreground j.id) fun code σ' =>
        ForegroundOutcome S.jobs j (sys.await j.pid WaitOptions.untraced).1 code σ'.shell.jobs ∧
          σ'.shell = { S with jobs := σ'.shell.jobs, foreground := 0 } := by
  unfold foreground
  refine bind_job?_found found ?_
  unfold withForeground
  -- the keyboard goes to the job's group, which the signal and the wait do not read
  refine .bind (Q := fun _ σ => σ.shell = { S with foreground := j.group } ∧
    (if j.status = .stopped then ((kill (-j.group) sigCont).run σ).2.world.system
      else σ.world.system) = sys)
    (fun σ ⟨same, system⟩ => ⟨congrArg ({ · with foreground := j.group }) same, ?_⟩) fun _ => ?_
  · rw [← system]
    split
    · exact kill_system_of_shell _ _ σ _
    · rfl
  refine .bind (resumeAndWait_outcome j (S := { S with foreground := j.group }) wf found)
    fun code => ?_
  exact .bind (Q := fun _ σ => ForegroundOutcome S.jobs j (sys.await j.pid WaitOptions.untraced).1
    code σ.shell.jobs ∧ σ.shell = { S with jobs := σ.shell.jobs, foreground := 0 })
    (fun σ ⟨outcome, same⟩ => ⟨outcome, show { σ.shell with foreground := 0 } =
      { S with jobs := σ.shell.jobs, foreground := 0 } by rw [same]⟩)
    fun _ => .pure fun _ done => done

/-! ## Continuing a job in the background -/

/-- Continuing job `j` in the background: the continue signal's error is the result, and only a
signal that went through marks the job Running in the background. -/
theorem background_outcome (j : Job) {S : Shell} {sent : Option Errno}
    (found : S.jobs.get? j.id = some j) :
    Triple (fun σ => σ.shell = S ∧ ((kill (-j.group) sigCont).run σ).1 = sent)
      (background j.id) fun r σ' => r = sent ∧
        (sent = none → ∃ t, S.jobs.update? j.id
          (fun k => { k with status := .running, background := true }) = some t ∧
            σ'.shell = { S with jobs := t }) ∧
        (sent ≠ none → σ'.shell = S) := by
  unfold background
  refine bind_job?_found found ?_
  refine .bind (Q := fun e σ => σ.shell = S ∧ e = sent)
    (fun σ ⟨same, signalled⟩ => ⟨(kill_shell _ _ σ).trans same, signalled⟩) fun e => ?_
  cases e with
  | some e =>
    refine .pure fun σ ⟨same, signalled⟩ => ⟨signalled, fun gone => ?_, fun _ => same⟩
    rw [← signalled] at gone
    cases gone
  | none =>
    obtain ⟨t, continued⟩ := Table.update?_of_get? found
      (fun k => { k with status := .running, background := true })
    refine .bind (updateJob_shell (W := fun _ => none = sent) continued) fun _ =>
      .bind (jobEvent_shell (W := fun _ => none = sent)) fun _ =>
        .pure fun σ ⟨same, signalled⟩ => ?_
    exact ⟨signalled, fun _ => ⟨t, continued, same⟩, fun sent_some => absurd signalled.symm sent_some⟩

/-! ## Catching up with the children -/

theorem catchUp_shell (σ : Session) (filled : ∀ s ∈ σ.shell.jobs.slots, s.isSome) :
    (catchUp.run σ).2.shell =
      { σ.shell with
        childExited := false
        jobs := (σ.shell.jobs.reconcileFilled σ.world.system).2.1 } := by
  obtain ⟨target, is_target⟩ : ∃ sh : Shell, sh =
      { σ.shell with
        childExited := false
        jobs := (σ.shell.jobs.reconcileFilled σ.world.system).2.1 } := ⟨_, rfl⟩
  rw [← is_target]
  have caught : Triple (· = σ) catchUp fun _ σ' => σ'.shell = target := by
    unfold catchUp takeChildExited reconcile
    refine .bind (Q := fun _ σ' => σ'.shell = { σ.shell with childExited := false } ∧
      σ'.world = σ.world) (fun σ' same => by subst same; exact ⟨rfl, rfl⟩) fun _ => ?_
    refine .bind get_spec fun s => ?_
    split
    · -- every slot holds a job, so reconciling does not fault
      rename_i f faulted
      intro σ' pre
      obtain ⟨⟨same, world⟩, rfl⟩ := pre
      rw [same, world, Table.reconcile_eq_ok filled] at faulted
      cases faulted
    rename_i ids t sys reconciled
    -- the table is replaced by the reconciled one; the reports after it touch only the log
    refine .bind (setJobs_spec (Q := fun σ' => σ'.shell = target)
      fun σ' ⟨⟨same, world⟩, read⟩ => ?_) fun _ => ?_
    · subst read
      rw [same, world, Table.reconcile_eq_ok filled] at reconciled
      rw [same, is_target, Except.ok.inj reconciled]
    refine .bind (Q := fun _ σ' => σ'.shell = target) (fun σ' pre => pre) fun _ => ?_
    refine .bind (Triple.forIn (fun _ _ σ' => σ'.shell = target) fun id rest _ => ?_)
      fun _ => .pure fun σ' ⟨_, same⟩ => same
    refine .bind (job?_spec id) fun found => ?_
    cases found with
    | none => exact .pure fun σ' ⟨same, _⟩ => same
    | some j =>
      dsimp only
      split <;> exact .bind (jobEvent_spec fun σ' σ'' ⟨same, _⟩ logs => logs.shell.trans same)
        fun _ => .pure fun _ same => same
  exact caught σ rfl

/-- Catching up keeps the job table well formed. -/
theorem catchUp_wellFormed {σ : Session} (wf : σ.shell.jobs.WellFormed) :
    (catchUp.run σ).2.shell.jobs.WellFormed := by
  rw [catchUp_shell σ wf.filled]
  exact wf.reconcile _

/-! ## The builtins -/

/-- `fg` and `bg` refuse to run in a pipeline stage, and otherwise first catch up with the
children: in a shell with job control, what follows runs from the session catching up leaves. -/
theorem catchUp_unless_stage {α : Type} {σ : Session} (control : σ.shell.stage = false)
    {refuse rest : ShellM α} {Q : α → Session → Prop}
    (ran : Triple (· = (catchUp.run σ).2) rest Q) :
    Triple (· = σ) (shell >>= fun sh => if sh.stage = true then refuse else catchUp >>= fun _ => rest)
      Q := by
  refine .bind shell_spec fun sh => ?_
  by_cases stage : sh.stage = true
  · intro σ' read
    rw [read.2, read.1, control] at stage
    cases stage
  rw [if_neg stage]
  exact .bind (Q := fun _ σ' => σ' = (catchUp.run σ).2) (fun σ' read => by rw [read.1]) fun _ => ran

/-- How `fg` or `bg` ends in `r` when it goes on with no job, from the session `σ₁` it caught up
to and the job `target` its arguments name: with status 1 and the shell as it was when no job is
named, and with status 1 after the done jobs are cleaned up when a done one is. -/
structure Settles (σ₁ : Session) (target : Option Job) (r : Int × Session) : Prop where
  missing : target = none → r.1 = 1 ∧ r.2.shell = σ₁.shell
  done : ∀ j, target = some j → j.status = .done →
    r.1 = 1 ∧ r.2.shell = { σ₁.shell with jobs := σ₁.shell.jobs.cleanup.2 }

theorem Resolved.settles {σ₁ σ' : Session} {target : Option Job}
    (resolved : Resolved σ₁ target (none, σ')) : Settles σ₁ target (1, σ') :=
  ⟨fun missing => ⟨rfl, (resolved.missing missing).2⟩,
    fun j picked done => ⟨rfl, (resolved.done j picked done).2⟩⟩

theorem Resolved.no_job {σ₁ σ' : Session} {target : Option Job}
    (resolved : Resolved σ₁ target (none, σ')) {j : Job} (picked : target = some j)
    (running : j.status ≠ .done) : False := by
  cases resolved.found j picked running

theorem Resolved.of_some {σ₁ σ' : Session} {target : Option Job} {j : Job}
    (resolved : Resolved σ₁ target (some j, σ')) :
    target = some j ∧ j.status ≠ .done ∧ σ' = σ₁ := by
  cases picked : target with
  | none => cases (resolved.missing picked).1
  | some k =>
    by_cases done : k.status = .done
    · cases (resolved.done k picked done).1
    · cases resolved.found k picked done
      exact ⟨rfl, done, rfl⟩

theorem Settles.of_some {σ₁ : Session} {target : Option Job} {j : Job} {r : Int × Session}
    (picked : target = some j) (running : j.status ≠ .done) : Settles σ₁ target r := by
  refine ⟨fun missing => ?_, fun k same done => ?_⟩
  · rw [picked] at missing
    cases missing
  · rw [picked, Option.some.injEq] at same
    subst same
    exact absurd done running

/-- What `fg` does from the session `σ₁` it caught up to, with the arguments `args`, ending in
`r`: unless it settles as `Settles` says, the job its arguments name is continued (when it was
stopped, with a continue signal sent after the command is printed) and waited for, with the
outcome `ForegroundOutcome` gives, and the shell has the keyboard back. -/
structure FgOutcome (σ₁ : Session) (args : List String) (r : Int × Session) : Prop where
  settles : Settles σ₁ (σ₁.shell.jobs.target? σ₁.shell.jobs.current?.join args) r
  waited : ∀ j, σ₁.shell.jobs.target? σ₁.shell.jobs.current?.join args = some j →
    j.status ≠ .done →
    ForegroundOutcome σ₁.shell.jobs j
      ((if j.status = .stopped then
        ((kill (-j.group) sigCont).run ((say (displayCommand j ++ "\n")).run σ₁).2).2.world.system
        else σ₁.world.system).await j.pid WaitOptions.untraced).1 r.1 r.2.shell.jobs ∧
    r.2.shell = { σ₁.shell with jobs := r.2.shell.jobs, foreground := 0 }

/-- What `bg` does from the session `σ₁` it caught up to, with the arguments `args`, ending in
`r`: unless it settles as `Settles` says, a running job is left as it is, and a stopped one is
sent the continue signal: when the signal goes through, the job is marked Running in the
background, and otherwise nothing changes. -/
structure BgOutcome (σ₁ : Session) (args : List String) (r : Int × Session) : Prop where
  settles : Settles σ₁ (σ₁.shell.jobs.target? (σ₁.shell.jobs.lastWithStatus? .stopped) args) r
  running : ∀ j, σ₁.shell.jobs.target? (σ₁.shell.jobs.lastWithStatus? .stopped) args = some j →
    j.status = .running → r.1 = 0 ∧ r.2.shell = σ₁.shell
  continued : ∀ j, σ₁.shell.jobs.target? (σ₁.shell.jobs.lastWithStatus? .stopped) args = some j →
    j.status = .stopped → ((kill (-j.group) sigCont).run σ₁).1 = none →
    r.1 = 0 ∧ ∃ t, σ₁.shell.jobs.update? j.id
      (fun k => { k with status := .running, background := true }) = some t ∧
        r.2.shell = { σ₁.shell with jobs := t }
  refused : ∀ j, σ₁.shell.jobs.target? (σ₁.shell.jobs.lastWithStatus? .stopped) args = some j →
    j.status = .stopped → ((kill (-j.group) sigCont).run σ₁).1 ≠ none →
    r.1 = 1 ∧ r.2.shell = σ₁.shell

/-- `bg`'s outcome with the job `j` its arguments name, as what happens to that job. -/
theorem BgOutcome.of_job {σ₁ : Session} {args : List String} {r : Int × Session} {j : Job}
    (picked : σ₁.shell.jobs.target? (σ₁.shell.jobs.lastWithStatus? .stopped) args = some j)
    (unfinished : j.status ≠ .done) (running : j.status = .running → r.1 = 0 ∧ r.2.shell = σ₁.shell)
    (continued : j.status = .stopped → ((kill (-j.group) sigCont).run σ₁).1 = none →
      r.1 = 0 ∧ ∃ t, σ₁.shell.jobs.update? j.id
        (fun k => { k with status := .running, background := true }) = some t ∧
          r.2.shell = { σ₁.shell with jobs := t })
    (refused : j.status = .stopped → ((kill (-j.group) sigCont).run σ₁).1 ≠ none →
      r.1 = 1 ∧ r.2.shell = σ₁.shell) : BgOutcome σ₁ args r := by
  have only : ∀ k, σ₁.shell.jobs.target? (σ₁.shell.jobs.lastWithStatus? .stopped) args = some k →
      k = j := fun k same => Option.some.inj (same.symm.trans picked)
  refine ⟨.of_some picked unfinished, fun k same => ?_, fun k same => ?_, fun k same => ?_⟩ <;>
    rw [only k same]
  exacts [running, continued, refused]

theorem fgBuiltin_outcome (σ : Session) (args : List String) (control : σ.shell.stage = false)
    (wf : σ.shell.jobs.WellFormed) : FgOutcome (catchUp.run σ).2 args ((fgBuiltin args).run σ) := by
  obtain ⟨σ₁, caught⟩ : ∃ σ₁, σ₁ = (catchUp.run σ).2 := ⟨_, rfl⟩
  rw [← caught]
  have wf₁ : σ₁.shell.jobs.WellFormed := caught ▸ catchUp_wellFormed wf
  suffices run : Triple (· = σ) (fgBuiltin args) fun code σ' => FgOutcome σ₁ args (code, σ') from
    run σ rfl
  unfold fgBuiltin
  extract_lets name fallback
  -- without an operand, `fg` goes on with the current job
  have falls : (fallback.run σ₁).2 = σ₁ ∧
      (fallback.run σ₁).1.toOption = σ₁.shell.jobs.current?.join := by
    simp only [fallback]
    rw [jobs_bind_run]
    split
    · rename_i j found
      rw [found]
      exact ⟨rfl, rfl⟩
    · rename_i missing
      rw [join_eq_none_of_forall missing]
      exact ⟨rfl, rfl⟩
  refine catchUp_unless_stage control ?_
  rw [← caught]
  refine .bind (Q := fun r σ' => Resolved σ₁ (σ₁.shell.jobs.target? σ₁.shell.jobs.current?.join args)
    (r, σ')) (fun σ' same => by subst same; exact jobTarget_run args falls.1 falls.2) fun found => ?_
  cases found with
  | none =>
    exact .pure fun σ' resolved =>
      ⟨resolved.settles, fun j picked running => (resolved.no_job picked running).elim⟩
  | some j =>
    intro σ' resolved
    obtain ⟨picked, running, rfl⟩ := resolved.of_some
    have found : σ'.shell.jobs.get? j.id = some j := wf₁.get?_of_mem
      (Table.target?_mem picked fun current => Table.slot?_mem (Option.join_eq_some_iff.mp current))
    have printed : Triple (· = σ') (say (displayCommand j ++ "\n")) fun _ σ => σ.shell = σ'.shell ∧
        (if j.status = .stopped then ((kill (-j.group) sigCont).run σ).2.world.system
          else σ.world.system) =
        (if j.status = .stopped then ((kill (-j.group) sigCont).run
          ((say (displayCommand j ++ "\n")).run σ').2).2.world.system else σ'.world.system) :=
      fun σ same => by subst same; exact ⟨rfl, rfl⟩
    have continued : Triple (· = σ') (say (displayCommand j ++ "\n") >>= fun _ => foreground j.id)
        fun code σ'' => FgOutcome σ' args (code, σ'') := by
      refine .bind printed fun _ => (foreground_outcome j wf₁ found).mono ?_
      intro code σ'' ⟨outcome, shell⟩
      refine ⟨.of_some picked running, fun k same _ => ?_⟩
      rw [picked, Option.some.injEq] at same
      subst same
      exact ⟨outcome, shell⟩
    exact continued σ' rfl

theorem bgBuiltin_outcome (σ : Session) (args : List String) (control : σ.shell.stage = false)
    (wf : σ.shell.jobs.WellFormed) : BgOutcome (catchUp.run σ).2 args ((bgBuiltin args).run σ) := by
  obtain ⟨σ₁, caught⟩ : ∃ σ₁, σ₁ = (catchUp.run σ).2 := ⟨_, rfl⟩
  rw [← caught]
  have wf₁ : σ₁.shell.jobs.WellFormed := caught ▸ catchUp_wellFormed wf
  suffices run : Triple (· = σ) (bgBuiltin args) fun code σ' => BgOutcome σ₁ args (code, σ') from
    run σ rfl
  unfold bgBuiltin
  extract_lets name fallback
  -- without an operand, `bg` goes on with the last stopped job
  have falls : (fallback.run σ₁).2 = σ₁ ∧
      (fallback.run σ₁).1.toOption = σ₁.shell.jobs.lastWithStatus? .stopped := by
    simp only [fallback]
    rw [jobs_bind_run]
    split
    · rename_i empty
      rw [Table.lastWithStatus?_of_size_zero (by simpa using empty)]
      exact ⟨rfl, rfl⟩
    · split
      · rename_i j found
        rw [found]
        exact ⟨rfl, rfl⟩
      · rename_i missing
        rw [missing]
        exact ⟨rfl, rfl⟩
  refine catchUp_unless_stage control ?_
  rw [← caught]
  refine .bind (Q := fun r σ' => Resolved σ₁
    (σ₁.shell.jobs.target? (σ₁.shell.jobs.lastWithStatus? .stopped) args) (r, σ'))
    (fun σ' same => by subst same; exact jobTarget_run args falls.1 falls.2) fun found => ?_
  cases found with
  | none =>
    refine .pure fun σ' resolved => ⟨resolved.settles, fun j picked status => ?_,
      fun j picked status _ => ?_, fun j picked status _ => ?_⟩ <;>
      exact (resolved.no_job picked (by rw [status]; decide)).elim
  | some j =>
    refine (Triple.assume fun facts => ?_).weaken fun σ' resolved =>
      (⟨resolved.of_some.2.2, resolved.of_some.1, resolved.of_some.2.1⟩ :
        σ' = σ₁ ∧ _ ∧ j.status ≠ .done)
    obtain ⟨picked, unfinished⟩ := facts
    have found : σ₁.shell.jobs.get? j.id = some j := wf₁.get?_of_mem
      (Table.target?_mem picked fun last => (Table.lastWithStatus?_spec last).1)
    dsimp only
    split
    · rename_i already
      have already : j.status = .running := by simpa using already
      refine .bind (Q := fun _ σ => σ.shell = σ₁.shell) (fun σ same => by subst same; rfl)
        fun _ => .pure fun σ same => .of_job picked unfinished (fun _ => ⟨rfl, same⟩)
          (fun stopped => by rw [already] at stopped; cases stopped)
          (fun stopped => by rw [already] at stopped; cases stopped)
    · rename_i stopped
      have stopped : j.status = .stopped := by
        cases status : j.status
        · simp [status] at stopped
        · rfl
        · exact absurd status unfinished
      refine .bind ((background_outcome j found).weaken fun σ same => by subst same; exact ⟨rfl, rfl⟩)
        fun sent => ?_
      cases sent with
      | some e =>
        refine .bind (Q := fun _ σ => σ.shell = σ₁.shell ∧ ((kill (-j.group) sigCont).run σ₁).1 ≠ none)
          (fun σ ⟨signalled, _, refusal⟩ => ⟨refusal (signalled ▸ by simp), signalled ▸ by simp⟩)
          fun _ => .pure fun σ ⟨same, refusal⟩ => .of_job picked unfinished
            (fun running => by rw [stopped] at running; cases running)
            (fun _ sent => absurd sent refusal) (fun _ _ => ⟨rfl, same⟩)
      | none =>
        refine .bind (Q := fun _ σ => (∃ t, σ₁.shell.jobs.update? j.id
            (fun k => { k with status := .running, background := true }) = some t ∧
            σ.shell = { σ₁.shell with jobs := t }) ∧ ((kill (-j.group) sigCont).run σ₁).1 = none)
          (fun σ ⟨signalled, continuing, _⟩ => ⟨continuing signalled.symm, signalled.symm⟩)
          fun _ => .pure fun σ ⟨continued, signalled⟩ => .of_job picked unfinished
            (fun running => by rw [stopped] at running; cases running)
            (fun _ _ => ⟨rfl, continued⟩) (fun _ refusal => absurd signalled refusal)

/-- After `fg`, the keyboard signals go to the shell again, if they did before it. -/
theorem FgOutcome.releases {σ₁ : Session} {args : List String} {r : Int × Session}
    (outcome : FgOutcome σ₁ args r) (idle : σ₁.shell.foreground = 0) : r.2.shell.foreground = 0 := by
  cases picked : σ₁.shell.jobs.target? σ₁.shell.jobs.current?.join args with
  | none =>
    rw [(outcome.settles.missing picked).2]
    exact idle
  | some j =>
    by_cases done : j.status = .done
    · rw [(outcome.settles.done j picked done).2]
      exact idle
    · rw [(outcome.waited j picked done).2]

/-- What `fg` and `bg` do, in a shell with job control and a well-formed table: after catching up
with the children, each settles on the job its arguments name (none, or a done one) as `Settles`
says; `fg` continues and waits for its job as `FgOutcome` says, `bg` continues its job as
`BgOutcome` says, and no other job changes. Once `fg` returns, the keyboard signals go to the
shell again. -/
theorem fg_bg_outcomes (σ : Session) (args : List String) (control : σ.shell.stage = false)
    (wf : σ.shell.jobs.WellFormed) :
    FgOutcome (catchUp.run σ).2 args ((fgBuiltin args).run σ) ∧
      BgOutcome (catchUp.run σ).2 args ((bgBuiltin args).run σ) ∧
      (σ.shell.foreground = 0 → ((fgBuiltin args).run σ).2.shell.foreground = 0) := by
  have fg := fgBuiltin_outcome σ args control wf
  refine ⟨fg, bgBuiltin_outcome σ args control wf, fun idle => fg.releases ?_⟩
  rw [catchUp_shell σ wf.filled]
  exact idle

/-- A stopped job named by its number, in a shell with job control. -/
theorem fg_bg_stopped_job_outcomes :
    let stopped : Job :=
      { id := 1, pid := 7, pgid := 7, pids := [7], command := "sleep 9", status := .stopped
        background := true, exitStatus := 0 }
    let σ₀ := Session.start Settings.builtin [] { nodes := [([], .dir)] } [] "" (.scripted {}) []
    let σ : Session :=
      { σ₀ with shell := { σ₀.shell with jobs := { slots := [some stopped], listed := true, lastId := 1 } } }
    (σ.shell.stage = false ∧ σ.shell.jobs.WellFormed) ∧
      FgOutcome (catchUp.run σ).2 ["fg", "%1"] ((fgBuiltin ["fg", "%1"]).run σ) ∧
      BgOutcome (catchUp.run σ).2 ["fg", "%1"] ((bgBuiltin ["fg", "%1"]).run σ) ∧
      (σ.shell.foreground = 0 → ((fgBuiltin ["fg", "%1"]).run σ).2.shell.foreground = 0) := by
  intro stopped σ₀ σ
  have wf : σ.shell.jobs.WellFormed := ⟨by decide, by decide, by decide, by decide, by decide,
    by decide, by decide⟩
  exact ⟨⟨rfl, wf⟩, fg_bg_outcomes σ ["fg", "%1"] rfl wf⟩

end JobShell

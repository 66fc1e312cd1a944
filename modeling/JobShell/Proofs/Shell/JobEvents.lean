import JobShell.Proofs.Shell.JobControl
import JobShell.Proofs.Shell.ControlFlow

/-!
# The job events are a trace of the jobs' lifecycles

Whatever a session is asked to do, the job events it logs describe each job's life
faithfully (`job_events_trace_lifecycles`): every event carries the status its name says
the job has, a job's start is its first event, nothing follows its end, and one id is one
job. The system has to answer the waits of the run as `wait4` does: continues reach the polls
of a reconciliation, which ask for them, and no other wait.

The proof carries `Session.Tracing F` through every operation. Running a pipeline registers a
background job before it reports its start, and a pipeline stopped in the foreground becomes
a job before it is reported stopped (`registerBackground_tracing`, `waitPipeline_go_tracing`);
the job builtins and the catching up after each command are in `JobShell.Proofs.Shell.JobControl`;
the statements of a line reach pipelines only through the evaluator's rules, which keep any
property that pipelines, reported errors and statuses keep (`RunsStmts.keeps`).
-/
namespace JobShell

open ShellM Script

section Tracing

variable {F : List (Int × Nat)}

/-! ## Starting jobs -/

/-- A job just added is found by its id, Running. -/
theorem Table.WellFormed.get?_added {t t' : Table} {pid id : Int} {command : String}
    {background : Bool} (wf : t.WellFormed) (added : t.add pid command background = .ok (id, t'))
    {j : Job} (found : t'.get? id = some j) : j.status = .running := by
  obtain ⟨-, -, k, named, running, jobs⟩ := Table.add_jobs added
  have finds : t'.get? k.id = some k :=
    (wf.add added).get?_of_mem (jobs ▸ List.mem_append_right _ (List.mem_singleton_self k))
  rw [named, found] at finds
  cases finds
  exact running

/-- Putting in place the table a job was added to keeps the trace; the new job has no events
yet and is Running. -/
theorem setJobs_added {t t' : Table} {pid id : Int} {command : String} {background : Bool}
    (added : t.add pid command background = .ok (id, t')) :
    TripleOn F (fun σ => σ.Tracing F ∧ t = σ.shell.jobs) (setJobs t')
      fun _ σ => σ.Tracing F ∧ Unlogged σ.jobLog id ∧ σ.JobIs id (·.status = .running) :=
  setJobs_on fun σ ⟨inv, same⟩ => by
    subst same
    obtain ⟨rfl, -⟩ := Table.add_jobs added
    exact ⟨Traced.add inv added, inv.unlogged_next,
      fun _ found => inv.wellFormed.get?_added added found⟩

/-- Rewriting a job that has no events yet keeps the trace, whatever the rewrite does to it
besides its id. -/
theorem updateJob_unlogged {id : Int} {f : Job → Job} {S T : Job → Prop}
    (keeps_id : ∀ j, (f j).id = j.id) (maps : ∀ j, S j → T (f j)) :
    TripleOn F (fun σ => σ.Tracing F ∧ Unlogged σ.jobLog id ∧ σ.JobIs id S) (updateJob id f)
      fun _ σ => σ.Tracing F ∧ Unlogged σ.jobLog id ∧ σ.JobIs id T := by
  refine updateJob_on (fun σ t ⟨inv, unlogged, has⟩ updated =>
      ⟨inv.update_unlogged updated keeps_id unlogged, unlogged, fun j found => ?_⟩)
    fun σ ⟨inv, unlogged, _⟩ missed => ⟨inv, unlogged, fun j found => ?_⟩
  · change t.get? id = some j at found
    rw [Table.get?_update? keeps_id updated] at found
    obtain ⟨j₀, found₀, rfl⟩ := Option.map_eq_some_iff.mp found
    exact maps j₀ (has j₀ found₀)
  · rw [Table.update?_eq_none missed] at found
    cases found

/-- A background pipeline is registered before its start is reported, so the start is the
job's first event. -/
theorem registerBackground_tracing (p : Pipeline) (g : Group) :
    TripleOn F (Session.Tracing F) (registerBackground p g) fun _ => Session.Tracing F := by
  unfold registerBackground
  refine .bind jobs_on fun t => ?_
  split
  · -- a full table leaves the stages untracked
    refine .bind (Q := fun _ => Session.Tracing F) (fun _ on => ⟨on, fun pre => pre.1⟩)
      fun _ => .bind jobs_on fun t => ?_
    exact setJobs_on fun σ ⟨inv, same⟩ => same ▸ Traced.untrack inv g.pids
  · rename_i id t' added
    refine .bind (setJobs_added added) fun _ => ?_
    refine .bind (updateJob_unlogged (S := (·.status = .running)) (T := (·.status = .running))
      (fun _ => rfl) fun _ running => running) fun _ => ?_
    refine .bind (job?_on id) fun found => ?_
    cases found with
    | none => exact .pure fun σ ⟨⟨inv, _⟩, _⟩ => inv
    | some j =>
      refine .bind (Q := fun _ σ => σ.Tracing F ∧ Unlogged σ.jobLog id ∧
        σ.JobIs id (·.status = .running)) (fun _ on => ⟨on, fun pre => pre.1⟩) fun _ => ?_
      exact jobEvent_on fun σ σ' ⟨inv, unlogged, has⟩ logs =>
        logs.tracing inv (fun j found => by rw [has j found]; rfl) (fun _ => unlogged)
          unlogged.unfinished

/-- Registering the stages of a stopped or unfinished foreground pipeline keeps the trace; the
job it gives has no events yet and has the status asked for. -/
theorem adopt_spec (text : String) (g : Group) (pids : List Int) (st : JobStatus) :
    TripleOn F (Session.Tracing F) (adopt text g pids st) fun r σ => σ.Tracing F ∧
      ∀ id, r = some id → Unlogged σ.jobLog id ∧ σ.JobIs id (·.status = st) := by
  unfold adopt
  refine .bind jobs_on fun t => ?_
  split
  · refine .bind (Q := fun _ => Session.Tracing F) (fun _ on => ⟨on, fun pre => pre.1⟩) fun _ => ?_
    refine .bind (kill_on fun σ σ' inv keeps on => keeps.tracing on inv) fun _ => ?_
    refine .bind jobs_on fun t => ?_
    exact .bind (setJobs_on fun σ ⟨inv, same⟩ => same ▸ Traced.untrack inv pids)
      fun _ => .pure fun _ inv => ⟨inv, fun _ none => by cases none⟩
  · rename_i id t' added
    refine .bind (setJobs_added added) fun _ => ?_
    refine .bind (updateJob_unlogged (T := (·.status = st)) (fun _ => rfl) fun _ _ => rfl)
      fun _ => ?_
    exact .pure fun σ ⟨inv, unlogged, has⟩ => ⟨inv, fun k picked => by
      cases picked
      exact ⟨unlogged, has⟩⟩

/-- Waiting for a foreground pipeline keeps the trace: a stop turns what is left of it into a
new job, which is then reported stopped as its first event. -/
theorem waitPipeline_go_tracing (p : Pipeline) (g : Group) (pids : List Int) (status : Int) :
    TripleOn F (Session.Tracing F) (waitPipeline.go p g pids status) fun _ => Session.Tracing F := by
  induction pids generalizing status with
  | nil =>
    rw [waitPipeline.go]
    exact .pure fun _ inv => inv
  | cons pid rest ih =>
    rw [waitPipeline.go]
    refine .bind (waitFor_on (Q := fun _ => Session.Tracing F)
      fun σ σ' r inv keeps on _ => keeps.tracing on inv) fun r => ?_
    split
    · refine .bind (Q := fun _ => Session.Tracing F) (fun _ on => ⟨on, fun inv => inv⟩) fun _ => ?_
      split
      · exact .bind (adopt_spec _ _ _ _) fun _ => .pure fun _ post => post.1
      · exact ih status
    · split
      · refine .bind (adopt_spec _ _ _ _) fun adopted => ?_
        cases adopted with
        | none => exact .pure fun _ post => post.1
        | some id =>
          -- the stop is reported after the notice, once, about the new job
          have reporting : TripleOn F (fun σ => σ.Tracing F ∧ Unlogged σ.jobLog id ∧
              σ.JobIs id (·.status = .stopped)) (jobEvent Event.stopped id)
              fun _ => Session.Tracing F :=
            jobEvent_on fun σ σ' ⟨inv, unlogged, has⟩ logs =>
              logs.reports inv rfl has Event.stopped_ne_started unlogged.unfinished
          refine .bind (job?_on id) fun found => ?_
          have after : ∀ σ : Session, ((σ.Tracing F ∧ ∀ k, some id = some k → Unlogged σ.jobLog k ∧
              σ.JobIs k (·.status = .stopped)) ∧ found = σ.shell.jobs.get? id) →
              σ.Tracing F ∧ Unlogged σ.jobLog id ∧ σ.JobIs id (·.status = .stopped) :=
            fun σ ⟨⟨inv, adopted⟩, _⟩ => ⟨inv, adopted id rfl⟩
          cases found with
          | none => exact .bind (reporting.weaken after) fun _ => .pure fun _ inv => inv
          | some j =>
            exact .bind (fun σ on => ⟨on, after σ⟩) fun _ =>
              .bind reporting fun _ => .pure fun _ inv => inv
      · exact ih _

/-! ## Running a pipeline -/

/-- A builtin keeps the trace: the job commands by their own lemmas, every other one because
it leaves the jobs alone. -/
theorem runBuiltin_tracing (name : String) (args : List String) :
    TripleOn F (Session.Tracing F) (runBuiltin name args) fun _ => Session.Tracing F := by
  by_cases fg : name = "fg"
  · subst fg
    rw [runBuiltin]
    exact fgBuiltin_tracing args
  by_cases bg : name = "bg"
  · subst bg
    rw [runBuiltin]
    exact bgBuiltin_tracing args
  by_cases listing : name = "jobs"
  · subst listing
    rw [runBuiltin]
    exact jobsBuiltin_tracing args
  exact (runBuiltin_leavesJobs args ⟨fg, bg, listing⟩).tracing

theorem runTool_leavesJobs (tool : List String → ToolM Int) (args environ : List String) :
    LeavesJobs (runTool tool args environ) := by
  unfold runTool
  refine .bind .world fun w => ?_
  dsimp only
  split
  exact .bind (.modifyWorld fun _ => ⟨rfl, rfl⟩) fun _ => .pure _

/-- Running a pipeline keeps the trace, whichever way it runs: as a builtin or a tool in the
shell, in the background, in the foreground, or not at all. -/
theorem execute_tracing (p : Pipeline) :
    TripleOn F (Session.Tracing F) (execute p) fun _ => Session.Tracing F := by
  unfold execute
  split
  · exact .pure fun _ inv => inv
  · split
    · exact (LeavesJobs.bind (.log _) fun _ => .pure _).tracing
    · extract_lets launch
      -- starting the stages as a process group
      have launching : ∀ u, TripleOn F (Session.Tracing F) (launch u) fun _ => Session.Tracing F := by
        intro u
        refine .bind spawn_tracing fun spawned => ?_
        cases spawned with
        | error err =>
          refine .bind (LeavesJobs.log _).tracing fun _ => ?_
          exact .bind (recordEvent_execFailed_on fun σ σ' inv shell log system => by
            unfold Session.Tracing
            rw [shell, log, system]
            exact inv) fun _ => .pure fun _ inv => inv
        | ok g =>
          dsimp only
          split
          · exact .bind (registerBackground_tracing p g) fun _ => .pure fun _ inv => inv
          · exact TripleOn.withForeground (waitPipeline_go_tracing p g g.pids 0)
              (fun _ _ same inv => inv.of_jobState same) fun _ _ _ same inv => inv.of_jobState same
      split
      · split
        · split
          · exact runBuiltin_tracing _ _
          · split
            · exact (LeavesJobs.bind .world fun _ => runTool_leavesJobs _ _ _).tracing
            · exact launching ()
        · exact launching ()
      · exact launching ()

/-! ## Statements and lines -/

theorem LeavesJobs.setStatus (n : Int) : LeavesJobs (ShellM.setStatus n) :=
  LeavesJobs.modifyShell fun _ => rfl

theorem LeavesJobs.get : LeavesJobs (MonadState.get : ShellM Session) := fun _ => rfl

theorem buildCommand_leavesJobs (assigns : List Assign) (words : List Word)
    (redirs : List Redirect) : LeavesJobs (buildCommand assigns words redirs) := by
  unfold buildCommand scope
  exact .bind (.bind .get fun _ => .pure _) fun _ => .bind .shell fun _ => .pure _

theorem buildDecl_leavesJobs (variant : String) (args : List Assign) (redirs : List Redirect) :
    LeavesJobs (buildDecl variant args redirs) := by
  unfold buildDecl scope
  exact .bind (.bind .get fun _ => .pure _) fun _ => .pure _

/-- Building a pipeline from a statement reads the shell and sets only variables and the
status. -/
theorem pipelineOf_leavesJobs (s : Stmt) : LeavesJobs (pipelineOf s) := by
  unfold pipelineOf
  dsimp only
  repeat' first
    | with_reducible exact LeavesJobs.pure _
    | with_reducible exact LeavesJobs.setStatus _
    | with_reducible exact LeavesJobs.modifyShell fun _ => rfl
    | with_reducible exact buildCommand_leavesJobs _ _ _
    | with_reducible exact buildDecl_leavesJobs _ _ _
    | with_reducible refine LeavesJobs.bind ?_ fun _ => ?_
    | with_reducible refine LeavesJobs.forIn _ _ fun _ _ => ?_
    | split

theorem runPipeline_tracing (s : Stmt) :
    TripleOn F (Session.Tracing F) (runPipeline s) fun _ => Session.Tracing F := by
  unfold runPipeline
  refine .bind (pipelineOf_leavesJobs s).tracing fun built => ?_
  split
  · exact .pure fun _ inv => inv
  · exact .pure fun _ inv => inv
  · refine .bind (LeavesJobs.shell).tracing fun _ => ?_
    split
    · exact (LeavesJobs.bind (.log _) fun _ => .bind (.setStatus _) fun _ => .pure _).tracing
    · refine .bind (execute_tracing _) fun code => .bind (LeavesJobs.setStatus _).tracing fun _ => ?_
      split
      · exact (LeavesJobs.bind (.log _) fun _ => .pure _).tracing
      · exact .pure fun _ inv => inv

/-- A property of sessions that the leaves of the evaluator keep: every pipeline, the report
of a statement's error, and setting the status. -/
structure KeptByEvaluator (Inv : Session → Prop) : Prop where
  pipeline : ∀ s σ, s.RunsAsPipeline → Inv σ → Inv ((runPipeline s).run σ).2
  reported : ∀ σ e, Inv σ → Inv (σ.report e)
  statused : ∀ σ n, Inv σ → Inv (σ.withStatus n)

section Evaluator

/-! The evaluator reaches the session only through its leaves, so a property they keep holds
after any statements it runs, by recursion on the derivation. -/

variable {Inv : Session → Prop} (kept : KeptByEvaluator Inv)

include kept

mutual

theorem RunsStmts.keeps {σ σ' : Session} {l : List Stmt} : RunsStmts σ l σ' → Inv σ → Inv σ'
  | .nil _, inv => inv
  | .quit _, inv => inv
  | .ok _ first others, inv => others.keeps (first.keeps inv)
  | .error _ first others, inv => others.keeps (kept.reported _ _ (first.keeps inv))

theorem RunsStmt.keeps {σ σ' : Session} {s : Stmt} {r : Except String Unit} :
    RunsStmt σ s r σ' → Inv σ → Inv σ'
  | .plain _ command, inv => command.keeps inv
  | .negated _ command, inv => kept.statused _ _ (command.keeps inv)
  | .negated_error _ command, inv => command.keeps inv

theorem RunsCommand.keeps {σ σ' : Session} {s : Stmt} {r : Except String Unit} :
    RunsCommand σ s r σ' → Inv σ → Inv σ'
  | .pipeline leaf run, inv => by
    have after := kept.pipeline _ _ leaf inv
    rw [run] at after
    exact after
  | .refused _, inv => inv
  | .left_error _ left, inv => left.keeps inv
  | .left_quits _ left _, inv => left.keeps inv
  | .left_only _ left _ _, inv => left.keeps inv
  | .both left _ _ right, inv => right.keeps (left.keeps inv)
  | .cond run, inv => run.keeps inv
  | .block run, inv => run.keeps inv

theorem RunsClauses.keeps {σ σ' : Session} {clauses : List (List Stmt × List Stmt)} :
    RunsClauses σ clauses σ' → Inv σ → Inv σ'
  | .none_taken _, inv => kept.statused _ _ inv
  | .else_branch run, inv => run.keeps inv
  | .cond_quits _ test _, inv => test.keeps inv
  | .taken _ test _ _ run, inv => run.keeps (test.keeps inv)
  | .next _ test _ _ others, inv => others.keeps (test.keeps inv)

end

end Evaluator

theorem runStmts_tracing (stmts : List Stmt) :
    TripleOn F (Session.Tracing F) (runStmts stmts) fun _ => Session.Tracing F := by
  intro σ on
  have run := runStmts_runs stmts σ
  -- once off track a run stays so, and while on track every pipeline keeps the trace
  have stays_off : ¬σ.world.system.OnTrack F → ¬((runStmts stmts).run σ).2.world.system.OnTrack F :=
    run.keeps (⟨fun s σ _ off on => off (runPipeline_tracing s σ on).1, fun _ _ off => off,
      fun _ _ off => off⟩ : KeptByEvaluator fun σ => ¬σ.world.system.OnTrack F)
  have traced : (σ.world.system.OnTrack F → σ.Tracing F) →
      ((runStmts stmts).run σ).2.world.system.OnTrack F → ((runStmts stmts).run σ).2.Tracing F :=
    run.keeps (⟨fun s σ _ inv on => (runPipeline_tracing s σ on).2 (inv (runPipeline_tracing s σ on).1),
      fun _ _ inv => inv, fun _ _ inv => inv⟩ :
        KeptByEvaluator fun σ => σ.world.system.OnTrack F → σ.Tracing F)
  exact ⟨Classical.byContradiction fun off => stays_off off on, fun inv => traced (fun _ => inv) on⟩

theorem runLine_tracing (line : String) :
    TripleOn F (Session.Tracing F) (runLine line) fun _ => Session.Tracing F := by
  intro σ on
  cases parsed : parse line with
  | error e =>
    rw [runLine_run_error parsed] at on ⊢
    exact ⟨on, fun inv => inv⟩
  | ok stmts =>
    rw [runLine_run_ok parsed] at on ⊢
    have after := reapChildren_tracing _ on
    have before := runStmts_tracing stmts σ after.1
    exact ⟨before.1, fun inv => after.2 (before.2 inv)⟩

theorem runScript_tracing (text name : String) :
    TripleOn F (Session.Tracing F) (runScript text name) fun _ => Session.Tracing F := by
  unfold runScript
  split
  refine .bind (TripleOn.forIn (fun _ _ => Session.Tracing F) fun group rest _ => ?_)
    fun _ => ?_
  · refine .bind (runStmts_tracing group) fun _ => .bind reapChildren_tracing fun _ => ?_
    refine .bind (LeavesJobs.shell).tracing fun _ => ?_
    split <;> exact .pure fun _ inv => inv
  · -- what follows the loop only reports a syntax error
    refine (LeavesJobs.tracing ?_).weaken fun σ ⟨_, inv⟩ => inv
    dsimp only
    split
    · split
      · exact .bind (.log _) fun _ => .bind (.setStatus _) fun _ => .status
      · exact .status
    · exact .status

theorem runStartup_tracing : TripleOn F (Session.Tracing F) runStartup fun _ => Session.Tracing F := by
  unfold runStartup
  refine .bind (LeavesJobs.shell).tracing fun sh => ?_
  refine .bind (TripleOn.forIn (fun _ _ => Session.Tracing F) fun line rest _ => ?_)
    fun _ => .pure fun _ ⟨_, inv⟩ => inv
  refine .bind (LeavesJobs.shell).tracing fun _ => ?_
  split
  · exact .pure fun _ inv => inv
  · exact .bind (runLine_tracing line) fun _ => .pure fun _ inv => inv

/-- A signal keeps the trace: a keyboard signal that reaches the foreground group changes
only the system. -/
theorem handleSignal_tracing (sig : ShellSignal) :
    TripleOn F (Session.Tracing F) (handleSignal sig) fun _ => Session.Tracing F := by
  have forwarded : ∀ target sig', TripleOn F (Session.Tracing F) (do let _ ← kill target sig')
      fun _ => Session.Tracing F := fun _ _ =>
    .bind (kill_on fun _ _ inv keeps on => keeps.tracing on inv) fun _ => .pure fun _ inv => inv
  cases sig with
  | child => exact (LeavesJobs.modifyShell fun _ => rfl).tracing
  | interrupt =>
    refine .bind LeavesJobs.shell.tracing fun _ => ?_
    dsimp only
    split
    · exact forwarded _ _
    · exact (LeavesJobs.say _).tracing
  | suspend =>
    refine .bind LeavesJobs.shell.tracing fun _ => ?_
    dsimp only
    split
    · exact forwarded _ _
    · exact .pure fun _ inv => inv

/-! ## Sessions -/

/-- What a shell session is asked to do: run a command line, run a script, run the startup
commands of its configuration, or handle a signal. -/
inductive Request where
  | line (text : String)
  | script (text name : String)
  | startup
  | signal (sig : ShellSignal)
  deriving Repr

/-- Handles one request; the status it gives stays in the session. -/
def Request.run : Request → ShellM Unit
  | .line text => do let _ ← runLine text
  | .script text name => do let _ ← runScript text name
  | .startup => runStartup
  | .signal sig => handleSignal sig

/-- Handles requests in order. -/
def Request.runAll : List Request → ShellM Unit
  | [] => pure ()
  | r :: rest => do
    r.run
    Request.runAll rest

theorem Request.run_tracing (r : Request) :
    TripleOn F (Session.Tracing F) r.run fun _ => Session.Tracing F := by
  cases r with
  | line text => exact .bind (runLine_tracing text) fun _ => .pure fun _ inv => inv
  | script text name => exact .bind (runScript_tracing text name) fun _ => .pure fun _ inv => inv
  | startup => exact runStartup_tracing
  | signal sig => exact handleSignal_tracing sig

theorem Request.runAll_tracing (requests : List Request) :
    TripleOn F (Session.Tracing F) (Request.runAll requests) fun _ => Session.Tracing F := by
  induction requests with
  | nil => exact .pure fun _ inv => inv
  | cons r rest ih => exact .bind r.run_tracing fun _ => ih

end Tracing

/-- A new session has logged nothing and has no jobs, so its log is a trace as soon as its
system answers the waits `F` of the run as `wait4` does. -/
theorem Session.start_tracing (F : List (Int × Nat)) (settings : Settings) (environ : List String)
    (tree : Fs.Tree) (cwd : List String) (stdin : String) (system : System)
    (processEnv : List String) (answers : system.Wait4 F) :
    (Session.start settings environ tree cwd stdin system processEnv).Tracing F where
  lifecycles := .nil
  wellFormed := .empty _
  wait4 := answers
  issued := fun _ member => nomatch member
  agrees := fun _ member => nomatch member

/-- The job events a session logs are a faithful trace of its jobs' lifecycles, whatever it
is asked to do, as long as its system answers the waits the session makes as `wait4` does:
with a stop, an exit or a kill, or with a continue to a wait that asked for continues, as the
polls of a reconciliation do. Every event carries the status its name reports, a job's start
is its first event, nothing follows a job's end, and the events with one id are about one
job. -/
theorem job_events_trace_lifecycles (settings : Settings) (environ : List String)
    (tree : Fs.Tree) (cwd : List String) (stdin : String) (system : System)
    (processEnv : List String) (requests : List Request)
    (answers : system.Wait4 ((Request.runAll requests).run
      (Session.start settings environ tree cwd stdin system processEnv)).2.world.system.calls) :
    Lifecycles ((Request.runAll requests).run
      (Session.start settings environ tree cwd stdin system processEnv)).2.jobLog := by
  -- the run is judged against the waits it makes in the end, and it is on track for them
  have run := Request.runAll_tracing (F := ((Request.runAll requests).run
    (Session.start settings environ tree cwd stdin system processEnv)).2.world.system.calls)
    requests _ (List.prefix_refl _)
  exact (run.2 (Session.start_tracing _ settings environ tree cwd stdin system processEnv
    answers)).lifecycles

/-- A session on a host with no processes yet that starts a job in the background and
brings it to the foreground. -/
theorem background_then_foreground_traced :
    let σ := ((Request.runAll [.line "sleep 1 &", .line "fg"]).run
      (Session.start Settings.builtin [] { nodes := [([], .dir)] } [] "" (.live {}) [])).2
    (System.live {}).Wait4 σ.world.system.calls ∧ Lifecycles σ.jobLog := by
  intro σ
  -- a host with no children holds back no status
  have answers : (System.live {}).Wait4 σ.world.system.calls := fun _ member => nomatch member
  exact ⟨answers, job_events_trace_lifecycles _ _ _ _ _ _ _ _ answers⟩

end JobShell

import JobShell.Proofs.Shell.ControlFlow
import JobShell.Proofs.Shell.Triples

/-!
# What leaves the shell's variables alone

The shell's variables change in one place of a pipeline statement: a lone command of
assignments in the foreground applies them to the shell (`pipelineOf`). Everything else a
pipeline does, starting processes, waiting for them, recording jobs and their events, touches
the host, the job table and the status, never the variables.

`KeepsVars m` says that `m` ends with the variables it started with; it composes through
`bind`, loops and `forM` (`KeepsVars.bind`, `KeepsVars.forIn`, `KeepsVars.forM`), and every
operation of the job machinery has it, from the four host calls (`kill`, `launch`, `waitFor`,
`jobEvent`) up to running a built pipeline (`execute_keepsVars`) as long as it is not a lone
stage in the foreground.

A statement with two stages or more, or sent to the background, builds its stages without
applying any assignment (`pipelineOf_outside`), so running it keeps every variable
(`runPipeline_outside`), and so does running it as a statement of its own
(`runStmts_single_vars`).
-/
namespace JobShell

open Script ShellM

/-- A computation that leaves the shell's variables as they are. -/
def KeepsVars {α : Type} (m : ShellM α) : Prop :=
  ∀ σ, (m.run σ).2.shell.env = σ.shell.env

namespace KeepsVars

theorem bind {α β : Type} {x : ShellM α} {f : α → ShellM β} (first : KeepsVars x)
    (next : ∀ a, KeepsVars (f a)) : KeepsVars (x >>= f) :=
  bind_keeps (·.shell.env) first next

theorem pure {α : Type} (a : α) : KeepsVars (Pure.pure a : ShellM α) := fun _ => rfl

theorem forIn {β γ : Type} (l : List β) (init : γ) {f : β → γ → ShellM (ForInStep γ)}
    (body : ∀ a c, KeepsVars (f a c)) : KeepsVars (ForIn.forIn l init f) :=
  forIn_keeps (·.shell.env) l init body

theorem forM {β : Type} (l : List β) {f : β → ShellM PUnit} (body : ∀ a, KeepsVars (f a)) :
    KeepsVars (l.forM f) :=
  forM_keeps (·.shell.env) l body

end KeepsVars

theorem kill_keepsVars (target : Int) (sig : Nat) : KeepsVars (kill target sig) :=
  fun σ => congrArg Shell.env
    ((kill_spec (P := (· = σ)) (Q := fun σ' => σ.KeepsJobs σ') fun _ _ same keeps => same ▸ keeps)
      σ rfl).shell

theorem launch_keepsVars : KeepsVars launch :=
  fun σ => congrArg Shell.env
    ((launch_spec (P := (· = σ)) (Q := fun σ' => σ.KeepsJobs σ') fun _ _ same keeps => same ▸ keeps)
      σ rfl).shell

theorem waitFor_keepsVars (pid : Int) (opts : Nat) : KeepsVars (waitFor pid opts) :=
  fun σ => congrArg Shell.env
    ((waitFor_spec (P := (· = σ)) (Q := fun _ σ' => σ.KeepsJobs σ') fun _ _ _ same keeps _ => same ▸ keeps)
      σ rfl).shell

theorem jobEvent_keepsVars (name : String) (id : Int) : KeepsVars (jobEvent name id) :=
  fun σ => congrArg Shell.env
    ((jobEvent_spec (P := (· = σ)) (Q := fun σ' => σ'.shell = σ.shell)
      fun _ _ same logs => same ▸ logs.shell) σ rfl)

theorem updateJob_keepsVars (id : Int) (f : Job → Job) : KeepsVars (updateJob id f) := by
  unfold updateJob
  refine .bind (fun _ => rfl) fun t => ?_
  split
  · exact fun _ => rfl
  · exact .pure _

theorem recordEvent_keepsVars (e : Event) : KeepsVars (recordEvent e) := by
  unfold recordEvent
  refine .bind (fun _ => rfl) fun w => ?_
  split
  · exact fun _ => rfl
  · exact .pure _

theorem abort_keepsVars (g : Group) : KeepsVars (abort g) := by
  unfold abort
  split
  · exact .pure _
  · exact .bind (kill_keepsVars _ _) fun _ =>
      .forM _ fun _ => .bind (waitFor_keepsVars _ _) fun _ => .pure _

theorem launchStages_keepsVars (g : Group) (stages : List Command) :
    KeepsVars (launchStages g stages) := by
  induction stages generalizing g with
  | nil => exact .pure _
  | cons stage rest ih =>
    rw [launchStages]
    refine .bind launch_keepsVars fun r => ?_
    cases r with
    | error e => exact .bind (abort_keepsVars g) fun _ => .pure _
    | ok pid => exact ih _

theorem startGroup_keepsVars (p : Pipeline) (ps : Host.Procs) : KeepsVars (startGroup p ps) := by
  unfold startGroup
  refine .bind (fun _ => rfl) fun _ => .bind (fun _ => rfl) fun _ => .bind (fun _ => rfl) fun _ => ?_
  refine .bind (.forIn _ _ fun x c => ?_) fun _ => .bind (fun _ => rfl) fun _ => .pure _
  -- a round reads the host and writes it back: only the world changes
  split
  dsimp only
  split <;> exact .bind (fun _ => rfl) fun _ => .bind (fun _ => rfl) fun _ => .pure _

theorem spawn_keepsVars (p : Pipeline) : KeepsVars (spawn p) := by
  unfold spawn
  refine .bind (fun _ => rfl) fun w => ?_
  split
  · exact .bind (startGroup_keepsVars _ _) fun _ => .pure _
  · split
    · exact .pure _
    · exact launchStages_keepsVars _ _

theorem adopt_keepsVars (text : String) (g : Group) (pids : List Int) (st : JobStatus) :
    KeepsVars (adopt text g pids st) := by
  unfold adopt
  refine .bind (fun _ => rfl) fun t => ?_
  split
  · exact .bind (fun _ => rfl) fun _ => .bind (kill_keepsVars _ _) fun _ =>
      .bind (fun _ => rfl) fun _ => .bind (fun _ => rfl) fun _ => .pure _
  · exact .bind (fun _ => rfl) fun _ => .bind (updateJob_keepsVars _ _) fun _ => .pure _

theorem registerBackground_keepsVars (p : Pipeline) (g : Group) :
    KeepsVars (registerBackground p g) := by
  unfold registerBackground
  refine .bind (fun _ => rfl) fun t => ?_
  split
  · exact .bind (fun _ => rfl) fun _ => .bind (fun _ => rfl) fun _ => fun _ => rfl
  · refine .bind (fun _ => rfl) fun _ => .bind (updateJob_keepsVars _ _) fun _ => ?_
    refine .bind (fun _ => rfl) fun j => ?_
    split
    · exact .bind (fun _ => rfl) fun _ => jobEvent_keepsVars _ _
    · exact .pure _

theorem waitPipeline_go_keepsVars (p : Pipeline) (g : Group) (pids : List Int) (status : Int) :
    KeepsVars (waitPipeline.go p g pids status) := by
  induction pids generalizing status with
  | nil => exact .pure _
  | cons pid rest ih =>
    rw [waitPipeline.go]
    refine .bind (waitFor_keepsVars _ _) fun r => ?_
    cases r with
    | error e =>
      refine .bind (fun _ => rfl) fun _ => ?_
      split
      · exact .bind (adopt_keepsVars _ _ _ _) fun _ => .pure _
      · exact ih _
    | ok ws =>
      dsimp only
      split
      · refine .bind (adopt_keepsVars _ _ _ _) fun found => ?_
        cases found with
        | some id =>
          refine .bind (fun _ => rfl) fun j => ?_
          cases j with
          | some j => exact .bind (fun _ => rfl) fun _ => .bind (jobEvent_keepsVars _ _) fun _ => .pure _
          | none => exact .bind (jobEvent_keepsVars _ _) fun _ => .pure _
        | none => exact .pure _
      · exact ih _

theorem waitPipeline_keepsVars (p : Pipeline) (g : Group) : KeepsVars (waitPipeline p g) := by
  unfold waitPipeline withForeground
  exact .bind (fun _ => rfl) fun _ => .bind (waitPipeline_go_keepsVars _ _ _ _) fun _ =>
    .bind (fun _ => rfl) fun _ => .pure _

theorem execute_keepsVars {p : Pipeline} (outside : p.background = true ∨ p.stages.length ≠ 1) :
    KeepsVars (execute p) := by
  unfold execute
  split
  · exact .pure _
  · split
    · exact .bind (fun _ => rfl) fun _ => .pure _
    · dsimp only
      split
      on_goal 1 =>
        -- a lone stage runs inside the shell only in the foreground
        rename_i stage single
        have background : p.background = true := by
          rcases outside with background | many
          · exact background
          · simp [single] at many
        rw [if_neg (by simp [background])]
      all_goals
        refine .bind (spawn_keepsVars p) fun r => ?_
        cases r with
        | error err =>
          exact .bind (fun _ => rfl) fun _ => .bind (recordEvent_keepsVars _) fun _ => .pure _
        | ok g =>
          dsimp only
          split <;> first
            | exact .bind (registerBackground_keepsVars p g) fun _ => .pure _
            | exact waitPipeline_keepsVars p g

theorem buildCommand_state (assigns : List Assign) (words : List Word) (redirs : List Redirect)
    (σ : Session) : ((buildCommand assigns words redirs).run σ).2 = σ := rfl
theorem buildDecl_state (variant : String) (args : List Assign) (redirs : List Redirect)
    (σ : Session) : ((buildDecl variant args redirs).run σ).2 = σ := rfl

/-- What is built of the stages of a pipeline so far: nothing stopped the loop, or an error
did. -/
abbrev Building := Option (Except String (Option Pipeline)) × Array Command

/-- A loop over stages whose every round keeps the variables and either adds one command or
stops with an error ends with one command per stage, unless an error stopped it. -/
theorem forIn_stages {β : Type} {e : Env} {f : β → Building → ShellM (ForInStep Building)}
    (round : ∀ a acc, Triple (fun σ => σ.shell.env = e) (f a (none, acc)) fun r σ =>
      σ.shell.env = e ∧
        ((∃ c, r = .yield (none, acc.push c)) ∨ ∃ err acc', r = .done (some (.error err), acc')))
    (l : List β) (acc : Array Command) :
    Triple (fun σ => σ.shell.env = e) (forIn l (none, acc) f) fun r σ =>
      σ.shell.env = e ∧ (r.1 = none ∧ r.2.size = acc.size + l.length ∨ ∃ err, r.1 = some (.error err)) := by
  induction l generalizing acc with
  | nil => exact .pure fun _ same => ⟨same, .inl ⟨rfl, rfl⟩⟩
  | cons a rest ih =>
    rw [List.forIn_cons]
    refine .bind (round a acc) fun step σ ⟨same, shape⟩ => ?_
    rcases shape with ⟨c, rfl⟩ | ⟨err, acc', rfl⟩
    · obtain ⟨same', built⟩ := ih (acc.push c) σ same
      refine ⟨same', built.imp (fun ⟨going, size⟩ => ⟨going, ?_⟩) id⟩
      rw [size, Array.size_push, List.length_cons]
      omega
    · exact ⟨same, .inr ⟨err, rfl⟩⟩

/-- A pipeline statement that is not a lone command in the foreground builds its stages
without touching the variables, into a pipeline with as many stages and the statement's
`&`, or fails. -/
theorem pipelineOf_outside {s : Stmt} {e : Env}
    (many : ((pipeStages s).length == 1 && !s.background) = false) :
    Triple (fun σ => σ.shell.env = e) (pipelineOf s) fun r σ => σ.shell.env = e ∧
      ∀ p, r = .ok (some p) → p.background = s.background ∧
        p.stages.length = (pipeStages s).length := by
  unfold pipelineOf
  simp only [many, Bool.false_eq_true, if_false]
  refine .bind (forIn_stages (fun stage acc => ?_) _ #[]) fun built σ ⟨same, shape⟩ => ?_
  · -- one round: build the stage, which only reads the shell, and add it or stop
    dsimp only
    split <;> refine .bind (Q := fun _ σ => σ.shell.env = e) (fun σ same => ?_) fun cmd? => ?_
    all_goals first
      | (rw [buildCommand_state]; exact same)
      | (rw [buildDecl_state]; exact same)
      | exact same
      | (split
         · exact .pure fun _ same => ⟨same, .inr ⟨_, _, rfl⟩⟩
         · split <;> exact .pure fun _ same => ⟨same, .inl ⟨_, rfl⟩⟩)
  · -- the pipeline comes out only when no error stopped the loop, with one stage per stage
    rcases shape with ⟨going, size⟩ | ⟨err, stopped⟩
    · rw [going]
      refine ⟨same, fun p made => ?_⟩
      cases made
      refine ⟨rfl, ?_⟩
      rw [Array.length_toList, size, List.size_toArray, List.length_nil, Nat.zero_add]
    · rw [stopped]
      exact ⟨same, fun p made => nomatch made⟩

/-- A pipe, or a statement sent to the background, leaves the shell's variables as they are,
whatever its stages do. -/
theorem runPipeline_outside {s : Stmt}
    (outside : s.background = true ∨ 2 ≤ (pipeStages s).length) : KeepsVars (runPipeline s) := by
  have many : ((pipeStages s).length == 1 && !s.background) = false := by
    rcases outside with background | two
    · simp [background]
    · have : (pipeStages s).length ≠ 1 := by omega
      simp [this]
  intro σ
  obtain ⟨same, made⟩ := pipelineOf_outside (e := σ.shell.env) many σ rfl
  unfold runPipeline
  rw [run_bind]
  generalize (pipelineOf s).run σ = r at same made ⊢
  obtain ⟨r, σ₁⟩ := r
  rw [← same]
  rcases r with err | _ | p
  · rfl
  · rfl
  · obtain ⟨background, length⟩ := made p rfl
    have away : p.background = true ∨ p.stages.length ≠ 1 := by
      rcases outside with bg | two
      · exact .inl (background.trans bg)
      · exact .inr (by omega)
    refine (KeepsVars.bind (fun _ => rfl) fun _ => ?_) σ₁
    split
    · exact .bind (fun _ => rfl) fun _ => .bind (fun _ => rfl) fun _ => .pure _
    · refine .bind (execute_keepsVars away) fun code => .bind (fun _ => rfl) fun _ => ?_
      split
      · exact .bind (fun _ => rfl) fun _ => .pure _
      · exact .pure _

theorem pipeStages_length_pos (s : Stmt) : 0 < (pipeStages s).length := by
  fun_induction pipeStages s <;> simp only [List.length_append, List.length_singleton] at * <;> omega

/-- A lone statement that runs as a pipeline, from a shell that has not quit, ends where its
pipeline ends, negated by `!`. -/
theorem runStmts_single_ok {s : Stmt} (leaf : s.RunsAsPipeline) {σ σ₁ : Session}
    (awake : σ.shell.quit = false) (run : (runPipeline s).run σ = (.ok (), σ₁)) :
    ((runStmts [s]).run σ).2 = if s.negated then σ₁.negate else σ₁ := by
  rw [runStmts_cons_run, awake, if_neg Bool.false_ne_true, runStmt_run,
    runCommand_pipeline_run σ leaf, run]
  show ((runStmts []).run _).2 = _
  rw [runStmts_nil_run]

/-- A lone statement whose pipeline fails ends with the failure reported. -/
theorem runStmts_single_error {s : Stmt} (leaf : s.RunsAsPipeline) {σ σ₁ : Session} {e : String}
    (awake : σ.shell.quit = false) (run : (runPipeline s).run σ = (.error e, σ₁)) :
    ((runStmts [s]).run σ).2 = σ₁.report e := by
  rw [runStmts_cons_run, awake, if_neg Bool.false_ne_true, runStmt_run,
    runCommand_pipeline_run σ leaf, run]
  show ((runStmts []).run _).2 = _
  rw [runStmts_nil_run]

/-- A statement run on its own that goes through `runPipeline` leaves the variables as the
pipeline does: `!` and the report of an error touch only the status and standard error. -/
theorem runStmts_single_vars {s : Stmt} (leaf : s.RunsAsPipeline) (keeps : KeepsVars (runPipeline s))
    (σ : Session) : ((runStmts [s]).run σ).2.shell.env = σ.shell.env := by
  cases awake : σ.shell.quit
  · have same := keeps σ
    generalize run : (runPipeline s).run σ = r at same
    obtain ⟨e | ⟨⟨⟩⟩, σ₁⟩ := r
    · rw [runStmts_single_error leaf awake run]
      exact same
    · rw [runStmts_single_ok leaf awake run]
      split <;> exact same
  · -- a shell that has quit runs nothing
    rw [runStmts_cons_run, awake, if_pos rfl]

end JobShell

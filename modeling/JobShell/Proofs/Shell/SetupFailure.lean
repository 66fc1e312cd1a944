import JobShell.Proofs.Shell.PipelineWaits

/-!
# Setting a pipeline up is atomic

A pipeline that leaves the shell is set up by `spawn`: the pipes between its stages are made,
then the stages are started one after the other, the first one leading a new process group. On
a system that answers from a script (`WaitScript.launches`, `WaitScript.pipeError`) either step
can fail, at any stage. This module shows what `execute` leaves then, for every valid pipeline
and every point of failure: the status -1, one failure event naming the pipeline and what failed,
the shell and its job table as they were, and on the system only the clean-up of what started.

When some stages had started, the group they formed is sent SIGKILL and each of them is waited
for in turn (`abort_run`); when none had, there is no group yet and no signal is sent, a kill of
group 0 being a kill of the shell's own group. `launchStages_fails` runs the stages up to the one
that fails, `Group.grow_new` says which group they formed, and `setup_failure_atomic` puts the
pieces together.
-/
namespace JobShell

open ShellM

namespace System

/-- Blocking waits for `pids` in turn, each on the system the one before left: the system after
the last of them. -/
def awaitAll (sys : System) (opts : Nat) : List Int → System
  | [] => sys
  | pid :: rest => (sys.await pid opts).2.awaitAll opts rest

end System

namespace WaitScript

/-- The script answers the requests to start processes with the pids `started`, then refuses the
next one with `e`, `rest` being left: the refusal is scripted, or the script has run out and the
program to start does not exist. -/
def FailsAfter (w : WaitScript) (started : List Int) (e : Errno)
    (rest : List (Except Errno Int)) : Prop :=
  w.launches = started.map .ok ++ .error e :: rest ∨ (w.launches = started.map .ok ∧ e = .noent ∧ rest = [])

/-- Setting a script's launches to the ones it has leaves it as it is. -/
theorem with_launches_of_eq {w : WaitScript} {rest : List (Except Errno Int)}
    (same : w.launches = rest) : ({ w with launches := rest } : WaitScript) = w := by
  subst same
  rfl

end WaitScript

theorem launch_ok_run {σ : Session} {w : WaitScript} {pid : Int} {rest : List (Except Errno Int)}
    (scripted : σ.world.system = .scripted w) (answers : w.launches = .ok pid :: rest) :
    launch.run σ = (.ok pid, σ.withSystem (.scripted { w with launches := rest })) := by
  rw [launch_run, scripted]
  simp [System.launch, answers]

theorem launch_error_run {σ : Session} {w : WaitScript} {e : Errno} {rest : List (Except Errno Int)}
    (scripted : σ.world.system = .scripted w) (refused : w.FailsAfter [] e rest) :
    launch.run σ = (.error e, σ.withSystem (.scripted { w with launches := rest })) := by
  rw [launch_run, scripted]
  rcases refused with answers | ⟨answers, rfl, rfl⟩
  · simp [System.launch, answers]
  · -- a script that has run out is left as it is
    have ran_out : w.launches = [] := answers
    simp [System.launch, ran_out, WaitScript.with_launches_of_eq ran_out]

theorem kill_scripted_run {σ : Session} {w : WaitScript} (target : Int) (sig : Nat)
    (scripted : σ.world.system = .scripted w) :
    (kill target sig).run σ =
      (some .srch, σ.withSystem (.scripted { w with signals := w.signals.push (target, sig) })) := by
  obtain ⟨_, ⟨_, _, _, _, _, system, _, _, _, _⟩⟩ := σ
  subst scripted
  rfl

theorem forM_awaitAll {f : Int → ShellM PUnit}
    (step : ∀ pid σ, (f pid).run σ = ((), σ.withSystem (σ.world.system.await pid 0).2))
    (pids : List Int) (σ : Session) :
    (pids.forM f).run σ = ((), σ.withSystem (σ.world.system.awaitAll 0 pids)) := by
  induction pids generalizing σ with
  | nil => rfl
  | cons pid rest ih =>
    change (f pid >>= fun _ => rest.forM f).run σ = _
    rw [ShellM.run_bind, step, ih]
    rfl

/-- Aborting a group on a scripted system: with no group yet nothing happens; otherwise the group
is sent SIGKILL, which the script keeps, and each started stage is waited for in turn. -/
theorem abort_run (g : Group) {σ : Session} {w : WaitScript} (scripted : σ.world.system = .scripted w) :
    (abort g).run σ = ((), if g.pgid = 0 then σ else σ.withSystem
      ((System.scripted { w with signals := w.signals.push (-g.pgid, sigKill) }).awaitAll 0 g.pids)) := by
  unfold abort
  by_cases leader : g.pgid = 0
  · simp only [leader, beq_self_eq_true, if_true]
    rfl
  · have started : (g.pgid == 0) = false := by simpa using leader
    simp only [started, leader, if_false, Bool.false_eq_true]
    rw [ShellM.run_bind, kill_scripted_run _ _ scripted]
    refine forM_awaitAll (fun pid σ' => ?_) g.pids _
    rw [ShellM.run_bind, waitFor_run]
    rfl

/-- Starting stages from a script that refuses the stage `failing` after starting the ones before
it: the group started so far is aborted and the failing stage is named in the error. -/
theorem launchStages_fails (g : Group) (before : List Command) (failing : Command)
    (after : List Command) {started : List Int} {e : Errno} {rest : List (Except Errno Int)}
    {σ : Session} {w : WaitScript} (scripted : σ.world.system = .scripted w)
    (answers : w.FailsAfter started e rest) (counts : started.length = before.length) :
    (launchStages g (before ++ failing :: after)).run σ =
      (.error (failing.name ++ ": fork/exec " ++ launcherPath ++ ": " ++ e.message),
        ((abort (g.grow started)).run (σ.withSystem (.scripted { w with launches := rest }))).2) := by
  -- one stage started per round, with the script's answers running down alongside
  induction before generalizing g started σ w with
  | nil =>
    have none_started : started = [] := List.eq_nil_of_length_eq_zero counts
    subst none_started
    rw [List.nil_append]
    unfold launchStages
    rw [ShellM.run_bind, launch_error_run scripted answers]
    rfl
  | cons stage stages ih =>
    obtain ⟨pid, pids, rfl⟩ := List.exists_cons_of_length_eq_add_one counts
    have first : w.launches = .ok pid :: w.launches.tail ∧
        ({ w with launches := w.launches.tail } : WaitScript).FailsAfter pids e rest := by
      rcases answers with answers | ⟨answers, refused, left⟩
      · simp [answers, WaitScript.FailsAfter]
      · simp [answers, WaitScript.FailsAfter, refused, left]
    rw [List.cons_append]
    unfold launchStages
    rw [ShellM.run_bind, launch_ok_run scripted first.1]
    exact ih _ (w := { w with launches := w.launches.tail }) rfl first.2 (by simpa using counts)

/-- On a scripted system, `spawn` makes the pipes, and starts the stages when it can. -/
theorem spawn_scripted_run (p : Pipeline) {σ : Session} {w : WaitScript}
    (scripted : σ.world.system = .scripted w) :
    (spawn p).run σ = ((System.scripted w).pipeError p.stages.length).elim
      ((launchStages { pgid := 0, pids := [] } p.stages).run σ)
      (fun e => (.error ("pipe: pipe2: " ++ e.message), σ)) := by
  have not_live : ∀ ps, σ.world.system ≠ .live ps := fun ps live => nomatch scripted.symm.trans live
  rw [spawn_run_of_not_live p not_live, scripted]

theorem spawn_pipe_error (p : Pipeline) {σ : Session} {w : WaitScript} {e : Errno}
    (scripted : σ.world.system = .scripted w)
    (piped : (System.scripted w).pipeError p.stages.length = some e) :
    (spawn p).run σ = (.error ("pipe: pipe2: " ++ e.message), σ) := by
  rw [spawn_scripted_run p scripted, piped]
  rfl

theorem spawn_launches (p : Pipeline) {σ : Session} {w : WaitScript}
    (scripted : σ.world.system = .scripted w)
    (piped : (System.scripted w).pipeError p.stages.length = none) :
    (spawn p).run σ = (launchStages { pgid := 0, pids := [] } p.stages).run σ := by
  rw [spawn_scripted_run p scripted, piped]
  rfl

/-- A valid pipeline that leaves the shell and cannot be set up: the error is logged and
recorded, and the status is -1. -/
theorem execute_spawn_error (p : Pipeline) (σ : Session) (valid : p.validate = .ok ())
    (outside : p.inShell = false) {err : String} (failed : ((spawn p).run σ).1 = .error err) :
    (execute p).run σ = (execFailure, ((recordEvent (.execFailed p.display err)).run
      ((log ("ushell: " ++ err)).run ((spawn p).run σ).2).2).2) := by
  have nonempty : p.stages ≠ [] := fun empty => by simp [Pipeline.validate, empty] at valid
  unfold execute
  simp only [List.isEmpty_eq_false_iff.mpr nonempty, Bool.false_eq_true, if_false, valid]
  -- of a lone stage, neither the builtin nor the tool branch can be taken
  split
  rename_i stage single
  have refused := Pipeline.lone_refused outside single
  split
  rename_i direct
  split
  · rename_i builtin
    exact absurd ⟨direct, by simp [builtin]⟩ refused
  split
  · rename_i tool found
    exact absurd ⟨direct, by simp [found]⟩ refused
  all_goals
    rw [ShellM.run_bind, failed]
    rfl

theorem recordEvent_run (e : Event) (σ : Session) :
    (recordEvent e).run σ = ((), if σ.world.recording then
      { σ with world := { σ.world with events := σ.world.events.push e } } else σ) := by
  unfold recordEvent
  rw [ShellM.run_bind]
  split
  · rename_i recording
    rw [if_pos (show σ.world.recording = true from recording)]
    rfl
  · rename_i unrecorded
    rw [if_neg (show ¬σ.world.recording = true from unrecorded)]
    rfl

/-- How `execute` gives up on a pipeline `p` it could not set up from `σ`, ending in `r`, with the
error `err`: the status is -1, the shell (its job table with it) is as it was, and one failure
event is recorded, naming the pipeline as it is displayed and the error. -/
structure SetupFailed (σ : Session) (p : Pipeline) (err : String) (r : Int × Session) : Prop where
  status : r.1 = execFailure
  shell : r.2.shell = σ.shell
  events : r.2.world.events = if σ.world.recording then
    σ.world.events.push (.execFailed p.display err) else σ.world.events

/-- A set-up that fails leaving the shell and the event log as they were fails as `SetupFailed`
says, and the system is the one the set-up left. -/
theorem setupFailed_of_spawn {p : Pipeline} {σ : Session} (valid : p.validate = .ok ())
    (outside : p.inShell = false) {err : String} (failed : ((spawn p).run σ).1 = .error err)
    (shell : ((spawn p).run σ).2.shell = σ.shell)
    (events : ((spawn p).run σ).2.world.events = σ.world.events)
    (recording : ((spawn p).run σ).2.world.recording = σ.world.recording) :
    SetupFailed σ p err ((execute p).run σ) ∧
      ((execute p).run σ).2.world.system = ((spawn p).run σ).2.world.system := by
  rw [execute_spawn_error p σ valid outside failed, recordEvent_run]
  by_cases recorded : σ.world.recording
  · have still : ((log ("ushell: " ++ err)).run ((spawn p).run σ).2).2.world.recording = true := by
      rw [← recorded]
      exact recording
    rw [if_pos still]
    exact ⟨⟨rfl, shell, by rw [if_pos recorded, ← events]; rfl⟩, rfl⟩
  · have still : ((log ("ushell: " ++ err)).run ((spawn p).run σ).2).2.world.recording = false := by
      rw [Bool.not_eq_true] at recorded
      rw [← recorded]
      exact recording
    rw [if_neg (by rw [still]; decide)]
    exact ⟨⟨rfl, shell, by rw [if_neg recorded, ← events]; rfl⟩, rfl⟩

/-- Making the pipes fails: nothing is started, and the system is left as it was. -/
theorem execute_pipe_failure {p : Pipeline} {σ : Session} {w : WaitScript} {e : Errno}
    (valid : p.validate = .ok ()) (outside : p.inShell = false)
    (scripted : σ.world.system = .scripted w)
    (piped : (System.scripted w).pipeError p.stages.length = some e) :
    SetupFailed σ p ("pipe: pipe2: " ++ e.message) ((execute p).run σ) ∧
      ((execute p).run σ).2.world.system = .scripted w := by
  have spawned := spawn_pipe_error p scripted piped
  obtain ⟨failed, system⟩ := setupFailed_of_spawn valid outside (by rw [spawned]) (by rw [spawned])
    (by rw [spawned]) (by rw [spawned])
  rw [spawned] at system
  exact ⟨failed, system.trans scripted⟩

/-- Starting the stage `failing` fails, after the stages `before` started as `started`: the group
they form is killed and each of them waited for, and nothing else of the system changes. -/
theorem execute_stage_failure {p : Pipeline} {σ : Session} {w : WaitScript}
    {before : List Command} {failing : Command} {after : List Command} {started : List Int}
    {e : Errno} {rest : List (Except Errno Int)}
    (valid : p.validate = .ok ()) (outside : p.inShell = false)
    (scripted : σ.world.system = .scripted w)
    (piped : (System.scripted w).pipeError p.stages.length = none)
    (stages : p.stages = before ++ failing :: after) (counts : started.length = before.length)
    (positive : ∀ pid ∈ started, 0 < pid) (answers : w.FailsAfter started e rest) :
    SetupFailed σ p (failing.name ++ ": fork/exec " ++ launcherPath ++ ": " ++ e.message)
      ((execute p).run σ) ∧
    ((execute p).run σ).2.world.system =
      if started = [] then .scripted { w with launches := rest }
      else (System.scripted
        { w with
          launches := rest
          signals := w.signals.push (-(started.headD 0), sigKill) }).awaitAll 0 started := by
  -- the first stage to start leads the group, so there is a group exactly when one started
  have leader : started.headD 0 = 0 ↔ started = [] := by
    cases started with
    | nil => simp
    | cons pid _ => simpa using Int.ne_of_gt (positive pid List.mem_cons_self)
  have spawned : (spawn p).run σ =
      (.error (failing.name ++ ": fork/exec " ++ launcherPath ++ ": " ++ e.message),
        if started = [] then σ.withSystem (.scripted { w with launches := rest })
        else σ.withSystem ((System.scripted
          { w with
            launches := rest
            signals := w.signals.push (-(started.headD 0), sigKill) }).awaitAll 0 started)) := by
    rw [spawn_launches p scripted piped, stages, launchStages_fails _ before failing after scripted
      answers counts, Group.grow_new positive, abort_run _ rfl]
    simp only [leader]
    split <;> rfl
  have kept : ∀ σ', σ' = ((spawn p).run σ).2 → σ'.shell = σ.shell ∧
      σ'.world.events = σ.world.events ∧ σ'.world.recording = σ.world.recording := by
    intro σ' same
    rw [same, spawned]
    split <;> exact ⟨rfl, rfl, rfl⟩
  obtain ⟨shell, events, recording⟩ := kept _ rfl
  obtain ⟨failed, system⟩ := setupFailed_of_spawn valid outside (by rw [spawned]) shell events
    recording
  refine ⟨failed, ?_⟩
  rw [system, spawned]
  split <;> rfl

/-- Setting a pipeline up is atomic, on a system that answers from a script. Whether making the
pipes fails or starting a stage does, `execute` returns -1, records one failure event naming the
pipeline and what failed, and leaves the shell and its job table as they were. No signal is sent
and nothing is waited for unless some stage had started: then the group, led by the first stage,
is sent SIGKILL and each started stage is waited for in turn, interrupted waits asked again.
A script with no process to hand out fails every such pipeline at its first stage. -/
theorem setup_failure_atomic (p : Pipeline) (σ : Session) (w : WaitScript)
    (valid : p.validate = .ok ()) (outside : p.inShell = false)
    (scripted : σ.world.system = .scripted w) :
    (∀ e, (System.scripted w).pipeError p.stages.length = some e →
      SetupFailed σ p ("pipe: pipe2: " ++ e.message) ((execute p).run σ) ∧
        ((execute p).run σ).2.world.system = .scripted w) ∧
    (∀ before failing after started e rest,
      (System.scripted w).pipeError p.stages.length = none →
      p.stages = before ++ failing :: after → started.length = before.length →
      (∀ pid ∈ started, 0 < pid) → w.FailsAfter started e rest →
      SetupFailed σ p (failing.name ++ ": fork/exec " ++ launcherPath ++ ": " ++ e.message)
        ((execute p).run σ) ∧
      ((execute p).run σ).2.world.system =
        if started = [] then .scripted { w with launches := rest }
        else (System.scripted
          { w with
            launches := rest
            signals := w.signals.push (-(started.headD 0), sigKill) }).awaitAll 0 started) ∧
    (w.launches = [] → (System.scripted w).pipeError p.stages.length = none →
      ∀ first others, p.stages = first :: others →
      SetupFailed σ p (first.name ++ ": fork/exec " ++ launcherPath ++ ": " ++ Errno.noent.message)
        ((execute p).run σ) ∧ ((execute p).run σ).2.world.system = .scripted w) := by
  refine ⟨fun e piped => execute_pipe_failure valid outside scripted piped,
    fun before failing after started e rest piped stages counts positive answers =>
      execute_stage_failure valid outside scripted piped stages counts positive answers,
    fun unscripted piped first others stages => ?_⟩
  -- a script with nothing to hand out refuses the first stage as a missing program
  have answers : w.FailsAfter [] .noent [] := .inr ⟨unscripted, rfl, rfl⟩
  obtain ⟨failed, system⟩ := execute_stage_failure valid outside scripted piped
    (stages.trans (List.nil_append _).symm) rfl (fun _ member => absurd member List.not_mem_nil) answers
  rw [if_pos rfl, WaitScript.with_launches_of_eq unscripted] at system
  exact ⟨failed, system⟩



/-- Three stages on a script that starts the first and refuses the second: the first stage's
group is killed and the first stage waited for, and the second stage is the one reported. -/
theorem second_stage_refused_aborts :
    let p : Pipeline := { stages := [{ args := ["a"] }, { args := ["b"] }, { args := ["c"] }] }
    let w : WaitScript := { launches := [.ok 41, .error .acces] }
    let σ := Session.start Settings.builtin [] { nodes := [([], .dir)] } [] "" (.scripted w) []
    (p.validate = .ok () ∧ p.inShell = false ∧ σ.world.system = .scripted w) ∧
    SetupFailed σ p ("b: fork/exec " ++ launcherPath ++ ": " ++ Errno.acces.message)
      ((execute p).run σ) ∧
    ((execute p).run σ).2.world.system =
      (System.scripted { w with launches := [], signals := #[(-41, sigKill)] }).awaitAll 0 [41] := by
  intro p w σ
  have valid : p.validate = .ok () := rfl
  have outside : p.inShell = false := rfl
  have scripted : σ.world.system = .scripted w := rfl
  obtain ⟨-, refused, -⟩ := setup_failure_atomic p σ w valid outside scripted
  obtain ⟨failed, system⟩ := refused [{ args := ["a"] }] { args := ["b"] } [{ args := ["c"] }]
    [41] .acces [] rfl rfl rfl (by simp) (.inl rfl)
  rw [if_neg (List.cons_ne_nil _ _)] at system
  exact ⟨⟨valid, outside, scripted⟩, failed, system⟩

end JobShell

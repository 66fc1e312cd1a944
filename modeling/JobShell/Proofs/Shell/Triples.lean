import JobShell.Proofs.Shell.Lifecycle
import JobShell.Proofs.Shell.ControlFlow
import JobShell.Shell.Builtins

/-!
# Hoare triples for the shell's computations

A computation of the shell is a function of the session, so a triple `Triple pre m post`
says that from every session where `pre` holds, `m` ends in a session where `post` holds of
its result. Triples compose along binds and loops (`Triple.bind`, `Triple.forIn`).

Every operation the job events depend on gets one lemma that says what it does, in the form
"a postcondition that follows from the precondition across this change holds after it":
reads keep the session, `jobEvent` adds at most one event about its job
(`Session.LogsAtMost`), `updateJob` and `setJobs` put a new table in place, and waits and
signals change only the system and the host, to one that follows from it (`Session.KeepsJobs`).
Computations that leave the table, the log and the system alone keep the trace invariant
whatever else they do (`LeavesJobs`).

Whether the replies a run gets are ones `wait4` could give depends on the waits it makes, which
are known once it has ended; `TripleOn F` is the triple about the runs that end having made the
waits `F`, and each operation has its lemma in that form too (`waitFor_on` and the like).
-/
namespace JobShell

namespace ShellM

/-- From every session where `pre` holds, `m` ends in one where `post` holds of its result. -/
def Triple {α : Type} (pre : Session → Prop) (m : ShellM α) (post : α → Session → Prop) : Prop :=
  ∀ σ, pre σ → post (m.run σ).1 (m.run σ).2

namespace Triple

variable {α β γ : Type} {P P' : Session → Prop} {Q Q' : α → Session → Prop}

theorem bind {R : β → Session → Prop} {x : ShellM α} {f : α → ShellM β} (first : Triple P x Q)
    (next : ∀ a, Triple (Q a) (f a) R) : Triple P (x >>= f) R :=
  fun σ pre => next _ _ (first σ pre)

theorem pure {a : α} (holds : ∀ σ, P σ → Q a σ) : Triple P (Pure.pure a) Q := holds

theorem weaken {m : ShellM α} (t : Triple P m Q) (stronger : ∀ σ, P' σ → P σ) : Triple P' m Q :=
  fun σ pre => t σ (stronger σ pre)

theorem mono {m : ShellM α} (t : Triple P m Q) (weaker : ∀ a σ, Q a σ → Q' a σ) :
    Triple P m Q' :=
  fun σ pre => weaker _ _ (t σ pre)

/-- A fact the precondition gives about no session in particular can be assumed. -/
theorem assume {m : ShellM α} {A : Prop} (t : A → Triple P m Q) : Triple (fun σ => P σ ∧ A) m Q :=
  fun σ ⟨pre, holds⟩ => t holds σ pre

/-- A loop keeps an invariant of what is left of the list, the accumulator and the session,
when every round keeps it from one element to the rest. -/
theorem forIn {l : List β} {init : γ} {f : β → γ → ShellM (ForInStep γ)}
    (I : List β → γ → Session → Prop)
    (step : ∀ a rest c, Triple (I (a :: rest) c) (f a c) (fun r σ => I rest r.value σ)) :
    Triple (I l init) (ForIn.forIn l init f) (fun c σ => ∃ rest, I rest c σ) := by
  induction l generalizing init with
  | nil => exact fun σ pre => ⟨[], pre⟩
  | cons a rest ih =>
    rw [List.forIn_cons]
    refine bind (step a rest init) fun r => ?_
    cases r with
    | done c => exact fun σ pre => ⟨rest, pre⟩
    | yield c => exact ih

/-- A loop whose every round goes on runs to the end of the list, so its invariant holds of
nothing left. -/
theorem forIn_yield {l : List β} {init : γ} {f : β → γ → ShellM (ForInStep γ)}
    (I : List β → γ → Session → Prop)
    (step : ∀ a rest c, Triple (I (a :: rest) c) (f a c)
      (fun r σ => ∃ c', r = .yield c' ∧ I rest c' σ)) :
    Triple (I l init) (ForIn.forIn l init f) (fun c σ => I [] c σ) := by
  induction l generalizing init with
  | nil => exact fun σ pre => pre
  | cons a rest ih =>
    rw [List.forIn_cons]
    refine bind (step a rest init) fun r => ?_
    cases r with
    | done c => exact fun σ ⟨_, stops, _⟩ => nomatch stops
    | yield c => exact fun σ ⟨_, goes, inv⟩ => ih σ (ForInStep.yield.inj goes ▸ inv)

/-- A precondition that some instance holds can be taken apart. -/
theorem of_exists {ι : Sort _} {P : ι → Session → Prop} {m : ShellM α}
    (each : ∀ i, Triple (P i) m Q) : Triple (fun σ => ∃ i, P i σ) m Q :=
  fun σ ⟨i, pre⟩ => each i σ pre

end Triple

/-! ## Reads -/

variable {P : Session → Prop}

theorem get_spec : Triple P MonadState.get (fun r σ => P σ ∧ r = σ) := fun _ pre => ⟨pre, rfl⟩

theorem shell_spec : Triple P shell (fun r σ => P σ ∧ r = σ.shell) := fun _ pre => ⟨pre, rfl⟩

theorem world_spec : Triple P world (fun r σ => P σ ∧ r = σ.world) := fun _ pre => ⟨pre, rfl⟩

theorem jobs_spec : Triple P jobs (fun r σ => P σ ∧ r = σ.shell.jobs) := fun _ pre => ⟨pre, rfl⟩

theorem job?_spec (id : Int) : Triple P (job? id) (fun r σ => P σ ∧ r = σ.shell.jobs.get? id) :=
  fun _ pre => ⟨pre, rfl⟩

theorem host_spec : Triple P host (fun r σ => P σ ∧ r = (host.run σ).1) := fun _ pre => ⟨pre, rfl⟩

end ShellM

open ShellM

/-! ## What the operations change -/

namespace Session

@[simp] theorem jobLog_push_job (σ : Session) (name : String) (j : Job) :
    Session.jobLog { σ with world := { σ.world with events := σ.world.events.push (.job name j) } } =
      σ.jobLog ++ [(name, j)] := by
  simp [jobLog, Event.jobPart]

@[simp] theorem jobLog_push_execFailed (σ : Session) (command error : String) :
    Session.jobLog
        { σ with world := { σ.world with events := σ.world.events.push (.execFailed command error) } } =
      σ.jobLog := by
  simp [jobLog, Event.jobPart]

/-- `σ'` is `σ` after the system answered waits or took signals: the same shell and job events,
and a system that follows from `σ`'s. -/
structure KeepsJobs (σ σ' : Session) : Prop where
  shell : σ'.shell = σ.shell
  log : σ'.jobLog = σ.jobLog
  system : σ.world.system.Follows σ'.world.system

theorem KeepsJobs.refl (σ : Session) : σ.KeepsJobs σ := ⟨rfl, rfl, .refl _⟩

theorem KeepsJobs.trans {σ₁ σ₂ σ₃ : Session} (first : σ₁.KeepsJobs σ₂) (second : σ₂.KeepsJobs σ₃) :
    σ₁.KeepsJobs σ₃ :=
  ⟨second.shell.trans first.shell, second.log.trans first.log, first.system.trans second.system⟩

/-- Between two stretches that keep the jobs, a run that keeps to `F` at the end of the second
had, at the end of the first, a system that answers `F` as `wait4` does if it did at the start. -/
theorem KeepsJobs.wait4 {F : List (Int × Nat)} {σ σ' σ'' : Session} (keeps : σ.KeepsJobs σ')
    (later : σ'.KeepsJobs σ'') (on : σ''.world.system.OnTrack F) (good : σ.world.system.Wait4 F) :
    σ'.world.system.Wait4 F :=
  (keeps.system F (later.system F on).1).2 good

theorem KeepsJobs.tracing {F : List (Int × Nat)} {σ σ' : Session} (keeps : σ.KeepsJobs σ')
    (on : σ'.world.system.OnTrack F) (inv : σ.Tracing F) : σ'.Tracing F := by
  unfold Tracing
  rw [keeps.shell, keeps.log]
  exact Traced.of_system inv ((keeps.system F on).2 inv.wait4)

/-- `σ'` is `σ` with at most one more event, named `name`, about the job with id `id` as the
table has it. -/
structure LogsAtMost (name : String) (id : Int) (σ σ' : Session) : Prop where
  shell : σ'.shell = σ.shell
  system : σ'.world.system = σ.world.system
  log : σ'.jobLog = σ.jobLog ∨
    ∃ j, σ.shell.jobs.get? id = some j ∧ σ'.jobLog = σ.jobLog ++ [(name, j)]

variable {F : List (Int × Nat)} {name : String} {id : Int} {σ σ' : Session}

/-- An event keeps the invariant when the name reports the status the job has, is a start
only of a job with no events yet, and the job has not been reported done. -/
theorem LogsAtMost.tracing (logs : σ.LogsAtMost name id σ') (inv : σ.Tracing F)
    (named : ∀ j, σ.shell.jobs.get? id = some j → Event.reportedStatus name = some j.status)
    (first : name = Event.started → Unlogged σ.jobLog id) (unfinished : Unfinished σ.jobLog id) :
    σ'.Tracing F := by
  unfold Tracing
  rw [logs.shell, logs.system]
  rcases logs.log with same | ⟨j, found, appended⟩
  · rw [same]
    exact inv
  · obtain ⟨member, rfl⟩ := Table.get?_spec found
    rw [appended]
    exact Traced.of_event inv member (named j found) first unfinished

/-- An event that is no end, or is about another job, keeps a job unfinished. -/
theorem LogsAtMost.unfinished (logs : σ.LogsAtMost name id σ') {k : Int}
    (unfinished : Unfinished σ.jobLog k) (other : name ≠ Event.finished ∨ id ≠ k) :
    Unfinished σ'.jobLog k := by
  rcases logs.log with same | ⟨j, found, appended⟩
  · rw [same]
    exact unfinished
  · rw [appended]
    obtain ⟨-, rfl⟩ := Table.get?_spec found
    exact unfinished.snoc other

end Session

/-! ## One lemma per operation -/

section Operations

variable {α : Type} {P Q : Session → Prop}

theorem jobEvent_spec {name : String} {id : Int}
    (step : ∀ σ σ', P σ → σ.LogsAtMost name id σ' → Q σ') :
    Triple P (jobEvent name id) (fun _ => Q) := by
  unfold jobEvent
  refine .bind world_spec fun w => ?_
  split
  · refine .bind (job?_spec id) fun found => ?_
    cases found with
    | some j =>
      exact fun σ ⟨⟨pre, _⟩, found⟩ =>
        step σ _ pre ⟨rfl, rfl, .inr ⟨j, found.symm, Session.jobLog_push_job σ name j⟩⟩
    | none => exact .pure fun σ ⟨⟨pre, _⟩, _⟩ => step σ σ pre ⟨rfl, rfl, .inl rfl⟩
  · exact .pure fun σ ⟨pre, _⟩ => step σ σ pre ⟨rfl, rfl, .inl rfl⟩

theorem setJobs_spec {t : Table} (step : ∀ σ, P σ → Q { σ with shell := { σ.shell with jobs := t } }) :
    Triple P (setJobs t) (fun _ => Q) :=
  step

theorem updateJob_spec {id : Int} {f : Job → Job}
    (step : ∀ σ t, P σ → σ.shell.jobs.update? id f = some t →
      Q { σ with shell := { σ.shell with jobs := t } })
    (missing : ∀ σ, P σ → σ.shell.jobs.update? id f = none → Q σ) :
    Triple P (updateJob id f) (fun _ => Q) := by
  unfold updateJob
  refine .bind jobs_spec fun t => ?_
  split
  · rename_i t' updated
    exact fun σ ⟨pre, same⟩ => step σ t' pre (same ▸ updated)
  · rename_i missed
    exact .pure fun σ ⟨pre, same⟩ => missing σ pre (same ▸ missed)

theorem recordEvent_execFailed_spec {command error : String} (step : ∀ σ σ', P σ →
    σ'.shell = σ.shell → σ'.jobLog = σ.jobLog → σ'.world.system = σ.world.system → Q σ') :
    Triple P (recordEvent (.execFailed command error)) (fun _ => Q) := by
  unfold recordEvent
  refine .bind world_spec fun w => ?_
  split
  · exact fun σ ⟨pre, _⟩ => step σ _ pre rfl (Session.jobLog_push_execFailed σ command error) rfl
  · exact .pure fun σ ⟨pre, _⟩ => step σ σ pre rfl rfl rfl

theorem kill_spec {target : Int} {sig : Nat} (step : ∀ σ σ', P σ → σ.KeepsJobs σ' → Q σ') :
    Triple P (kill target sig) (fun _ => Q) := by
  unfold kill
  refine .bind world_spec fun w => ?_
  split
  · rename_i ps live
    refine .bind host_spec fun h => ?_
    split
    rename_i e ps' h' signalled
    rintro σ ⟨⟨pre, rfl⟩, rfl⟩
    refine step σ _ pre ⟨rfl, rfl, ?_⟩
    rw [live]
    refine System.follows_live fun settled => ?_
    have kept := Host.Procs.Settled.signal settled (host.run σ).1 target sig
    rw [signalled] at kept
    exact kept
  · -- a scripted system keeps the signal and answers that no process got it
    rename_i s scripted
    rintro σ ⟨pre, rfl⟩
    refine step σ _ pre ⟨rfl, rfl, ?_⟩
    rw [scripted]
    exact System.follows_scripted rfl rfl rfl
  · exact .pure fun σ ⟨pre, _⟩ => step σ σ pre (.refl σ)

theorem launch_spec (step : ∀ σ σ', P σ → σ.KeepsJobs σ' → Q σ') :
    Triple P launch (fun _ => Q) := by
  unfold launch
  refine .bind world_spec fun w => ?_
  rintro σ ⟨pre, rfl⟩
  exact step σ _ pre ⟨rfl, rfl, System.follows_launch _⟩

theorem waitOnce_spec {pid : Int} {opts : Nat} :
    Triple P (waitOnce pid opts) fun r σ' => ∃ σ, P σ ∧ σ.KeepsJobs σ' ∧
      ∀ F, σ'.world.system.OnTrack F → σ.world.system.Wait4 F → r.Reportable opts := by
  unfold waitOnce
  refine .bind world_spec fun w => ?_
  split
  rename_i r sys answered
  rintro σ ⟨pre, rfl⟩
  have follows := System.follows_wait σ.world.system pid opts
  rw [answered] at follows
  refine ⟨σ, pre, ⟨rfl, rfl, follows⟩, fun F on good => ?_⟩
  have reported := (good.wait pid opts (answered ▸ on)).2
  rw [answered] at reported
  exact reported

/-- A wait for a pid changes only the system, and along a run that keeps to `F` it returns a
status `wait4` can report whenever the system it started from answers `F` as `wait4` does. -/
theorem waitFor_spec {pid : Int} {opts : Nat} {Q : Except Errno WaitStatus → Session → Prop}
    (step : ∀ σ σ' r, P σ → σ.KeepsJobs σ' → (∀ F, σ'.world.system.OnTrack F →
      σ.world.system.Wait4 F → ∀ ws, r = .ok ws → ws.Reportable opts) → Q r σ') :
    Triple P (waitFor pid opts) Q := by
  unfold waitFor
  refine .bind world_spec fun w => ?_
  -- every retry waits once more; what it keeps composes with what the last one kept
  suffices retries : ∀ n, Triple (fun σ => ∃ σ₀, P σ₀ ∧ σ₀.KeepsJobs σ) (waitFor.go pid opts n)
      fun r σ => ∃ σ₀, P σ₀ ∧ σ₀.KeepsJobs σ ∧ ∀ F, σ.world.system.OnTrack F →
        σ₀.world.system.Wait4 F → ∀ ws, r = .ok ws → ws.Reportable opts from
    (retries _).weaken (fun σ ⟨pre, _⟩ => ⟨σ, pre, .refl σ⟩) |>.mono
      fun r σ ⟨σ₀, pre, keeps, reported⟩ => step σ₀ σ r pre keeps reported
  intro n
  induction n with
  | zero =>
    unfold waitFor.go
    refine .bind waitOnce_spec fun r => ?_
    refine .pure fun σ ⟨σ₁, ⟨σ₀, pre, before⟩, after, reply⟩ =>
      ⟨σ₀, pre, before.trans after, fun F on good ws returned => ?_⟩
    split at returned
    · cases returned
    · rename_i no_error
      cases returned
      exact reply F on (before.wait4 after on good) no_error
  | succ n ih =>
    unfold waitFor.go
    refine .bind waitOnce_spec fun r => ?_
    have again : Triple (fun σ => ∃ σ₁, (∃ σ₀, P σ₀ ∧ σ₀.KeepsJobs σ₁) ∧ σ₁.KeepsJobs σ ∧
        ∀ F, σ.world.system.OnTrack F → σ₁.world.system.Wait4 F → r.Reportable opts)
        (waitFor.go pid opts n) _ :=
      ih.weaken fun σ ⟨σ₁, ⟨σ₀, pre, before⟩, after, _⟩ => ⟨σ₀, pre, before.trans after⟩
    split
    · exact again
    · exact .pure fun σ ⟨σ₁, ⟨σ₀, pre, before⟩, after, _⟩ =>
        ⟨σ₀, pre, before.trans after, fun _ _ _ ws returned => by cases returned⟩
    · rename_i no_error
      split
      · exact .pure fun σ ⟨σ₁, ⟨σ₀, pre, before⟩, after, reply⟩ =>
          ⟨σ₀, pre, before.trans after, fun F on good ws returned => by
            cases returned
            exact reply F on (before.wait4 after on good) no_error⟩
      · exact again

/-- Starting the stages on a live host keeps the trace: every stage starts settled, whichever
way its script ends. -/
theorem startGroup_spec {F : List (Int × Nat)} {p : Pipeline} {ps : Host.Procs} :
    Triple (fun σ => σ.Tracing F ∧ ps.Settled) (startGroup p ps) (fun _ => Session.Tracing F) := by
  unfold startGroup
  refine .bind shell_spec fun sh => ?_
  refine .bind jobs_spec fun t => ?_
  refine .bind world_spec fun w => ?_
  dsimp only
  refine .bind ((Triple.forIn (fun _ c σ => σ.Tracing F ∧ c.1.Settled) fun x rest c => ?_).weaken
    fun σ ⟨⟨⟨⟨inv, settled⟩, _⟩, _⟩, _⟩ => ⟨inv, settled⟩) fun c => ?_
  · split <;>
      exact .bind host_spec fun h σ ⟨⟨inv, settled⟩, _⟩ =>
        ⟨inv, settled.fresh.add (Host.stageState_settled _ _ _)⟩
  · exact fun σ ⟨_, inv, settled⟩ => Traced.of_system inv settled

end Operations

/-! ## Computations that leave the jobs alone -/

/-- The part of a session the job events depend on: the table, the events and the system. -/
def Session.jobState (σ : Session) : Table × Array Event × System :=
  (σ.shell.jobs, σ.world.events, σ.world.system)

/-- A computation that leaves the job table, the event log and the system as they are. -/
def LeavesJobs {α : Type} (m : ShellM α) : Prop := ∀ σ, (m.run σ).2.jobState = σ.jobState

theorem Session.jobState_eq_iff {σ σ' : Session} : σ'.jobState = σ.jobState ↔
    σ'.shell.jobs = σ.shell.jobs ∧ σ'.world.events = σ.world.events ∧
      σ'.world.system = σ.world.system := by
  simp only [Session.jobState, Prod.mk.injEq]

theorem Session.jobLog_of_jobState {σ σ' : Session} (same : σ'.jobState = σ.jobState) :
    σ'.jobLog = σ.jobLog := by
  unfold Session.jobLog
  rw [(Session.jobState_eq_iff.mp same).2.1]

/-- The trace invariant is a property of the table, the log and the system alone. -/
theorem Session.Tracing.of_jobState {F : List (Int × Nat)} {σ σ' : Session}
    (same : σ'.jobState = σ.jobState) (inv : σ.Tracing F) : σ'.Tracing F := by
  have log := Session.jobLog_of_jobState same
  obtain ⟨jobs, -, system⟩ := Session.jobState_eq_iff.mp same
  unfold Session.Tracing
  rw [log, jobs, system]
  exact inv

namespace LeavesJobs

variable {α β γ : Type}

theorem bind {x : ShellM α} {f : α → ShellM β} (first : LeavesJobs x)
    (next : ∀ a, LeavesJobs (f a)) : LeavesJobs (x >>= f) :=
  bind_keeps Session.jobState first next

theorem pure (a : α) : LeavesJobs (Pure.pure a : ShellM α) := fun _ => rfl

theorem forIn (l : List β) (init : γ) {f : β → γ → ShellM (ForInStep γ)}
    (body : ∀ a c, LeavesJobs (f a c)) : LeavesJobs (ForIn.forIn l init f) :=
  forIn_keeps Session.jobState l init body

/-- What leaves the jobs alone keeps every property of the table, the log and the system. -/
theorem keeps {m : ShellM α} (leaves : LeavesJobs m) {P : Session → Prop}
    (depends : ∀ σ σ', σ'.jobState = σ.jobState → P σ → P σ') : Triple P m (fun _ => P) :=
  fun σ pre => depends σ _ (leaves σ) pre

theorem say (text : String) : LeavesJobs (ShellM.say text) := fun _ => rfl

theorem warn (text : String) : LeavesJobs (ShellM.warn text) := fun _ => rfl

theorem log (text : String) : LeavesJobs (ShellM.log text) := fun _ => rfl

theorem shell : LeavesJobs ShellM.shell := fun _ => rfl

theorem world : LeavesJobs ShellM.world := fun _ => rfl

theorem status : LeavesJobs ShellM.status := fun _ => rfl

theorem modifyShell {f : Shell → Shell} (keeps : ∀ s, (f s).jobs = s.jobs) :
    LeavesJobs (ShellM.modifyShell f) := fun σ => by
  simp only [Session.jobState, ShellM.modifyShell, Prod.mk.injEq]
  exact ⟨keeps σ.shell, rfl, rfl⟩

theorem modifyWorld {f : World → World}
    (keeps : ∀ w, (f w).events = w.events ∧ (f w).system = w.system) :
    LeavesJobs (ShellM.modifyWorld f) := fun σ => by
  simp only [Session.jobState, ShellM.modifyWorld, Prod.mk.injEq]
  exact ⟨rfl, keeps σ.world⟩

theorem setForeground (pgid : Int) :
    LeavesJobs (ShellM.modifyShell fun s => { s with foreground := pgid }) :=
  modifyShell fun _ => rfl

end LeavesJobs

/-- Handing the keyboard signals to a group while `m` runs keeps what `m` keeps, when pre- and
postcondition are properties of the table, the log and the system. -/
theorem Triple.withForeground {α : Type} {pgid : Int} {m : ShellM α} {P : Session → Prop}
    {Q : α → Session → Prop} (body : Triple P m Q)
    (pre : ∀ σ σ', σ'.jobState = σ.jobState → P σ → P σ')
    (post : ∀ r σ σ', σ'.jobState = σ.jobState → Q r σ → Q r σ') :
    Triple P (withForeground pgid m) Q := by
  unfold ShellM.withForeground
  refine .bind ((LeavesJobs.setForeground pgid).keeps pre) fun _ => .bind body fun r => ?_
  exact .bind ((LeavesJobs.setForeground 0).keeps (post r)) fun _ => .pure fun _ q => q

/-! ## Runs that keep to their waits

Whether a system answers waits as `wait4` does is a fact about a whole run: it is judged against
the list `F` of the waits the run makes in the end (`System.OnTrack`, `System.Wait4`). A
`TripleOn F` is a triple about the runs on track for `F` at their end. A system's log of waits only
grows, so such a run was on track at every step before; that is what lets these triples compose,
and every operation gives it as part of its triple. -/

/-- From every session, if `m` ends on track for `F`, it started on track, and `post` holds of
its result when `pre` held. -/
def TripleOn {α : Type} (F : List (Int × Nat)) (pre : Session → Prop) (m : ShellM α)
    (post : α → Session → Prop) : Prop :=
  ∀ σ, (m.run σ).2.world.system.OnTrack F →
    σ.world.system.OnTrack F ∧ (pre σ → post (m.run σ).1 (m.run σ).2)

namespace TripleOn

variable {α β γ : Type} {F : List (Int × Nat)} {P P' : Session → Prop} {Q Q' : α → Session → Prop}

theorem bind {R : β → Session → Prop} {x : ShellM α} {f : α → ShellM β}
    (first : TripleOn F P x Q) (next : ∀ a, TripleOn F (Q a) (f a) R) :
    TripleOn F P (x >>= f) R := fun σ on =>
  have after := next (x.run σ).1 (x.run σ).2 on
  have before := first σ after.1
  ⟨before.1, fun pre => after.2 (before.2 pre)⟩

theorem pure {a : α} (holds : ∀ σ, P σ → Q a σ) : TripleOn F P (Pure.pure a) Q :=
  fun σ on => ⟨on, holds σ⟩

theorem weaken {m : ShellM α} (t : TripleOn F P m Q) (stronger : ∀ σ, P' σ → P σ) :
    TripleOn F P' m Q :=
  fun σ on => ⟨(t σ on).1, fun pre => (t σ on).2 (stronger σ pre)⟩

theorem mono {m : ShellM α} (t : TripleOn F P m Q) (weaker : ∀ a σ, Q a σ → Q' a σ) :
    TripleOn F P m Q' :=
  fun σ on => ⟨(t σ on).1, fun pre => weaker _ _ ((t σ on).2 pre)⟩

/-- A fact about no session in particular is kept. -/
theorem frame {m : ShellM α} {A : Prop} (t : TripleOn F P m Q) :
    TripleOn F (fun σ => P σ ∧ A) m fun r σ => Q r σ ∧ A :=
  fun σ on => ⟨(t σ on).1, fun pre => ⟨(t σ on).2 pre.1, pre.2⟩⟩

/-- A loop keeps an invariant of what is left of the list, the accumulator and the session,
when every round keeps it from one element to the rest. -/
theorem forIn {l : List β} {init : γ} {f : β → γ → ShellM (ForInStep γ)}
    (I : List β → γ → Session → Prop)
    (step : ∀ a rest c, TripleOn F (I (a :: rest) c) (f a c) (fun r σ => I rest r.value σ)) :
    TripleOn F (I l init) (ForIn.forIn l init f) (fun c σ => ∃ rest, I rest c σ) := by
  induction l generalizing init with
  | nil => exact fun σ on => ⟨on, fun pre => ⟨[], pre⟩⟩
  | cons a rest ih =>
    rw [List.forIn_cons]
    refine bind (step a rest init) fun r => ?_
    cases r with
    | done c => exact fun σ on => ⟨on, fun pre => ⟨rest, pre⟩⟩
    | yield c => exact ih

/-- A triple about a computation after which the system follows from the one before holds of
the runs on track. -/
theorem of_follows {m : ShellM α} (t : Triple P m Q)
    (follows : ∀ σ : Session, σ.world.system.Follows (m.run σ).2.world.system) : TripleOn F P m Q :=
  fun σ on => ⟨(follows σ F on).1, t σ⟩

/-- A triple about a computation that leaves the system as it is holds of the runs on track. -/
theorem of_triple {m : ShellM α} (t : Triple P m Q)
    (same : ∀ σ : Session, (m.run σ).2.world.system = σ.world.system) : TripleOn F P m Q :=
  of_follows t fun σ => same σ ▸ .refl _

/-- What follows a read of the session has to keep to `F` only from that session. -/
theorem bind_get {f : Session → ShellM β} {R : β → Session → Prop}
    (next : ∀ σ, ((f σ).run σ).2.world.system.OnTrack F →
      σ.world.system.OnTrack F ∧ (P σ → R ((f σ).run σ).1 ((f σ).run σ).2)) :
    TripleOn F P (MonadState.get >>= f) R :=
  fun σ on => next σ on

/-- What follows a read of the world has to keep to `F` only from sessions with that world. -/
theorem bind_world {f : World → ShellM β} {R : β → Session → Prop}
    (next : ∀ σ, ((f σ.world).run σ).2.world.system.OnTrack F →
      σ.world.system.OnTrack F ∧ (P σ → R ((f σ.world).run σ).1 ((f σ.world).run σ).2)) :
    TripleOn F P (world >>= f) R :=
  fun σ on => next σ on

end TripleOn

section Operations

variable {α : Type} {F : List (Int × Nat)} {P Q : Session → Prop}

theorem shell_on : TripleOn F P shell (fun r σ => P σ ∧ r = σ.shell) :=
  .of_triple shell_spec fun _ => rfl

theorem jobs_on : TripleOn F P jobs (fun r σ => P σ ∧ r = σ.shell.jobs) :=
  .of_triple jobs_spec fun _ => rfl

theorem job?_on (id : Int) : TripleOn F P (job? id) (fun r σ => P σ ∧ r = σ.shell.jobs.get? id) :=
  .of_triple (job?_spec id) fun _ => rfl

theorem setJobs_on {t : Table}
    (step : ∀ σ, P σ → Q { σ with shell := { σ.shell with jobs := t } }) :
    TripleOn F P (setJobs t) (fun _ => Q) :=
  .of_triple (setJobs_spec step) fun _ => rfl

theorem updateJob_on {id : Int} {f : Job → Job}
    (step : ∀ σ t, P σ → σ.shell.jobs.update? id f = some t →
      Q { σ with shell := { σ.shell with jobs := t } })
    (missing : ∀ σ, P σ → σ.shell.jobs.update? id f = none → Q σ) :
    TripleOn F P (updateJob id f) (fun _ => Q) :=
  .of_triple (updateJob_spec step missing) fun σ =>
    updateJob_spec (P := (· = σ)) (Q := fun σ' => σ'.world.system = σ.world.system)
      (fun _ _ same _ => same ▸ rfl) (fun _ same _ => same ▸ rfl) σ rfl

theorem jobEvent_on {name : String} {id : Int}
    (step : ∀ σ σ', P σ → σ.LogsAtMost name id σ' → Q σ') :
    TripleOn F P (jobEvent name id) (fun _ => Q) :=
  .of_triple (jobEvent_spec step) fun σ =>
    jobEvent_spec (P := (· = σ)) (Q := fun σ' => σ'.world.system = σ.world.system)
      (fun _ _ same logs => same ▸ logs.system) σ rfl

theorem recordEvent_execFailed_on {command error : String} (step : ∀ σ σ', P σ →
    σ'.shell = σ.shell → σ'.jobLog = σ.jobLog → σ'.world.system = σ.world.system → Q σ') :
    TripleOn F P (recordEvent (.execFailed command error)) (fun _ => Q) :=
  .of_triple (recordEvent_execFailed_spec step) fun σ =>
    recordEvent_execFailed_spec (P := (· = σ)) (Q := fun σ' => σ'.world.system = σ.world.system)
      (fun _ _ same _ _ system => same ▸ system) σ rfl

theorem kill_on {target : Int} {sig : Nat}
    (step : ∀ σ σ', P σ → σ.KeepsJobs σ' → σ'.world.system.OnTrack F → Q σ') :
    TripleOn F P (kill target sig) (fun _ => Q) := fun σ on =>
  have keeps : σ.KeepsJobs ((kill target sig).run σ).2 :=
    kill_spec (P := (· = σ)) (Q := fun σ' => σ.KeepsJobs σ') (fun _ _ same keeps => same ▸ keeps) σ rfl
  ⟨(keeps.system F on).1, fun pre => step σ _ pre keeps on⟩

theorem launch_on (step : ∀ σ σ', P σ → σ.KeepsJobs σ' → σ'.world.system.OnTrack F → Q σ') :
    TripleOn F P launch (fun _ => Q) := fun σ on =>
  have keeps : σ.KeepsJobs (launch.run σ).2 :=
    launch_spec (P := (· = σ)) (Q := fun σ' => σ.KeepsJobs σ') (fun _ _ same keeps => same ▸ keeps) σ rfl
  ⟨(keeps.system F on).1, fun pre => step σ _ pre keeps on⟩

/-- A wait on a run on track returns a status `wait4` can report, once the system it started
from answers `F` as `wait4` does. -/
theorem waitFor_on {pid : Int} {opts : Nat} {Q : Except Errno WaitStatus → Session → Prop}
    (step : ∀ σ σ' r, P σ → σ.KeepsJobs σ' → σ'.world.system.OnTrack F →
      (σ.world.system.Wait4 F → ∀ ws, r = .ok ws → ws.Reportable opts) → Q r σ') :
    TripleOn F P (waitFor pid opts) Q := fun σ on =>
  have waited : σ.KeepsJobs ((waitFor pid opts).run σ).2 ∧ ∀ F, _ → _ :=
    waitFor_spec (P := (· = σ)) (Q := fun r σ' => σ.KeepsJobs σ' ∧ ∀ F,
        σ'.world.system.OnTrack F → σ.world.system.Wait4 F → ∀ ws, r = .ok ws → ws.Reportable opts)
      (fun _ _ _ same keeps reported => by subst same; exact ⟨keeps, reported⟩) σ rfl
  ⟨(waited.1.system F on).1, fun pre => step σ _ _ pre waited.1 on (waited.2 F on)⟩

/-- What leaves the jobs alone keeps every property of the table, the log and the system. -/
theorem LeavesJobs.keepsOn {m : ShellM α} (leaves : LeavesJobs m)
    (depends : ∀ σ σ', σ'.jobState = σ.jobState → P σ → P σ') : TripleOn F P m (fun _ => P) :=
  .of_triple (leaves.keeps depends) fun σ => (Session.jobState_eq_iff.mp (leaves σ)).2.2

/-- What leaves the jobs alone keeps the trace invariant. -/
theorem LeavesJobs.tracing {m : ShellM α} (leaves : LeavesJobs m) :
    TripleOn F (Session.Tracing F) m (fun _ => Session.Tracing F) :=
  leaves.keepsOn fun _ _ same inv => inv.of_jobState same

/-- Handing the keyboard signals to a group while `m` runs keeps what `m` keeps, when pre- and
postcondition are properties of the table, the log and the system. -/
theorem TripleOn.withForeground {pgid : Int} {m : ShellM α} {Q : α → Session → Prop}
    (body : TripleOn F P m Q) (pre : ∀ σ σ', σ'.jobState = σ.jobState → P σ → P σ')
    (post : ∀ r σ σ', σ'.jobState = σ.jobState → Q r σ → Q r σ') :
    TripleOn F P (withForeground pgid m) Q := by
  unfold ShellM.withForeground
  refine .bind ((LeavesJobs.setForeground pgid).keepsOn pre) fun _ => .bind body fun r => ?_
  exact .bind ((LeavesJobs.setForeground 0).keepsOn (post r)) fun _ => .pure fun _ q => q

/-- Killing and reaping the stages started so far keeps the trace: only the system changes. -/
theorem abort_tracing {g : Group} :
    TripleOn F (Session.Tracing F) (abort g) (fun _ => Session.Tracing F) := by
  unfold abort
  split
  · exact .pure fun _ inv => inv
  · refine .bind (kill_on fun σ σ' inv keeps on => keeps.tracing on inv) fun _ => ?_
    induction g.pids with
    | nil => exact .pure fun _ inv => inv
    | cons pid rest ih =>
      rw [List.forM_eq_forM, List.forM_cons]
      exact .bind (.bind (waitFor_on fun σ σ' _ inv keeps on _ => keeps.tracing on inv) fun _ =>
        .pure fun _ inv => inv) fun _ => ih

theorem launchStages_tracing (g : Group) (stages : List Command) :
    TripleOn F (Session.Tracing F) (launchStages g stages) (fun _ => Session.Tracing F) := by
  induction stages generalizing g with
  | nil => exact .pure fun _ inv => inv
  | cons stage rest ih =>
    rw [launchStages]
    refine .bind (launch_on fun σ σ' inv keeps on => keeps.tracing on inv) fun r => ?_
    cases r with
    | error e => exact .bind abort_tracing fun _ => .pure fun _ inv => inv
    | ok pid => exact ih _

/-- Starting a pipeline's stages keeps the trace: a live host runs them itself and logs no
wait, and elsewhere the system is asked for each process. -/
theorem spawn_tracing {p : Pipeline} :
    TripleOn F (Session.Tracing F) (spawn p) (fun _ => Session.Tracing F) := by
  unfold spawn
  refine .bind_world fun σ => ?_
  split
  · rename_i ps live
    refine fun _ => ⟨by rw [live]; exact List.nil_prefix, fun inv => ?_⟩
    have settled := inv.wait4
    rw [live] at settled
    exact startGroup_spec σ ⟨inv, settled⟩
  · split
    · exact fun on => ⟨on, id⟩
    · exact launchStages_tracing _ _ σ

end Operations

/-! ## Builtins that leave the jobs alone -/

theorem builtinOptions_leavesJobs (args : List String) (specs : List OptionSpec)
    (params : String) : LeavesJobs (builtinOptions args specs params) := by
  unfold builtinOptions
  repeat' first
    | with_reducible exact LeavesJobs.pure _
    | with_reducible exact LeavesJobs.say _
    | with_reducible exact LeavesJobs.warn _
    | with_reducible refine LeavesJobs.bind ?_ fun _ => ?_
    | split
    | dsimp only

theorem changeDir_leavesJobs (dir : String) : LeavesJobs (changeDir dir) := by
  unfold changeDir
  repeat' first
    | with_reducible exact LeavesJobs.pure _
    | with_reducible exact LeavesJobs.world
    | with_reducible exact LeavesJobs.modifyWorld fun _ => ⟨rfl, rfl⟩
    | with_reducible refine LeavesJobs.bind ?_ fun _ => ?_
    | split

theorem setBuiltin_go_leavesJobs (name : String) (args : List String) :
    LeavesJobs (setBuiltin.go name args) := by
  induction args with
  | nil => exact LeavesJobs.pure _
  | cons arg rest ih =>
    unfold setBuiltin.go
    dsimp only
    split
    · exact .bind (LeavesJobs.log _) fun _ => LeavesJobs.pure _
    · exact .bind (LeavesJobs.modifyShell fun _ => rfl) fun _ => ih

/-- Every builtin other than the job commands leaves the table, the log and the system as
they are. -/
theorem runBuiltin_leavesJobs {name : String} (args : List String)
    (other : name ≠ "fg" ∧ name ≠ "bg" ∧ name ≠ "jobs") : LeavesJobs (runBuiltin name args) := by
  unfold runBuiltin
  split
  all_goals first
    | (exfalso; simp_all; done)
    | skip
  all_goals
    try delta aliasBuiltin cdBuiltin commandsBuiltin echoBuiltin envBuiltin exitBuiltin
    try delta exportBuiltin helpBuiltin historyBuiltin pwdBuiltin setBuiltin unaliasBuiltin
    try delta unsetBuiltin versionBuiltin setAlias sortedAliases
  all_goals
    repeat' first
      | with_reducible exact LeavesJobs.pure _
      | with_reducible exact LeavesJobs.say _
      | with_reducible exact LeavesJobs.warn _
      | with_reducible exact LeavesJobs.log _
      | with_reducible exact LeavesJobs.shell
      | with_reducible exact LeavesJobs.world
      | with_reducible exact LeavesJobs.status
      | with_reducible exact LeavesJobs.modifyShell fun _ => rfl
      | with_reducible exact builtinOptions_leavesJobs _ _ _
      | with_reducible exact changeDir_leavesJobs _
      | with_reducible exact setBuiltin_go_leavesJobs _ _
      | with_reducible refine LeavesJobs.bind ?_ fun _ => ?_
      | with_reducible refine LeavesJobs.forIn _ _ fun _ _ => ?_
      | split
      | dsimp only

end JobShell

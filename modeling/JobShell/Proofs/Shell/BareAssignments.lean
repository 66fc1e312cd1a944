import JobShell.Proofs.Script.ExpansionReads
import JobShell.Proofs.Shell.VariableFrame

/-!
# A command of assignments alone

A statement made only of assignments `N₁=v₁ … Nₖ=vₖ` (each possibly `N+=v`) builds its
`NAME=value` entries one after the other, each word expanded with the assignments before it
in front (`prefixAssigns`), and then, run alone in the foreground, sets the entries in order
on the shell's variables with the status 0 (`pipelineOf`).

This module states what that does without the entries. `Assigns sc e bs r` is sequential
assignment: each word is expanded by a scope that reads every name as the store the bindings
before it left (`Scope.SeesStore`), its value, appended to the name's value in that store for
`+=`, is set keeping the name's exported mark, and the first word that fails to expand is the
outcome. It has one outcome from every store a scope sees (`Assigns.unique`), it keeps every
exported mark (`Assigns.isExported`), and the command builder's entries reach it
(`prefixAssigns_assigns`).

Run on its own, the statement leaves the store of that outcome with the status 0, or reports
the failed word with the status 2 and changes nothing (`assignments_outcome`); the main
statement is `assignments_set_in_order`, which adds that the same assignments in the
background, and every pipe, keep every variable (from `JobShell.Proofs.Shell.VariableFrame`).

What the scope lists is not what it reads: `${!P*}` lists the names of the shell before the
statement, so an assignment earlier on the same line is not among them
(`names_listing_misses_assignment_in_front`).
-/
namespace JobShell

open Script ShellM

/-! ## Sequential assignment -/

/-- An assignment `NAME=value`, or `NAME+=value` when `append` holds, of a variable name. -/
structure Binding where
  name : String
  valid : validName name = true
  append : Bool
  value : Word
  pos : Pos

/-- The assignment as a command carries it. -/
def Binding.assign (b : Binding) : Assign :=
  { name := some b.name, pos := b.pos, value := b.value, append := b.append }

/-- The value a binding gives its name when its word expands to `w` and the name's value was
`current`. -/
def Binding.valueOf (b : Binding) (current w : String) : String :=
  if b.append then current ++ w else w

/-- A statement made only of assignments, in the foreground or sent to the background. -/
def assignmentStmt (bs : List Binding) (pos : Pos) (background : Bool) : Stmt :=
  .mk (some (.call (bs.map Binding.assign) [])) pos false background []

/-- Sequential assignment from the store `e`, with `sc` the shell's scope: each binding's word
is expanded by every scope that reads names as `e` and lists the names `sc` lists, and its value
is set; the first word that fails to expand ends it with its error. -/
inductive Assigns (sc : Scope) : Env → List Binding → Except String Env → Prop
  | nil (e : Env) : Assigns sc e [] (.ok e)
  | set {e : Env} {b : Binding} {rest : List Binding} {w : String} {r : Except String Env}
      (expands : ∀ sc', sc'.SeesStore sc e → literalText sc' b.value = .ok w)
      (next : Assigns sc (e.set b.name (b.valueOf (e.get b.name) w)) rest r) :
      Assigns sc e (b :: rest) r
  | fail {e : Env} {b : Binding} {rest : List Binding} {msg : String}
      (fails : ∀ sc', sc'.SeesStore sc e → literalText sc' b.value = .error msg) :
      Assigns sc e (b :: rest) (.error msg)

/-- Sequential assignment has one outcome from a store that some scope sees: two scopes that
see it expand every word alike. -/
theorem Assigns.unique {sc O : Scope} {e : Env} {bs : List Binding} {r r' : Except String Env}
    (sees : O.SeesStore sc e) (first : Assigns sc e bs r) (second : Assigns sc e bs r') :
    r = r' := by
  induction first generalizing O r' with
  | nil e =>
    cases second
    rfl
  | @set e b rest w r expands next ih =>
    cases second with
    | set expands' next' =>
      have same := (expands O sees).symm.trans (expands' O sees)
      cases same
      exact ih (sees.bind b.valid _) next'
    | fail fails' => cases (expands O sees).symm.trans (fails' O sees)
  | @fail e b rest msg fails =>
    cases second with
    | set expands' next' => cases (fails O sees).symm.trans (expands' O sees)
    | fail fails' =>
      cases (fails O sees).symm.trans (fails' O sees)
      rfl

theorem Env.isExported_set (e : Env) (k v name : String) :
    (e.set k v).isExported name = e.isExported name := by
  rw [Env.set, Env.isExported_assign]
  split
  · subst k
    rw [Bool.or_false]
  · rfl

/-- Assignments keep every exported mark; a name they create is not exported. -/
theorem Assigns.isExported {sc : Scope} {e e' : Env} {bs : List Binding}
    (assigns : Assigns sc e bs (.ok e')) (name : String) :
    e'.isExported name = e.isExported name := by
  generalize outcome : (Except.ok e' : Except String Env) = r at assigns
  induction assigns with
  | nil e =>
    cases outcome
    rfl
  | set _ _ ih => rw [ih outcome, Env.isExported_set]
  | fail _ => cases outcome

/-! ## The entries the command builder makes -/

/-- The store after `NAME=value` entries are set in order. -/
def Env.setEntries (e : Env) (entries : List String) : Env :=
  entries.foldl (fun e pair => e.set (splitPair pair).1 (splitPair pair).2) e

/-- The builder's outcome agrees with an outcome of sequential assignment from `e₀`: the same
error, or entries that, set in order on `e₀`, give the same store. -/
inductive Agrees (e₀ : Env) : Except String Env → Except String (List String × Scope) → Prop
  | ok {e : Env} {built : List String × Scope} (sets : e₀.setEntries built.1 = e) :
      Agrees e₀ (.ok e) (.ok built)
  | error {msg : String} : Agrees e₀ (.error msg) (.error msg)

theorem no_equals_of_validName {name : String} (valid : validName name = true) :
    '=' ∉ name.toList := by
  unfold validName at valid
  split at valid
  · rename_i c cs named
    rw [named]
    have first : c ≠ '=' := by
      rintro rfl
      have starts := (Bool.and_eq_true_iff.mp valid).1
      revert starts
      decide
    have rest : '=' ∉ cs := fun member => by
      have := List.all_eq_true.mp (Bool.and_eq_true_iff.mp valid).2 '=' member
      revert this
      decide
    simpa [first.symm] using rest
  · cases valid

theorem Env.setEntries_entry (e : Env) (entries : List String) {name : String}
    (valid : validName name = true) (value : String) :
    e.setEntries (entries ++ [name ++ "=" ++ value]) = (e.setEntries entries).set name value := by
  simp only [Env.setEntries, List.foldl_append, List.foldl_cons, List.foldl_nil]
  rw [splitPair_entry value (no_equals_of_validName valid)]

/-- A binding is never an array assignment: the builder expands its word and puts it in front. -/
theorem prefixAssigns_cons (O : Scope) (b : Binding) (rest : List Assign) (acc : List String) :
    prefixAssigns O (b.assign :: rest) acc = (literalText O b.value >>= fun w =>
      prefixAssigns (O.bind b.name (b.valueOf (O.get b.name) w)) rest
        ((b.name ++ "=" ++ b.valueOf (O.get b.name) w) :: acc)) := rfl

theorem prefixAssigns_cons_ok {O : Scope} {b : Binding} {w : String}
    (expands : literalText O b.value = .ok w) (rest : List Assign) (acc : List String) :
    prefixAssigns O (b.assign :: rest) acc =
      prefixAssigns (O.bind b.name (b.valueOf (O.get b.name) w)) rest
        ((b.name ++ "=" ++ b.valueOf (O.get b.name) w) :: acc) := by
  rw [prefixAssigns_cons, expands]
  rfl

theorem prefixAssigns_cons_error {O : Scope} {b : Binding} {msg : String}
    (fails : literalText O b.value = .error msg) (rest : List Assign) (acc : List String) :
    prefixAssigns O (b.assign :: rest) acc = .error msg := by
  rw [prefixAssigns_cons, fails]
  rfl

/-- The value a scope that sees a store gives a variable name is the store's. -/
theorem Script.Scope.SeesStore.get {O sc : Scope} {e : Env} (sees : O.SeesStore sc e) {name : String}
    (valid : validName name = true) : O.get name = e.get name := by
  rw [Scope.get, sees.lookup, Env.get, Scope.lookup_plain valid]

/-- The command builder, from a scope with the entries so far in front, reaches an outcome of
sequential assignment. The induction is on the bindings, with the scope, the store it sees and
the entries so far generalised: each binding puts one more assignment in front and one more
entry on the list, and the store those entries give is the one the scope reads. -/
theorem prefixAssigns_assigns {sc : Scope} {e₀ : Env} (bs : List Binding) :
    ∀ {O : Scope} {e : Env} {acc : List String}, O.SeesStore sc e →
      e₀.setEntries acc.reverse = e →
      ∃ r, Assigns sc e bs r ∧ Agrees e₀ r (prefixAssigns O (bs.map Binding.assign) acc) := by
  induction bs with
  | nil =>
    intro O e acc _ sets
    exact ⟨.ok e, .nil e, .ok sets⟩
  | cons b rest ih =>
    intro O e acc sees sets
    have alike : ∀ sc', sc'.SeesStore sc e → literalText sc' b.value = literalText O b.value :=
      fun sc' sees' => literalText_congr (sees'.alike sees) b.value
    rw [List.map_cons]
    cases expands : literalText O b.value with
    | error msg =>
      refine ⟨.error msg, .fail fun sc' sees' => (alike sc' sees').trans expands, ?_⟩
      rw [prefixAssigns_cons_error expands]
      exact .error
    | ok w =>
      rw [prefixAssigns_cons_ok expands, sees.get b.valid]
      -- one more assignment in front is one more variable set in the store it sees
      have sets' : e₀.setEntries ((b.name ++ "=" ++ b.valueOf (e.get b.name) w) :: acc).reverse =
          e.set b.name (b.valueOf (e.get b.name) w) := by
        rw [List.reverse_cons, Env.setEntries_entry _ _ b.valid, sets]
      obtain ⟨r, assigns, agrees⟩ := ih (sees.bind b.valid _) sets'
      exact ⟨r, .set (fun sc' sees' => (alike sc' sees').trans expands) assigns, agrees⟩

/-! ## Running the statement -/

/-- The shell's scope for expanding the words of a command. -/
def Session.scope (σ : Session) : Scope := ((JobShell.scope []).run σ).1

/-- `σ` with the store `e` in place of the shell's variables. -/
def Session.withVars (σ : Session) (e : Env) : Session :=
  { σ with shell := { σ.shell with env := e } }

theorem scope_nil_run (σ : Session) : (JobShell.scope []).run σ = (σ.scope, σ) := rfl

/-- The shell's scope sees the shell's variables. -/
theorem Session.scope_sees (σ : Session) : σ.scope.SeesStore σ.scope σ.shell.env :=
  Scope.SeesStore.self rfl

theorem run_bind_eq {α β : Type} {x : ShellM α} {f : α → ShellM β} {σ σ' : Session} {a : α}
    (first : x.run σ = (a, σ')) : (x >>= f).run σ = (f a).run σ' := by
  rw [run_bind, first]

theorem buildCommand_assignments_run (assigns : List Assign) (σ : Session) :
    (buildCommand assigns [] []).run σ =
      ((prefixAssigns σ.scope assigns []).map fun r => ({ env := r.1 } : Command), σ) := by
  rw [buildCommand, run_bind, scope_nil_run]
  dsimp only
  rw [run_bind]
  cases prefixAssigns σ.scope assigns [] with
  | error e => rfl
  | ok r =>
    show (Except.ok _, σ) = _
    rfl

/-- A loop whose every round changes the store by `step` changes it by all of them in order. -/
theorem forIn_vars {β : Type} {f : β → PUnit → ShellM (ForInStep PUnit)} (step : Env → β → Env)
    (round : ∀ a σ, (f a ⟨⟩).run σ = (.yield ⟨⟩, σ.withVars (step σ.shell.env a))) (l : List β)
    (σ : Session) : (forIn l ⟨⟩ f).run σ = (⟨⟩, σ.withVars (l.foldl step σ.shell.env)) := by
  induction l generalizing σ with
  | nil => rfl
  | cons a rest ih =>
    rw [List.forIn_cons, run_bind_eq (round a σ)]
    exact ih _

/-- A lone foreground command of assignments whose entries were built sets them in order and
the status 0. -/
theorem pipelineOf_assignments_ok {assigns : List Assign} {σ : Session}
    {built : List String × Scope} (made : prefixAssigns σ.scope assigns [] = .ok built)
    (pos : Pos) (negated : Bool) :
    (pipelineOf (.mk (some (.call assigns [])) pos negated false [])).run σ =
      (.ok none, (σ.withVars (σ.shell.env.setEntries built.1)).withStatus 0) := by
  have build := buildCommand_assignments_run assigns σ
  rw [made] at build
  unfold pipelineOf
  simp only [pipeStages, List.forIn_cons, List.forIn_nil, Stmt.cmd, Stmt.redirs, Stmt.background,
    List.length_singleton, beq_self_eq_true, Bool.not_false, Bool.and_self, if_true, bind_assoc]
  rw [run_bind_eq build]
  dsimp only [Except.map, List.isEmpty_nil]
  rw [if_pos rfl]
  simp only [bind_assoc]
  rw [run_bind_eq (forIn_vars (fun e pair => e.set (splitPair pair).1 (splitPair pair).2)
    (fun _ _ => rfl) built.1 σ)]
  rfl

theorem pipelineOf_assignments_error {assigns : List Assign} {σ : Session} {msg : String}
    (fails : prefixAssigns σ.scope assigns [] = .error msg) (pos : Pos) (negated : Bool) :
    (pipelineOf (.mk (some (.call assigns [])) pos negated false [])).run σ = (.error msg, σ) := by
  have build := buildCommand_assignments_run assigns σ
  rw [fails] at build
  unfold pipelineOf
  simp only [pipeStages, List.forIn_cons, List.forIn_nil, Stmt.cmd, Stmt.redirs, Stmt.background,
    List.length_singleton, beq_self_eq_true, Bool.not_false, Bool.and_self, if_true, bind_assoc]
  rw [run_bind_eq build]
  rfl

/-- What a lone foreground command of assignments leaves: the store the assignments reach,
with every exported mark kept and the status 0, or the report of the word that failed. -/
inductive Assigned (σ : Session) : Except String Env → Session → Prop
  | ok {e : Env} (flags : ∀ name, e.isExported name = σ.shell.env.isExported name) :
      Assigned σ (.ok e) ((σ.withVars e).withStatus 0)
  | error {msg : String} : Assigned σ (.error msg) (σ.report msg)

theorem Assigned.env_of_ok {σ σ' : Session} {e : Env} (assigned : Assigned σ (.ok e) σ') :
    σ'.shell.env = e := by
  cases assigned
  rfl

/-- A lone foreground command of assignments, run from a shell that has not quit, reaches an
outcome of sequential assignment from the shell's variables. -/
theorem assignments_outcome (σ : Session) (awake : σ.shell.quit = false) (bs : List Binding)
    (pos : Pos) : ∃ r, Assigns σ.scope σ.shell.env bs r ∧
      Assigned σ r ((runStmts [assignmentStmt bs pos false]).run σ).2 := by
  obtain ⟨r, assigns, agrees⟩ := prefixAssigns_assigns bs σ.scope_sees
    (rfl : σ.shell.env.setEntries ([] : List String).reverse = σ.shell.env)
  refine ⟨r, assigns, ?_⟩
  generalize made : prefixAssigns σ.scope (bs.map Binding.assign) [] = built at agrees
  cases agrees with
  | @ok e built sets =>
    have run : (runPipeline (assignmentStmt bs pos false)).run σ =
        (.ok (), (σ.withVars e).withStatus 0) := by
      unfold runPipeline assignmentStmt
      rw [run_bind_eq (pipelineOf_assignments_ok made pos false), sets]
      rfl
    rw [runStmts_single_ok (s := assignmentStmt bs pos false) .call awake run]
    exact .ok assigns.isExported
  | @error msg =>
    have run : (runPipeline (assignmentStmt bs pos false)).run σ = (.error msg, σ) := by
      unfold runPipeline assignmentStmt
      rw [run_bind_eq (pipelineOf_assignments_error made pos false)]
      rfl
    rw [runStmts_single_error (s := assignmentStmt bs pos false) .call awake run]
    exact .error

/-! ## The statement run on its own -/

/-- What running a command of assignments alone does to the shell `σ`. -/
structure AssignmentRuns (σ : Session) (bs : List Binding) (pos : Pos) : Prop where
  /-- In the foreground, the one outcome of sequential assignment from the shell's variables. -/
  foreground : ∃ r, (∀ r', Assigns σ.scope σ.shell.env bs r' ↔ r' = r) ∧
    Assigned σ r ((runStmts [assignmentStmt bs pos false]).run σ).2
  /-- In the background, no variable changes. -/
  background : ((runStmts [assignmentStmt bs pos true]).run σ).2.shell.env = σ.shell.env
  /-- As a stage of a pipe, as in every pipe, no variable changes. -/
  piped : ∀ (x y : Stmt) (negated background : Bool) (redirs : List Redirect),
    ((runStmts [.mk (some (.binary .pipe x y)) pos negated background redirs]).run σ).2.shell.env =
      σ.shell.env

theorem pipe_two_stages (x y : Stmt) (pos : Pos) (negated background : Bool)
    (redirs : List Redirect) :
    2 ≤ (pipeStages (.mk (some (.binary .pipe x y)) pos negated background redirs)).length := by
  have left := pipeStages_length_pos x
  have right := pipeStages_length_pos y
  rw [pipeStages, List.length_append]
  omega

/-- A command of assignments alone, run on its own from a shell that has not quit: in the
foreground it assigns in order, each word expanded with the assignments before it made,
keeping every exported mark, with the status 0, or it reports the first word that fails to
expand and changes nothing else; in the background, or as any stage of a pipe, it keeps every
variable. -/
theorem assignments_set_in_order (σ : Session) (bs : List Binding) (pos : Pos)
    (awake : σ.shell.quit = false) : AssignmentRuns σ bs pos := by
  obtain ⟨r, assigns, assigned⟩ := assignments_outcome σ awake bs pos
  have unique : ∀ r', Assigns σ.scope σ.shell.env bs r' ↔ r' = r := fun r' =>
    ⟨fun other => Assigns.unique σ.scope_sees other assigns, fun same => same ▸ assigns⟩
  refine ⟨⟨r, unique, assigned⟩, ?_, fun x y negated background redirs => ?_⟩
  · exact runStmts_single_vars .call (runPipeline_outside (.inl rfl)) σ
  · exact runStmts_single_vars .pipe
      (runPipeline_outside (.inr (pipe_two_stages x y pos negated background redirs))) σ

theorem assignments_set_in_order_from_start :
    let σ := Session.start Settings.builtin [] { nodes := [([], .dir)] } [] "" (.scripted {}) []
    let bs : List Binding :=
      [⟨"A", by decide, false, [.lit "1"], ⟨1, 1⟩⟩, ⟨"A", by decide, true, [.lit "2"], ⟨1, 5⟩⟩]
    σ.shell.quit = false ∧ AssignmentRuns σ bs ⟨1, 1⟩ := by
  intro σ bs
  exact ⟨rfl, assignments_set_in_order σ bs ⟨1, 1⟩ rfl⟩

/-! ## Names listed -/

/-- A prefix that no variable name starts with lists nothing, when no name holds a `=`. -/
theorem namesWithPrefix_eq_nil {sc : Scope} (plain : sc.vars.Plain) {pre : String}
    (unused : ∀ p ∈ sc.vars.vars, p.1.startsWith pre = false) : namesWithPrefix sc pre = [] := by
  rw [namesWithPrefix, List.filter_eq_nil_iff]
  intro name listed
  obtain ⟨x, member, rfl⟩ := List.mem_map.mp listed
  rw [Env.all, Env.entries_eq, mem_sortTexts, List.mem_filterMap] at member
  obtain ⟨p, inVars, entered⟩ := member
  rw [Env.splitPair_entry_of_mem (plain.no_equals p inVars) entered, unused p inVars]
  decide

theorem literal_param (n : Nat) (sc : Scope) (p : Param) :
    literal (n + 3) sc [.param p] = paramValue n sc p := by
  cases h : paramValue n sc p <;>
    simp only [literal, wordField, partField, h, List.zipIdx_cons, List.zipIdx_nil, List.mapM_cons,
      List.mapM_nil] <;> rfl

/-- `${!A*}` lists the names of the shell's variables, before the statement, that start with `A`:
after `A=1 B=${!A*}` on a shell with no such name, `B` is set empty, not to `A`. -/
theorem names_listing_misses_assignment_in_front :
    let σ := Session.start Settings.builtin [] { nodes := [([], .dir)] } [] "" (.scripted {}) []
    let a : Binding := ⟨"A", by decide, false, [.lit "1"], ⟨1, 1⟩⟩
    let b : Binding := ⟨"B", by decide, false,
      [.param (.mk "A" ⟨1, 5⟩ false true true none false none none .none)], ⟨1, 5⟩⟩
    let after := ((runStmts [assignmentStmt [a, b] ⟨1, 1⟩ false]).run σ).2.shell.env
    after.lookup "A" = some "1" ∧ after.lookup "B" = some "" ∧ after.lookup "B" ≠ some "A" := by
  intro σ a b after
  have plain : σ.scope.vars.Plain := Env.Plain.assign Env.Plain.empty _ _ (by decide)
  have none_start : namesWithPrefix σ.scope "A" = [] :=
    namesWithPrefix_eq_nil plain (by decide +kernel)
  -- the only outcome: `A` set to `1`, then `B` to the empty list of names
  have outcome : Assigns σ.scope σ.shell.env [a, b]
      (.ok (((σ.shell.env.set "A" "1")).set "B" "")) := by
    refine .set (w := "1") (fun sc' _ => rfl) (.set (w := "") (fun sc' sees => ?_) (.nil _))
    show literal (99997 + 3) sc' _ = _
    rw [literal_param]
    show Except.ok (" ".intercalate (namesWithPrefix sc' "A")) = _
    rw [sees.names, none_start]
    rfl
  obtain ⟨r, assigns, assigned⟩ := assignments_outcome σ rfl [a, b] ⟨1, 1⟩
  cases Assigns.unique σ.scope_sees outcome assigns
  rw [show after = (σ.shell.env.set "A" "1").set "B" "" from assigned.env_of_ok]
  simp only [Env.set, Env.lookup_assign]
  decide

end JobShell

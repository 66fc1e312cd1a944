import JobShell.Shell.Eval

/-!
# Control flow of command lines

How the shell runs what it parsed, as a big-step relation whose rules are the POSIX rules
for the constructs it supports: a list runs its statements in order, `x && y` runs `y`
after a success of `x` and `x || y` after a failure, `!` turns success into 1 and any
failure into 0, an `if` runs the body of the first condition that succeeds (its `else`
when none does, status 0 when there is no `else`), and `{ …; }` runs its body. Once the
shell has been told to quit nothing more runs. A construct the shell refuses, and a
pipeline that fails to build, is an error of its statement; the list reports it, sets the
status to 2 and goes on. Simple commands and pipelines are the leaves: they run as
`runPipeline` runs them.

The evaluator is exactly this relation (`runStmts_iff`, `runStmt_iff`): completeness goes
by the evaluator's own recursion, soundness by recursion on the derivation, and both only
through one equation per evaluator function, so the relation is deterministic and total.
A command line therefore ends with the status, quit flag and exit code the relation gives
for its statements, since catching up with the children afterwards touches none of them;
and a lone `exit` quits with the low byte of its argument, or of the last status, as the
exit code (`lines_follow_control_flow`).
-/
namespace JobShell

open Script ShellM

namespace Session

/-- The session with its last status set. -/
def withStatus (σ : Session) (n : Int) : Session :=
  { σ with shell := { σ.shell with lastRet := n } }

/-- The session after a statement's error is reported: the message goes to standard error
and the status is 2. -/
def report (σ : Session) (e : String) : Session :=
  ({ σ with world := { σ.world with err := σ.world.err ++ ("ushell: " ++ e ++ "\n") } } :
    Session).withStatus 2

/-- `!` applied to the last status. -/
def negate (σ : Session) : Session := σ.withStatus (if σ.shell.lastRet = 0 then 1 else 0)

end Session

namespace Script

/-- `&&` and `||`, the operators of a command list. -/
def BinOp.IsList (op : BinOp) : Prop := op = .and ∨ op = .or

/-- Whether a command list goes on to its right side after its left side ended with
`status`: `&&` after a success, `||` after a failure. -/
def BinOp.Proceeds (op : BinOp) (status : Int) : Prop :=
  op = .and ∧ status = 0 ∨ op = .or ∧ status ≠ 0

instance (op : BinOp) (status : Int) : Decidable (op.Proceeds status) :=
  inferInstanceAs (Decidable (op = .and ∧ status = 0 ∨ op = .or ∧ status ≠ 0))

namespace Stmt

/-- Simple commands, declarations and `|` pipes run as one pipeline. -/
inductive RunsAsPipeline : Stmt → Prop
  | call {assigns : List Assign} {args : List Word} {pos : Pos} {negated background : Bool}
      {redirs : List Redirect} :
      RunsAsPipeline (.mk (some (.call assigns args)) pos negated background redirs)
  | decl {variant : String} {args : List Assign} {pos : Pos} {negated background : Bool}
      {redirs : List Redirect} :
      RunsAsPipeline (.mk (some (.decl variant args)) pos negated background redirs)
  | pipe {x y : Stmt} {pos : Pos} {negated background : Bool} {redirs : List Redirect} :
      RunsAsPipeline (.mk (some (.binary .pipe x y)) pos negated background redirs)

/-- The constructs the shell parses but does not run, with what it says of each. -/
inductive Refused : Stmt → String → Prop
  | pipeAll {x y : Stmt} {pos : Pos} {negated background : Bool} {redirs : List Redirect} :
      Refused (.mk (some (.binary .pipeAll x y)) pos negated background redirs)
        (unsupported pos BinOp.pipeAll.text)
  | backgroundList {op : BinOp} {x y : Stmt} {pos : Pos} {negated : Bool}
      {redirs : List Redirect} (list : op.IsList) :
      Refused (.mk (some (.binary op x y)) pos negated true redirs)
        (unsupported pos "background command list")
  | cond {clauses : List (List Stmt × List Stmt)} {pos : Pos} {negated background : Bool}
      {redirs : List Redirect} (special : background = true ∨ redirs ≠ []) :
      Refused (.mk (some (.cond clauses)) pos negated background redirs)
        (unsupported pos "redirected or background if")
  | block {body : List Stmt} {pos : Pos} {negated background : Bool} {redirs : List Redirect}
      (special : background = true ∨ redirs ≠ []) :
      Refused (.mk (some (.block body)) pos negated background redirs)
        (unsupported pos "redirected or background block")
  | other {kind : String} {pos : Pos} {negated background : Bool} {redirs : List Redirect} :
      Refused (.mk (some (.other kind)) pos negated background redirs) (unsupported pos kind)
  | noCommand {pos : Pos} {negated background : Bool} {redirs : List Redirect} :
      Refused (.mk none pos negated background redirs)
        (unsupported pos "redirection without a command")

end Stmt

end Script

mutual

/-- Running a list of statements from `σ` ends in `σ'`. -/
inductive RunsStmts : Session → List Stmt → Session → Prop
  | nil (σ : Session) : RunsStmts σ [] σ
  /-- Once the shell is told to quit, no statement runs. -/
  | quit {σ : Session} {s : Stmt} {rest : List Stmt} (quit : σ.shell.quit = true) :
      RunsStmts σ (s :: rest) σ
  | ok {σ σ₁ σ₂ : Session} {s : Stmt} {rest : List Stmt} (going : σ.shell.quit = false)
      (first : RunsStmt σ s (.ok ()) σ₁) (others : RunsStmts σ₁ rest σ₂) :
      RunsStmts σ (s :: rest) σ₂
  /-- A statement that fails is reported with status 2, and the list goes on. -/
  | error {σ σ₁ σ₂ : Session} {s : Stmt} {rest : List Stmt} {e : String}
      (going : σ.shell.quit = false) (first : RunsStmt σ s (.error e) σ₁)
      (others : RunsStmts (σ₁.report e) rest σ₂) :
      RunsStmts σ (s :: rest) σ₂

/-- Running a statement from `σ` ends in `σ'` with result `r`: its command runs, and `!`
maps the status of a command that did not fail. -/
inductive RunsStmt : Session → Stmt → Except String Unit → Session → Prop
  | plain {σ σ' : Session} {s : Stmt} {r : Except String Unit} (plain : s.negated = false)
      (command : RunsCommand σ s r σ') : RunsStmt σ s r σ'
  | negated {σ σ' : Session} {s : Stmt} (negated : s.negated = true)
      (command : RunsCommand σ s (.ok ()) σ') : RunsStmt σ s (.ok ()) σ'.negate
  | negated_error {σ σ' : Session} {s : Stmt} {e : String} (negated : s.negated = true)
      (command : RunsCommand σ s (.error e) σ') : RunsStmt σ s (.error e) σ'

/-- Running the command of a statement, whatever its `!`. -/
inductive RunsCommand : Session → Stmt → Except String Unit → Session → Prop
  /-- Simple commands and pipelines are the leaves. -/
  | pipeline {σ σ' : Session} {s : Stmt} {r : Except String Unit} (leaf : s.RunsAsPipeline)
      (run : (runPipeline s).run σ = (r, σ')) : RunsCommand σ s r σ'
  | refused {σ : Session} {s : Stmt} {e : String} (refused : s.Refused e) :
      RunsCommand σ s (.error e) σ
  /-- An error of the left side is the error of the whole list. -/
  | left_error {σ σ₁ : Session} {op : BinOp} {x y : Stmt} {pos : Pos} {negated : Bool}
      {redirs : List Redirect} {e : String} (list : op.IsList)
      (left : RunsStmt σ x (.error e) σ₁) :
      RunsCommand σ (.mk (some (.binary op x y)) pos negated false redirs) (.error e) σ₁
  | left_quits {σ σ₁ : Session} {op : BinOp} {x y : Stmt} {pos : Pos} {negated : Bool}
      {redirs : List Redirect} (list : op.IsList) (left : RunsStmt σ x (.ok ()) σ₁)
      (quit : σ₁.shell.quit = true) :
      RunsCommand σ (.mk (some (.binary op x y)) pos negated false redirs) (.ok ()) σ₁
  | left_only {σ σ₁ : Session} {op : BinOp} {x y : Stmt} {pos : Pos} {negated : Bool}
      {redirs : List Redirect} (list : op.IsList) (left : RunsStmt σ x (.ok ()) σ₁)
      (going : σ₁.shell.quit = false) (stops : ¬op.Proceeds σ₁.shell.lastRet) :
      RunsCommand σ (.mk (some (.binary op x y)) pos negated false redirs) (.ok ()) σ₁
  | both {σ σ₁ σ₂ : Session} {op : BinOp} {x y : Stmt} {pos : Pos} {negated : Bool}
      {redirs : List Redirect} {r : Except String Unit} (left : RunsStmt σ x (.ok ()) σ₁)
      (going : σ₁.shell.quit = false) (proceeds : op.Proceeds σ₁.shell.lastRet)
      (right : RunsStmt σ₁ y r σ₂) :
      RunsCommand σ (.mk (some (.binary op x y)) pos negated false redirs) r σ₂
  | cond {σ σ' : Session} {clauses : List (List Stmt × List Stmt)} {pos : Pos}
      {negated : Bool} (run : RunsClauses σ clauses σ') :
      RunsCommand σ (.mk (some (.cond clauses)) pos negated false []) (.ok ()) σ'
  | block {σ σ' : Session} {body : List Stmt} {pos : Pos} {negated : Bool}
      (run : RunsStmts σ body σ') :
      RunsCommand σ (.mk (some (.block body)) pos negated false []) (.ok ()) σ'

/-- Running the clauses of an `if`: the conditions in turn until one succeeds, then its
body. -/
inductive RunsClauses : Session → List (List Stmt × List Stmt) → Session → Prop
  /-- No branch taken: status 0. -/
  | none_taken (σ : Session) : RunsClauses σ [] (σ.withStatus 0)
  | else_branch {σ σ' : Session} {body : List Stmt} {rest : List (List Stmt × List Stmt)}
      (run : RunsStmts σ body σ') : RunsClauses σ (([], body) :: rest) σ'
  | cond_quits {σ σ₁ : Session} {cond body : List Stmt} {rest : List (List Stmt × List Stmt)}
      (guarded : cond ≠ []) (test : RunsStmts σ cond σ₁) (quit : σ₁.shell.quit = true) :
      RunsClauses σ ((cond, body) :: rest) σ₁
  | taken {σ σ₁ σ₂ : Session} {cond body : List Stmt} {rest : List (List Stmt × List Stmt)}
      (guarded : cond ≠ []) (test : RunsStmts σ cond σ₁) (going : σ₁.shell.quit = false)
      (success : σ₁.shell.lastRet = 0) (run : RunsStmts σ₁ body σ₂) :
      RunsClauses σ ((cond, body) :: rest) σ₂
  | next {σ σ₁ σ₂ : Session} {cond body : List Stmt} {rest : List (List Stmt × List Stmt)}
      (guarded : cond ≠ []) (test : RunsStmts σ cond σ₁) (going : σ₁.shell.quit = false)
      (failure : σ₁.shell.lastRet ≠ 0) (others : RunsClauses σ₁ rest σ₂) :
      RunsClauses σ ((cond, body) :: rest) σ₂

end

/-! ## One step of the evaluator

Each equation says what one call of an evaluator function does, in terms of the calls it
makes; the proofs below use these and never unfold the evaluator themselves.
-/

namespace ShellM

/-- Running `x >>= f` runs `f` on what `x` gives, from the session `x` leaves. -/
theorem run_bind {α β : Type} (x : ShellM α) (f : α → ShellM β) (σ : Session) :
    (x >>= f).run σ = (f (x.run σ).1).run (x.run σ).2 := rfl

end ShellM

section Steps

variable (σ : Session)

private theorem shell_run : shell.run σ = (σ.shell, σ) := rfl

private theorem status_run : status.run σ = (σ.shell.lastRet, σ) := rfl

theorem runStmts_nil_run : (runStmts []).run σ = ((), σ) := by
  rw [runStmts]
  rfl

theorem runStmts_cons_run (s : Stmt) (rest : List Stmt) :
    (runStmts (s :: rest)).run σ =
      if σ.shell.quit then ((), σ) else
        match (runStmt s).run σ with
        | (.ok (), σ₁) => (runStmts rest).run σ₁
        | (.error e, σ₁) => (runStmts rest).run (σ₁.report e) := by
  rw [runStmts, run_bind, shell_run]
  by_cases quit : σ.shell.quit = true
  · rw [if_pos quit, if_pos quit]
    rfl
  · rw [if_neg quit, if_neg quit, run_bind]
    rcases (runStmt s).run σ with ⟨_ | _, σ₁⟩ <;> rfl

theorem runStmt_run (s : Stmt) :
    (runStmt s).run σ =
      match (runCommand s).run σ with
      | (.ok (), σ₁) => (.ok (), if s.negated then σ₁.negate else σ₁)
      | (.error e, σ₁) => (.error e, σ₁) := by
  rw [runStmt]
  simp only [run_bind]
  rcases (runCommand s).run σ with ⟨_ | _, σ₁⟩
  · rfl
  · cases s.negated
    · rfl
    · simp only [beq_iff_eq]
      rfl

theorem runClauses_nil_run : (runClauses []).run σ = ((), σ.withStatus 0) := by
  rw [runClauses]
  rfl

theorem runClauses_cons_run (cond body : List Stmt) (rest : List (List Stmt × List Stmt)) :
    (runClauses ((cond, body) :: rest)).run σ =
      if cond.isEmpty then ((), ((runStmts body).run σ).2) else
        let σ₁ := ((runStmts cond).run σ).2
        if σ₁.shell.quit then ((), σ₁)
        else if σ₁.shell.lastRet = 0 then ((), ((runStmts body).run σ₁).2)
        else (runClauses rest).run σ₁ := by
  rw [runClauses]
  split
  · simp only [run_bind]
    rfl
  · rw [run_bind]
    rcases (runStmts cond).run σ with ⟨⟨⟩, σ₁⟩
    rw [run_bind, shell_run]
    by_cases quit : σ₁.shell.quit = true
    · rw [if_pos quit, if_pos quit]
      rfl
    · rw [if_neg quit, if_neg quit, run_bind, status_run]
      by_cases zero : σ₁.shell.lastRet = 0
      · simp only [zero, beq_self_eq_true, if_true]
        rfl
      · simp only [zero, beq_iff_eq, if_false]

theorem runCommand_pipeline_run {s : Stmt} (leaf : s.RunsAsPipeline) :
    (runCommand s).run σ = (runPipeline s).run σ := by
  cases leaf <;> rw [runCommand]

theorem runCommand_refused_run {s : Stmt} {e : String} (refused : s.Refused e) :
    (runCommand s).run σ = (.error e, σ) := by
  cases refused with
  | pipeAll | other | noCommand =>
    rw [runCommand]
    rfl
  | backgroundList list =>
    rcases list with rfl | rfl <;>
    · rw [runCommand.eq_def]
      rfl
  | @cond _ _ _ background redirs special | @block _ _ _ background redirs special =>
    have refusing : (background || !redirs.isEmpty) = true := by
      rcases special with rfl | filled
      · rfl
      · simp [filled]
    rw [runCommand, if_pos refusing]
    rfl

/-- The evaluator's test for going on to the right side of a command list. -/
private theorem test_iff_proceeds {op : BinOp} (list : op.IsList) (status : Int) :
    ((op == .and) == (status == 0)) = true ↔ op.Proceeds status := by
  rcases list with rfl | rfl
  · show (true == (status == 0)) = true ↔ _
    simp [BinOp.Proceeds]
  · show (false == (status == 0)) = true ↔ _
    simp [BinOp.Proceeds]

theorem runCommand_list_run {op : BinOp} (list : op.IsList) (x y : Stmt) (pos : Pos)
    (negated : Bool) (redirs : List Redirect) :
    (runCommand (.mk (some (.binary op x y)) pos negated false redirs)).run σ =
      match (runStmt x).run σ with
      | (.error e, σ₁) => (.error e, σ₁)
      | (.ok (), σ₁) =>
        if σ₁.shell.quit then (.ok (), σ₁)
        else if op.Proceeds σ₁.shell.lastRet then (runStmt y).run σ₁
        else (.ok (), σ₁) := by
  -- the evaluator tests `(op == .and) == (status == 0)`; the two operators are taken apart
  have test := test_iff_proceeds list
  rcases list with rfl | rfl <;>
  · rw [runCommand.eq_def]
    dsimp only
    rw [if_neg Bool.false_ne_true, run_bind]
    rcases (runStmt x).run σ with ⟨_ | ⟨⟩, σ₁⟩
    · rfl
    · dsimp only
      rw [run_bind, shell_run]
      by_cases quit : σ₁.shell.quit = true
      · rw [if_pos quit, if_pos quit]
        rfl
      · rw [if_neg quit, if_neg quit, run_bind, status_run]
        dsimp only
        simp only [test]
        split <;> rfl

theorem runCommand_cond_run (clauses : List (List Stmt × List Stmt)) (pos : Pos) (negated : Bool) :
    (runCommand (.mk (some (.cond clauses)) pos negated false [])).run σ =
      (.ok (), ((runClauses clauses).run σ).2) := by
  rw [runCommand]
  rfl

theorem runCommand_block_run (body : List Stmt) (pos : Pos) (negated : Bool) :
    (runCommand (.mk (some (.block body)) pos negated false [])).run σ =
      (.ok (), ((runStmts body).run σ).2) := by
  rw [runCommand]
  rfl

end Steps

/-- Every statement is a pipeline, a construct the shell refuses, a command list, an `if` or
a block. -/
theorem Script.Stmt.shape : (s : Stmt) →
    s.RunsAsPipeline ∨ (∃ e, s.Refused e) ∨
      (∃ op x y pos negated redirs,
        op.IsList ∧ s = .mk (some (.binary op x y)) pos negated false redirs) ∨
      (∃ clauses pos negated, s = .mk (some (.cond clauses)) pos negated false []) ∨
      (∃ body pos negated, s = .mk (some (.block body)) pos negated false [])
  | .mk none _ _ _ _ => .inr (.inl ⟨_, .noCommand⟩)
  | .mk (some (.call _ _)) _ _ _ _ => .inl .call
  | .mk (some (.decl _ _)) _ _ _ _ => .inl .decl
  | .mk (some (.binary .pipe _ _)) _ _ _ _ => .inl .pipe
  | .mk (some (.binary .pipeAll _ _)) _ _ _ _ => .inr (.inl ⟨_, .pipeAll⟩)
  | .mk (some (.binary .and x y)) pos negated false redirs =>
    .inr (.inr (.inl ⟨.and, x, y, pos, negated, redirs, .inl rfl, rfl⟩))
  | .mk (some (.binary .or x y)) pos negated false redirs =>
    .inr (.inr (.inl ⟨.or, x, y, pos, negated, redirs, .inr rfl, rfl⟩))
  | .mk (some (.binary .and _ _)) _ _ true _ => .inr (.inl ⟨_, .backgroundList (.inl rfl)⟩)
  | .mk (some (.binary .or _ _)) _ _ true _ => .inr (.inl ⟨_, .backgroundList (.inr rfl)⟩)
  | .mk (some (.cond clauses)) pos negated false [] =>
    .inr (.inr (.inr (.inl ⟨clauses, pos, negated, rfl⟩)))
  | .mk (some (.cond _)) _ _ true _ => .inr (.inl ⟨_, .cond (.inl rfl)⟩)
  | .mk (some (.cond _)) _ _ false (_ :: _) =>
    .inr (.inl ⟨_, .cond (.inr (List.cons_ne_nil _ _))⟩)
  | .mk (some (.block body)) pos negated false [] =>
    .inr (.inr (.inr (.inr ⟨body, pos, negated, rfl⟩)))
  | .mk (some (.block _)) _ _ true _ => .inr (.inl ⟨_, .block (.inl rfl)⟩)
  | .mk (some (.block _)) _ _ false (_ :: _) =>
    .inr (.inl ⟨_, .block (.inr (List.cons_ne_nil _ _))⟩)
  | .mk (some (.other _)) _ _ _ _ => .inr (.inl ⟨_, .other⟩)

/-! ## The evaluator follows the rules

What the evaluator does is an outcome under the rules. The proof recurses as the evaluator
does: on smaller statements, and from `runStmt` to `runCommand` on the same one.
-/

mutual

theorem runStmts_runs (l : List Stmt) (σ : Session) : RunsStmts σ l ((runStmts l).run σ).2 := by
  match l with
  | [] =>
    rw [runStmts_nil_run]
    exact .nil σ
  | s :: rest =>
    rw [runStmts_cons_run]
    by_cases quit : σ.shell.quit = true
    · rw [if_pos quit]
      exact .quit quit
    · rw [if_neg quit]
      have going : σ.shell.quit = false := by simpa using quit
      have first := runStmt_runs s σ
      rcases h : (runStmt s).run σ with ⟨_ | ⟨⟩, σ₁⟩ <;> rw [h] at first
      · exact .error going first (runStmts_runs rest _)
      · exact .ok going first (runStmts_runs rest σ₁)
termination_by (sizeOf l, 0)

theorem runStmt_runs (s : Stmt) (σ : Session) :
    RunsStmt σ s ((runStmt s).run σ).1 ((runStmt s).run σ).2 := by
  rw [runStmt_run]
  have command := runCommand_runs s σ
  rcases h : (runCommand s).run σ with ⟨_ | ⟨⟩, σ₁⟩ <;> rw [h] at command <;>
    cases negated : s.negated
  · exact .plain negated command
  · exact .negated_error negated command
  · exact .plain negated command
  · exact .negated negated command
termination_by (sizeOf s, 2)

theorem runCommand_runs (s : Stmt) (σ : Session) :
    RunsCommand σ s ((runCommand s).run σ).1 ((runCommand s).run σ).2 := by
  -- the operands of a list and the bodies of an `if` or a block are what the recursion visits
  rcases s.shape with leaf | ⟨e, refused⟩ | ⟨op, x, y, pos, negated, redirs, list, rfl⟩ |
    ⟨clauses, pos, negated, rfl⟩ | ⟨body, pos, negated, rfl⟩
  · rw [runCommand_pipeline_run σ leaf]
    exact .pipeline leaf rfl
  · rw [runCommand_refused_run σ refused]
    exact .refused refused
  · rw [runCommand_list_run σ list]
    have left := runStmt_runs x σ
    rcases h : (runStmt x).run σ with ⟨_ | ⟨⟩, σ₁⟩ <;> rw [h] at left
    · exact .left_error list left
    · dsimp only
      by_cases quit : σ₁.shell.quit = true
      · rw [if_pos quit]
        exact .left_quits list left quit
      · have going : σ₁.shell.quit = false := by simpa using quit
        rw [if_neg quit]
        by_cases proceeds : op.Proceeds σ₁.shell.lastRet
        · rw [if_pos proceeds]
          exact .both left going proceeds (runStmt_runs y σ₁)
        · rw [if_neg proceeds]
          exact .left_only list left going proceeds
  · rw [runCommand_cond_run]
    exact .cond (runClauses_runs clauses σ)
  · rw [runCommand_block_run]
    exact .block (runStmts_runs body σ)
termination_by (sizeOf s, 1)

theorem runClauses_runs (clauses : List (List Stmt × List Stmt)) (σ : Session) :
    RunsClauses σ clauses ((runClauses clauses).run σ).2 := by
  match clauses with
  | [] =>
    rw [runClauses_nil_run]
    exact .none_taken σ
  | (cond, body) :: rest =>
    rw [runClauses_cons_run]
    by_cases unguarded : cond.isEmpty = true
    · rw [if_pos unguarded, List.isEmpty_iff.mp unguarded]
      exact .else_branch (runStmts_runs body σ)
    · rw [if_neg unguarded]
      have guarded : cond ≠ [] := by simpa using unguarded
      have test := runStmts_runs cond σ
      generalize ((runStmts cond).run σ).2 = σ₁ at test ⊢
      dsimp only
      by_cases quit : σ₁.shell.quit = true
      · rw [if_pos quit]
        exact .cond_quits guarded test quit
      · have going : σ₁.shell.quit = false := by simpa using quit
        rw [if_neg quit]
        by_cases success : σ₁.shell.lastRet = 0
        · rw [if_pos success]
          exact .taken guarded test going success (runStmts_runs body σ₁)
        · rw [if_neg success]
          exact .next guarded test going success (runClauses_runs rest σ₁)
termination_by (sizeOf clauses, 0)

end

/-! ## The rules determine the evaluator

Every outcome under the rules is what the evaluator does, by recursion on the derivation.
-/

mutual

theorem RunsStmts.run_eq {σ σ' : Session} {l : List Stmt} :
    RunsStmts σ l σ' → (runStmts l).run σ = ((), σ')
  | .nil _ => runStmts_nil_run _
  | .quit quit => by rw [runStmts_cons_run, if_pos quit]
  | .ok going first others => by
    rw [runStmts_cons_run, if_neg (by simp [going]), first.run_eq]
    exact others.run_eq
  | .error going first others => by
    rw [runStmts_cons_run, if_neg (by simp [going]), first.run_eq]
    exact others.run_eq

theorem RunsStmt.run_eq {σ σ' : Session} {s : Stmt} {r : Except String Unit} :
    RunsStmt σ s r σ' → (runStmt s).run σ = (r, σ')
  | .plain plain command => by
    rw [runStmt_run, command.run_eq]
    rcases r with _ | ⟨⟩ <;> simp [plain]
  | .negated negated command => by
    rw [runStmt_run, command.run_eq]
    simp [negated]
  | .negated_error _ command => by rw [runStmt_run, command.run_eq]

theorem RunsCommand.run_eq {σ σ' : Session} {s : Stmt} {r : Except String Unit} :
    RunsCommand σ s r σ' → (runCommand s).run σ = (r, σ')
  | .pipeline leaf run => by rw [runCommand_pipeline_run _ leaf, run]
  | .refused refused => runCommand_refused_run _ refused
  | .left_error list left => by rw [runCommand_list_run _ list, left.run_eq]
  | .left_quits list left quit => by
    rw [runCommand_list_run _ list, left.run_eq]
    simp [quit]
  | .left_only list left going stops => by
    rw [runCommand_list_run _ list, left.run_eq]
    simp [going, stops]
  | .both left going proceeds right => by
    have list : BinOp.IsList _ := proceeds.imp And.left And.left
    rw [runCommand_list_run _ list, left.run_eq]
    simp [going, proceeds, right.run_eq]
  | .cond run => by rw [runCommand_cond_run, run.run_eq]
  | .block run => by rw [runCommand_block_run, run.run_eq]

theorem RunsClauses.run_eq {σ σ' : Session} {clauses : List (List Stmt × List Stmt)} :
    RunsClauses σ clauses σ' → (runClauses clauses).run σ = ((), σ')
  | .none_taken _ => runClauses_nil_run _
  | .else_branch run => by rw [runClauses_cons_run, if_pos List.isEmpty_nil, run.run_eq]
  | .cond_quits guarded test quit => by
    rw [runClauses_cons_run, if_neg (by simpa using guarded), test.run_eq]
    simp [quit]
  | .taken guarded test going success run => by
    rw [runClauses_cons_run, if_neg (by simpa using guarded), test.run_eq]
    simp [going, success, run.run_eq]
  | .next guarded test going failure others => by
    rw [runClauses_cons_run, if_neg (by simpa using guarded), test.run_eq]
    simp [going, failure, others.run_eq]

end

/-- The evaluator runs a list of statements exactly as the rules say. -/
theorem runStmts_iff {σ σ' : Session} {l : List Stmt} :
    RunsStmts σ l σ' ↔ (runStmts l).run σ = ((), σ') := by
  constructor
  · exact RunsStmts.run_eq
  · intro ran
    have runs := runStmts_runs l σ
    rwa [ran] at runs

/-- The evaluator runs a statement exactly as the rules say. -/
theorem runStmt_iff {σ σ' : Session} {s : Stmt} {r : Except String Unit} :
    RunsStmt σ s r σ' ↔ (runStmt s).run σ = (r, σ') := by
  constructor
  · exact RunsStmt.run_eq
  · intro ran
    have runs := runStmt_runs s σ
    rwa [ran] at runs

/-- The rules give one outcome for each list and each session. -/
theorem RunsStmts.deterministic {σ σ₁ σ₂ : Session} {l : List Stmt}
    (first : RunsStmts σ l σ₁) (second : RunsStmts σ l σ₂) : σ₁ = σ₂ := by
  have same := first.run_eq.symm.trans second.run_eq
  exact congrArg Prod.snd same

/-- The outcome of a list under the rules is unique and is the one the evaluator reaches. -/
theorem runsStmts_iff_eq (σ σ' : Session) (l : List Stmt) :
    RunsStmts σ l σ' ↔ σ' = ((runStmts l).run σ).2 := by
  rw [runStmts_iff]
  constructor
  · intro ran
    rw [ran]
  · intro reached
    rw [reached]
    rfl

/-! ## Catching up with children after a line -/

/-- The status, the quit flag and the exit code of a session: what the control flow of a line
decides. -/
def Session.control (σ : Session) : Int × Bool × Int :=
  (σ.shell.lastRet, σ.shell.quit, σ.shell.exitCode)

/-! A part of the session that every step of a computation keeps is kept by the whole of it:
the frame facts below (`KeepsControl`, and the variables and job state later) are all this one
argument about binds and loops. -/

namespace ShellM

variable {δ : Type} (view : Session → δ)

/-- A bind keeps what both its parts keep. -/
theorem bind_keeps {α β : Type} {x : ShellM α} {f : α → ShellM β}
    (first : ∀ σ, view (x.run σ).2 = view σ) (next : ∀ a σ, view ((f a).run σ).2 = view σ)
    (σ : Session) : view ((x >>= f).run σ).2 = view σ :=
  (next _ _).trans (first σ)

/-- A loop keeps what each of its rounds keeps, whether the round goes on or stops. -/
theorem forIn_keeps {β γ : Type} (l : List β) (init : γ) {f : β → γ → ShellM (ForInStep γ)}
    (round : ∀ a c σ, view ((f a c).run σ).2 = view σ) (σ : Session) :
    view ((ForIn.forIn l init f).run σ).2 = view σ := by
  induction l generalizing init σ with
  | nil => rfl
  | cons a rest ih =>
    rw [List.forIn_cons]
    refine bind_keeps view (round a init) (fun step σ' => ?_) σ
    cases step with
    | done c => rfl
    | yield c => exact ih c σ'

theorem forM_keeps {β : Type} (l : List β) {f : β → ShellM PUnit}
    (round : ∀ a σ, view ((f a).run σ).2 = view σ) (σ : Session) :
    view ((l.forM f).run σ).2 = view σ := by
  induction l generalizing σ with
  | nil => rfl
  | cons a rest ih =>
    rw [List.forM_eq_forM, List.forM_cons]
    exact bind_keeps view (round a) (fun _ => ih) σ

end ShellM

/-- A computation that leaves the status, the quit flag and the exit code alone. -/
def KeepsControl {α : Type} (m : ShellM α) : Prop :=
  ∀ σ, ((m.run σ).2).control = σ.control

namespace KeepsControl

theorem bind {α β : Type} {x : ShellM α} {f : α → ShellM β} (first : KeepsControl x)
    (next : ∀ a, KeepsControl (f a)) : KeepsControl (x >>= f) :=
  bind_keeps Session.control first next

theorem pure {α : Type} (a : α) : KeepsControl (Pure.pure a : ShellM α) := fun _ => rfl

theorem forIn {β γ : Type} (l : List β) (init : γ) {f : β → γ → ShellM (ForInStep γ)}
    (body : ∀ a c, KeepsControl (f a c)) : KeepsControl (ForIn.forIn l init f) :=
  forIn_keeps Session.control l init body

end KeepsControl

theorem jobEvent_keepsControl (name : String) (id : Int) : KeepsControl (jobEvent name id) := by
  unfold jobEvent
  refine .bind (fun _ => rfl) fun w => ?_
  split
  · refine .bind (fun _ => rfl) fun j => ?_
    cases j with
    | some j => exact fun _ => rfl
    | none => exact .pure ()
  · exact .pure ()

theorem reconcile_keepsControl : KeepsControl reconcile := by
  unfold reconcile
  refine .bind (fun _ => rfl) fun s => ?_
  split
  · exact fun _ => rfl
  refine .bind (fun _ => rfl) fun _ => .bind (fun _ => rfl) fun _ => ?_
  refine .bind (.forIn _ _ fun id _ => ?_) fun _ => .pure ()
  refine .bind (fun _ => rfl) fun j => ?_
  split
  · split <;> exact .bind (jobEvent_keepsControl _ _) fun _ => .pure _
  · exact .pure _

/-- Catching up with the children after a line moves jobs and logs events, and leaves the
status, the quit flag and the exit code as the line left them. -/
theorem reapChildren_keepsControl : KeepsControl reapChildren := by
  unfold reapChildren
  refine .bind (fun _ => rfl) fun flag => ?_
  split
  · refine .bind reconcile_keepsControl fun _ => .bind (fun _ => rfl) fun table => ?_
    split
    exact fun _ => rfl
  · exact .pure ()

/-! ## Command lines -/

theorem runLine_run_ok {line : String} {stmts : List Stmt} (parsed : parse line = .ok stmts)
    (σ : Session) :
    (runLine line).run σ =
      ((reapChildren.run ((runStmts stmts).run σ).2).2.shell.lastRet,
        (reapChildren.run ((runStmts stmts).run σ).2).2) := by
  unfold runLine
  rw [parsed]
  rfl

theorem runLine_run_error {line : String} {e : ParseError} (parsed : parse line = .error e)
    (σ : Session) :
    (runLine line).run σ =
      (2, ({ σ with world := { σ.world with
              err := σ.world.err ++ ("ushell: syntax error: " ++ e.message ++ "\n") } } :
            Session).withStatus 2) := by
  unfold runLine
  rw [parsed]
  rfl

/-! ## `exit` -/

/-- The code `exit` leaves with: the low byte of its argument, 2 for an argument that is not
a number, and without an argument the low byte of the last status. -/
def exitCodeOf (last : Int) : List String → Int
  | [arg] => ((strictInt? arg).map (· % 256)).getD 2
  | _ => last % 256

/-- A lone foreground `exit` with no redirection and no assignment runs as the builtin. -/
theorem execute_lone_exit (rest : List String) :
    execute ⟨[{ args := "exit" :: rest }], false⟩ = exitBuiltin ("exit" :: rest) := by
  have builtin : isBuiltin "exit" = true := by decide
  simp [execute, Pipeline.validate, Pipeline.hasRedirect, Command.hasRedirect, Command.name,
    builtin, runBuiltin]

/-- Command lines follow the rules of control flow, and `exit` is what makes the shell quit.

A line that parses runs its statements by the rules: they give its statements exactly one
outcome, and the line returns that outcome's status and ends with its quit flag and exit
code. A line that does not parse is a syntax error with status 2, which neither quits nor
changes the exit code. `exit`, run in the shell as a lone foreground command, quits with
the code `exitCodeOf` gives as its status and exit code; with more than one argument it
refuses, with status 1. -/
theorem lines_follow_control_flow (σ : Session) :
    (∀ line, match parse line with
      | .ok stmts =>
        ∃ σ', (∀ σ'', RunsStmts σ stmts σ'' ↔ σ'' = σ') ∧
          ((runLine line).run σ).1 = σ'.shell.lastRet ∧
          ((runLine line).run σ).2.control = σ'.control
      | .error _ =>
        ((runLine line).run σ).1 = 2 ∧
          ((runLine line).run σ).2.control = (σ.withStatus 2).control) ∧
    ∀ rest, let run := (execute ⟨[{ args := "exit" :: rest }], false⟩).run σ
      if rest.length ≤ 1 then
        run.1 = exitCodeOf σ.shell.lastRet rest ∧ run.2.shell.quit = true ∧
          run.2.shell.exitCode = exitCodeOf σ.shell.lastRet rest
      else run.1 = 1 ∧ run.2.control = σ.control := by
  constructor
  · intro line
    split
    · next stmts parsed =>
      refine ⟨((runStmts stmts).run σ).2, fun σ'' => runsStmts_iff_eq σ σ'' stmts, ?_⟩
      have kept := reapChildren_keepsControl ((runStmts stmts).run σ).2
      rw [runLine_run_ok parsed]
      exact ⟨congrArg Prod.fst kept, kept⟩
    · next e parsed =>
      rw [runLine_run_error parsed]
      exact ⟨rfl, rfl⟩
  · intro rest
    rw [execute_lone_exit]
    rcases rest with _ | ⟨arg, _ | ⟨other, more⟩⟩
    · exact ⟨rfl, rfl, rfl⟩
    · cases number : strictInt? arg <;>
        simp only [exitBuiltin, exitCodeOf, number, Option.map_none, Option.map_some,
          Option.getD_none, Option.getD_some] <;>
        exact ⟨rfl, rfl, rfl⟩
    · exact ⟨rfl, rfl⟩

end JobShell

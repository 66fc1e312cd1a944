import JobShell.Proofs.Options.Lawful
import JobShell.Proofs.Shell.ForegroundBackground

/-!
# The job listing

`jobs` with any mix of `-l`, `-p`, `-r` and `-s` catches the table up with the system, drops
the jobs that are done and prints one line for every job its filters keep, in table order
(`jobs_lists_cleaned_table`). A line is the pid alone under `-p`, and otherwise the id, the
marker, the pid under `-l`, the status and the command (`JobsFlags.line`). The marker of a job
comes from its position in the whole cleaned table, not from its position among the lines
printed: the filters are applied after the positions are taken (`JobsFlags.listing`).

The argument has three parts:
* the flag words parse to the flags they name, with no help flag and no operand, through every
  option reader that follows the library's rules (`JobsFlags.parse_words`);
* catching up writes nothing to either stream (`catchUp_quiet`), and a table with a job in
  every slot keeps one through the catch-up and the clean-up, so that the table's marker of a
  position is the marker of that position among its jobs (`marker_eq_mark`);
* the loop over the table prints the texts of its rounds one after another
  (`forIn_prints`), and a round prints the job's line when the filters keep it and nothing
  otherwise (`JobsFlags.keeps_ite`).

Every table the shell builds has a job in every slot (`Table.WellFormed.filled`). Only a
snapshot restored with `null` among its jobs gives a table with an empty slot, and there the
catch-up faults on the nil job before anything is listed (`jobsBuiltin_faults`).
-/
namespace JobShell

open ShellM

/-- The flags of `jobs` that shape what it prints. -/
structure JobsFlags where
  long : Bool
  pidsOnly : Bool
  running : Bool
  stopped : Bool
  deriving DecidableEq, Repr

namespace JobsFlags

/-- The words that turn the flags on, one word per flag, in the order `-l -p -r -s`. -/
def words (f : JobsFlags) : List String :=
  (if f.long then ["-l"] else []) ++ (if f.pidsOnly then ["-p"] else []) ++
    (if f.running then ["-r"] else []) ++ (if f.stopped then ["-s"] else [])

/-- The flags that parsed options turn on. -/
def ofOptions (p : ParsedOptions) : JobsFlags :=
  ⟨p.flag "l", p.flag "p", p.flag "r", p.flag "s"⟩

/-- Whether the filters keep a job: `-r` keeps the running jobs and `-s` the stopped ones. -/
def keeps (f : JobsFlags) (j : Job) : Bool :=
  (!f.running || j.status == .running) && (!f.stopped || j.status == .stopped)

/-- The marker of position `i` in a table of `n` jobs: `+` for the last job and `-` for the
one before it. -/
def mark (n i : Nat) : Char :=
  if i + 1 = n then '+' else if i + 2 = n then '-' else ' '

/-- The line of the job `j` at position `i` in a table of `n` jobs. -/
def line (f : JobsFlags) (n : Nat) (j : Job) (i : Nat) : String :=
  if f.pidsOnly then toString j.pid ++ "\n"
  else "[" ++ toString j.id ++ "]" ++ (mark n i).toString ++ "  " ++
    (if f.long then Text.padRight 7 (toString j.pid) ++ " " else "") ++
    Text.padRight 20 j.status.name ++ " " ++ j.command ++ "\n"

/-- What `jobs` prints of a table's jobs: the lines of the jobs the filters keep, in table
order, each marked by its position among all the jobs. -/
def listing (f : JobsFlags) (js : List Job) : String :=
  String.join ((js.zipIdx.filter fun x => f.keeps x.1).map fun x => f.line js.length x.1 x.2)

@[simp] theorem listing_nil (f : JobsFlags) : f.listing [] = "" := rfl

/-- The option set of `jobs` called by that name. -/
def optionSet : OptionSet := { program := "jobs", params := "", specs := jobsSpecs }

/-- The letters of the flags, in the order `-l -p -r -s`. -/
def letters (f : JobsFlags) : List Char :=
  (if f.long then ['l'] else []) ++ (if f.pidsOnly then ['p'] else []) ++
    (if f.running then ['r'] else []) ++ (if f.stopped then ['s'] else [])

theorem words_eq (f : JobsFlags) : f.words = f.letters.map fun c => "-" ++ c.toString := by
  obtain ⟨l, p, r, s⟩ := f
  cases l <;> cases p <;> cases r <;> cases s <;> rfl

/-- Every letter is a flag of `jobs`, keyed by itself. -/
theorem letters_flags (f : JobsFlags) : ∀ c ∈ f.letters, c ≠ '-' ∧
    ∃ o, optionSet.specs.find? (·.short == some c) = some o ∧ o.isFlag = true ∧ o.key = c.toString := by
  intro c member
  have named : c = 'l' ∨ c = 'p' ∨ c = 'r' ∨ c = 's' := by
    simp only [letters, List.mem_append] at member
    split_ifs at member <;> simp at member <;> tauto
  rcases named with rfl | rfl | rfl | rfl <;> exact ⟨by decide, _, rfl, rfl, rfl⟩

/-- The options the flag letters give, read back, are the flags, with no help flag. -/
theorem ofOptions_letters (f : JobsFlags) :
    ofOptions { seen := f.letters.map fun c => (c.toString, "") } = f ∧
      ParsedOptions.flag { seen := f.letters.map fun c => (c.toString, "") } "h" = false := by
  obtain ⟨l, p, r, s⟩ := f
  cases l <;> cases p <;> cases r <;> cases s <;> decide +kernel

/-- The flag words parse, through every reader that follows the library's rules, to the flags
they name, with no help flag and no operand. -/
theorem parse_words [Getopt] (lawful : Getopt.Lawful) (f : JobsFlags) :
    ∃ p, Getopt.read optionSet f.words = .ok p ∧
      ofOptions p = f ∧ p.flag "h" = false ∧ p.operands = [] := by
  have read := lawful.read_flags f.letters (letters_flags f) []
  rw [List.append_nil, ← words_eq, lawful.nil] at read
  simp only [Except.map, List.append_nil] at read
  exact ⟨_, read, ofOptions_letters f |>.1, ofOptions_letters f |>.2, rfl⟩

/-- The filters in the order `jobs` tests them: a job that `-r` drops prints nothing, and
neither does one that `-s` drops. -/
theorem keeps_ite (f : JobsFlags) (j : Job) (text : String) :
    (if f.keeps j then text else "") =
      if (f.running && j.status != .running) then ""
      else if (f.stopped && j.status != .stopped) then "" else text := by
  unfold keeps
  cases f.running <;> cases f.stopped <;> cases j.status <;> rfl

end JobsFlags

/-- Printing nothing for the elements a test drops prints the texts of those it keeps. -/
theorem join_map_ite {β : Type} (keep : β → Bool) (text : β → String) (l : List β) :
    String.join (l.map fun x => if keep x then text x else "") =
      String.join ((l.filter keep).map text) := by
  induction l with
  | nil => rfl
  | cons a rest ih => cases kept : keep a <;> simp [kept, ih]

/-- The listing, one text per job: the job's line when the filters keep it, else nothing. -/
theorem JobsFlags.listing_eq_join (f : JobsFlags) (js : List Job) :
    f.listing js =
      String.join (js.zipIdx.map fun x => if f.keeps x.1 then f.line js.length x.1 x.2 else "") :=
  (join_map_ite (fun x : Job × Nat => f.keeps x.1) (fun x => f.line js.length x.1 x.2) _).symm

/-! ## Printing -/

/-- `σ` with `text` written to standard output. -/
def Session.printed (σ : Session) (text : String) : Session :=
  { σ with world := { σ.world with out := σ.world.out ++ text } }

@[simp] theorem Session.printed_empty (σ : Session) : σ.printed "" = σ := by
  simp only [Session.printed, String.append_empty]

theorem jobs_run (σ : Session) : jobs.run σ = (σ.shell.jobs, σ) := rfl

theorem setJobs_run (t : Table) (σ : Session) :
    (setJobs t).run σ = ((), { σ with shell := { σ.shell with jobs := t } }) := rfl

/-- A loop whose every round prints a text and goes on prints the texts one after another. -/
theorem forIn_prints {β : Type} {f : β → PUnit → ShellM (ForInStep PUnit)} (text : β → String)
    (round : ∀ a σ, (f a ⟨⟩).run σ = (.yield ⟨⟩, σ.printed (text a))) (l : List β)
    (σ : Session) : (forIn l ⟨⟩ f).run σ = (⟨⟩, σ.printed (String.join (l.map text))) := by
  induction l generalizing σ with
  | nil =>
    simp only [List.map_nil, String.join_nil, Session.printed_empty]
    rfl
  | cons a rest ih =>
    rw [List.forIn_cons, run_bind, round]
    show (forIn rest ⟨⟩ f).run _ = _
    rw [ih]
    simp only [Session.printed, List.map_cons, String.join_cons, String.append_assoc]

/-! ## Catching up -/

/-- A job event writes to neither stream. -/
theorem jobEvent_quiet {o e : String} (name : String) (id : Int) :
    Triple (fun σ => σ.world.out = o ∧ σ.world.err = e) (jobEvent name id)
      fun _ σ => σ.world.out = o ∧ σ.world.err = e := by
  unfold jobEvent
  refine .bind world_spec fun w => ?_
  split
  · refine .bind (job?_spec id) fun found => ?_
    cases found with
    | some j => exact fun _ ⟨⟨same, _⟩, _⟩ => same
    | none => exact .pure fun _ ⟨⟨same, _⟩, _⟩ => same
  · exact .pure fun _ ⟨same, _⟩ => same

/-- Catching up writes to neither stream: what it reports goes to the event log. -/
theorem catchUp_quiet (σ : Session) :
    (catchUp.run σ).2.world.out = σ.world.out ∧ (catchUp.run σ).2.world.err = σ.world.err := by
  let Quiet (σ' : Session) : Prop := σ'.world.out = σ.world.out ∧ σ'.world.err = σ.world.err
  have quiet : Triple Quiet catchUp fun _ => Quiet := by
    unfold catchUp takeChildExited reconcile
    refine .bind (Q := fun _ => Quiet) (fun _ same => same) fun _ => ?_
    refine .bind get_spec fun s => ?_
    split
    · -- a fault ends the process and writes nothing
      exact fun _ pre => pre.1
    refine .bind (setJobs_spec (Q := Quiet) fun _ ⟨same, _⟩ => same) fun _ => ?_
    refine .bind (Q := fun _ => Quiet) (fun _ same => same) fun _ => ?_
    -- the reports of the changed jobs are events only
    refine .bind (Triple.forIn (fun _ _ => Quiet) fun id rest _ => ?_)
      fun _ => .pure fun _ ⟨_, same⟩ => same
    refine .bind (job?_spec id) fun found => ?_
    cases found with
    | none => exact .pure fun _ ⟨same, _⟩ => same
    | some j =>
      dsimp only
      split <;> exact .bind ((jobEvent_quiet _ _).weaken fun _ ⟨same, _⟩ => same)
        fun _ => .pure fun _ same => same
  exact quiet σ ⟨rfl, rfl⟩

/-- In a table with a job in every slot, positions in the table are positions among its
jobs. -/
theorem marker_eq_mark {t : Table} (filled : ∀ s ∈ t.slots, s.isSome) (i : Nat) :
    t.marker i = JobsFlags.mark t.jobs.length i := by
  have size : t.size = t.jobs.length := by
    rw [Table.size, Table.slots_eq_of_filled filled, List.length_map]
    rfl
  have last : (i : Int) = t.size - 1 ↔ i + 1 = t.jobs.length := by omega
  have before : (i : Int) = t.size - 2 ↔ i + 2 = t.jobs.length := by omega
  simp only [Table.marker, JobsFlags.mark, last, before]

/-! ## The builtin -/

/-- `jobs` with options that parse with no help flag and no operand: it catches up, cleans
the table and prints the listing of the clean table under the flags the options set. -/
theorem jobsBuiltin_run_of_parse [Getopt] {args : List String} {p : ParsedOptions} (σ : Session)
    (parsed : Getopt.read JobsFlags.optionSet args = .ok p) (help : p.flag "h" = false)
    (operands : p.operands = [])
    (filled : ∀ s ∈ (catchUp.run σ).2.shell.jobs.cleanup.2.slots, s.isSome) :
    (jobsBuiltin ("jobs" :: args)).run σ =
      let σ₁ := (catchUp.run σ).2
      let t := σ₁.shell.jobs.cleanup.2
      (0, { σ₁ with shell := { σ₁.shell with jobs := t } }.printed
        ((JobsFlags.ofOptions p).listing t.jobs)) := by
  unfold jobsBuiltin
  simp only [List.headD_cons, List.tail_cons]
  rw [show ({ program := "jobs", params := "", specs := jobsSpecs } : OptionSet) =
    JobsFlags.optionSet from rfl, parsed]
  simp only [help, operands, Bool.false_eq_true, ite_false, List.head?_nil, run_bind, jobs_run,
    setJobs_run]
  set σ₁ := (catchUp.run σ).2
  set t := σ₁.shell.jobs.cleanup.2
  generalize flags : JobsFlags.ofOptions p = f
  -- the loop reads the options; the listing reads the flags they set
  obtain ⟨long, pids, running, stopped⟩ : p.flag "l" = f.long ∧ p.flag "p" = f.pidsOnly ∧
      p.flag "r" = f.running ∧ p.flag "s" = f.stopped := by
    subst flags
    exact ⟨rfl, rfl, rfl, rfl⟩
  simp only [long, pids, running, stopped]
  rw [forIn_prints (fun x => if f.keeps x.1 then f.line t.jobs.length x.1 x.2 else "")
    fun x σ' => ?round]
  case round =>
    obtain ⟨j, i⟩ := x
    rw [JobsFlags.keeps_ite, marker_eq_mark filled]
    unfold JobsFlags.line jobsLine
    split_ifs <;> simp only [Session.printed_empty] <;> rfl
  rw [JobsFlags.listing_eq_join]
  rfl

/-- What `jobs` with the flags `f`, run from `σ`, ends in: status 0; the table caught up with
the system and cleaned of its done jobs; on standard output the listing of that table under
`f` and nothing else, and nothing on standard error. -/
structure ListsJobs (σ : Session) (f : JobsFlags) (r : Int × Session) : Prop where
  status : r.1 = 0
  cleaned : ∃ caught : List Int × Table × System,
    σ.shell.jobs.reconcile σ.world.system = .ok caught ∧ r.2.shell.jobs = caught.2.1.cleanup.2
  out : r.2.world.out = σ.world.out ++ f.listing r.2.shell.jobs.jobs
  err : r.2.world.err = σ.world.err
  no_done : ∀ j ∈ r.2.shell.jobs.jobs, j.status ≠ .done
  empty : σ.shell.jobs.jobs = [] → r.2.world.out = σ.world.out

/-- Reconciling and cleaning an empty table leaves no job. -/
theorem cleanup_reconcile_empty {W : Type} [Waiter W] {t : Table}
    (filled : ∀ s ∈ t.slots, s.isSome) (empty : t.jobs = []) (w : W) :
    (t.reconcileFilled w).2.1.cleanup.2.jobs = [] := by
  have slots : t.slots = [] := by
    rw [Table.slots_eq_of_filled filled]
    exact List.map_eq_nil_iff.mpr empty
  rw [Table.cleanup_jobs, Table.reconcileFilled_table, slots]
  rfl

section Reader

variable [Getopt]

theorem jobs_lists_cleaned_table (lawful : Getopt.Lawful) (σ : Session) (f : JobsFlags)
    (filled : ∀ s ∈ σ.shell.jobs.slots, s.isSome) :
    ListsJobs σ f ((jobsBuiltin ("jobs" :: f.words)).run σ) := by
  obtain ⟨p, parsed, flags, help, operands⟩ := JobsFlags.parse_words lawful f
  obtain ⟨out, err⟩ := catchUp_quiet σ
  have caught : (catchUp.run σ).2.shell.jobs =
      (σ.shell.jobs.reconcileFilled σ.world.system).2.1 := by
    rw [catchUp_shell σ filled]
  have cleaned_filled : ∀ s ∈ (catchUp.run σ).2.shell.jobs.cleanup.2.slots, s.isSome := by
    rw [caught]
    exact Table.filled_cleanup (Table.filled_reconcile filled _)
  have no_done : ∀ j ∈ (σ.shell.jobs.reconcileFilled σ.world.system).2.1.cleanup.2.jobs,
      j.status ≠ .done := by
    intro j member
    rw [Table.cleanup_jobs, List.mem_filter] at member
    simpa using member.2
  rw [jobsBuiltin_run_of_parse σ parsed help operands cleaned_filled, flags]
  dsimp only
  rw [caught]
  refine ⟨rfl, ⟨_, Table.reconcile_eq_ok filled _, rfl⟩, ?_, err, no_done, fun empty => ?_⟩
  · show (catchUp.run σ).2.world.out ++ _ = _
    rw [out]
    rfl
  · show (catchUp.run σ).2.world.out ++ _ = _
    rw [cleanup_reconcile_empty filled empty, out, JobsFlags.listing_nil, String.append_empty]

end Reader

/-- A running job and a stopped one, listed with `-l -r` by the shell's own reader. -/
theorem jobs_lists_running_of_two :
    let running : Job :=
      { id := 1, pid := 7, pgid := 7, pids := [7], command := "sleep 9", status := .running
        background := true, exitStatus := 0 }
    let stopped : Job := { running with id := 2, pid := 8, pgid := 8, pids := [8], status := .stopped }
    let σ₀ := Session.start Settings.builtin [] { nodes := [([], .dir)] } [] "" (.scripted {}) []
    let σ : Session := { σ₀ with shell := { σ₀.shell with
      jobs := { slots := [some running, some stopped], listed := true, lastId := 2 } } }
    let f : JobsFlags := ⟨true, false, true, false⟩
    (Getopt.Lawful ∧ ∀ s ∈ σ.shell.jobs.slots, s.isSome) ∧
      ListsJobs σ f ((jobsBuiltin ("jobs" :: f.words)).run σ) := by
  intro running stopped σ₀ σ f
  exact ⟨⟨Getopt.builtin_lawful, by decide⟩,
    jobs_lists_cleaned_table Getopt.builtin_lawful σ f (by decide)⟩

/-! ## A table with an empty slot -/

/-- Catching up with an empty slot in the table faults, and the crash keeps what had been
written before it. -/
theorem catchUp_faults (σ : Session) (empty : none ∈ σ.shell.jobs.slots) :
    (catchUp.run σ).2.world.crashed =
      (σ.world.crashed <|> some ⟨.nilJob, σ.world.out, σ.world.err⟩) := by
  have faulted : σ.shell.jobs.reconcile σ.world.system = .error .nilJob :=
    Table.reconcile_eq_error empty _
  unfold catchUp takeChildExited reconcile
  simp only [run_bind]
  split
  · next fault reconciled =>
    -- the catch-up only clears the child-exited flag before it reconciles
    change σ.shell.jobs.reconcile σ.world.system = .error fault at reconciled
    rw [faulted, Except.error.injEq] at reconciled
    rw [← reconciled]
    rfl
  · next reconciled =>
    change σ.shell.jobs.reconcile σ.world.system = _ at reconciled
    rw [faulted] at reconciled
    cases reconciled

/-- `jobs` on a table with an empty slot faults in its catch-up; nothing after it clears the
crash. -/
theorem jobsBuiltin_faults [Getopt] (lawful : Getopt.Lawful) (σ : Session) (f : JobsFlags)
    (empty : none ∈ σ.shell.jobs.slots) :
    ((jobsBuiltin ("jobs" :: f.words)).run σ).2.world.crashed =
      (σ.world.crashed <|> some ⟨.nilJob, σ.world.out, σ.world.err⟩) := by
  obtain ⟨p, parsed, -, help, operands⟩ := JobsFlags.parse_words lawful f
  unfold jobsBuiltin
  simp only [List.headD_cons, List.tail_cons]
  rw [show ({ program := "jobs", params := "", specs := jobsSpecs } : OptionSet) =
    JobsFlags.optionSet from rfl, parsed]
  simp only [help, operands, Bool.false_eq_true, ite_false, List.head?_nil, run_bind, jobs_run,
    setJobs_run]
  -- the listing loop only prints
  refine (forIn_keeps (fun σ' : Session => σ'.world.crashed) _ _ (fun _ _ _ => ?round) _).trans ?_
  case round =>
    split
    · rfl
    split
    · rfl
    split <;> rfl
  exact catchUp_faults σ empty

/-- A table restored from `{"last_id":1,"jobs":[null]}`: `jobs` faults instead of listing an
empty table. -/
theorem jobs_faults_on_restored_null :
    let σ₀ := Session.start Settings.builtin [] { nodes := [([], .dir)] } [] "" (.scripted {}) []
    let σ : Session := { σ₀ with shell := { σ₀.shell with
      jobs := { slots := [none], listed := true, lastId := 1 } } }
    ((jobsBuiltin ["jobs"]).run σ).2.world.crashed = some ⟨.nilJob, "", ""⟩ := by
  intro σ₀ σ
  exact jobsBuiltin_faults Getopt.builtin_lawful σ ⟨false, false, false, false⟩
    (List.mem_singleton_self _)

end JobShell

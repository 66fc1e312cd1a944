import JobShell.Proofs.Options.Lawful
import JobShell.Shell.Stage

/-!
# A stage's command line reads back

A pipeline stage is started as `__stage [--in=FILE] [--out=FILE [--append]] -- ARGV...`
(`stageArgs`), and the stage reads that line back with its own option set (`runStage`). The
two sides are written apart; this module shows that they agree on every command, whatever its
file names and arguments hold. A long option word is cut at its first `=`, so
a file name may hold `=` or start with `-`; and the `--` ends the options, so the arguments are
operands even when they look like options.

The stage reads its words through a `Getopt`, and what it needs of the reader is the library's
rules (`Getopt.Lawful`): the first `=` of a long option word cuts it, and `--` ends the options.
The main statement is `stage_command_line_reads_back`: for every reader that follows them, the
parse gives back the input and output files, the append flag exactly when there is an output
file to append to, and the argument vector, so the stage opens its redirections and runs its
program as the command says.
-/
namespace JobShell

/-- The options `specs` read the word `longWord name value` as the option `name`: the name is
a long option of theirs, keyed by itself, that takes a value exactly when the word gives one. -/
structure ReadsLong (specs : List OptionSpec) (name : String) (value : Option String) : Prop where
  plain : '=' ∉ name.toList
  named : name ≠ ""
  known : ∃ o, specs.find? (·.long == some name) = some o ∧ o.key = name ∧
    o.isFlag = value.isNone

/-! ## The stage's options -/

/-- The options a stage's command line gives, in order. -/
def stageItems (c : Command) : List (String × Option String) :=
  (if c.input.isEmpty then [] else [("in", some c.input)]) ++
  (if c.output.isEmpty then []
   else [("out", some c.output)] ++ (if c.append then [("append", none)] else []))

theorem stageArgs_eq_items (c : Command) :
    stageArgs c = (stageItems c).map (fun i => longWord i.1 i.2) ++ "--" :: c.args := by
  unfold stageArgs stageItems
  split_ifs <;> simp [longWord]

theorem stageOptions_read (c : Command) :
    ∀ i ∈ stageItems c, ReadsLong stageOptions.specs i.1 i.2 := by
  have input : ReadsLong stageOptions.specs "in" (some c.input) :=
    ⟨by decide, by decide, _, rfl, rfl, rfl⟩
  have output : ReadsLong stageOptions.specs "out" (some c.output) :=
    ⟨by decide, by decide, _, rfl, rfl, rfl⟩
  have append : ReadsLong stageOptions.specs "append" none :=
    ⟨by decide, by decide, _, rfl, rfl, rfl⟩
  unfold stageItems
  split_ifs <;> simp [input, output, append]

/-- The options of a stage's command line give back the command's files, and its append flag
when it has an output file. -/
theorem stageItems_read_back (c : Command) :
    let p : ParsedOptions :=
      { seen := (stageItems c).map fun i => (i.1, i.2.getD ""), operands := c.args }
    p.value "in" = c.input ∧ p.value "out" = c.output ∧
      p.flag "append" = (c.append && !c.output.isEmpty) := by
  -- `--append` is given no value, and an empty value turns a flag on
  have emptyOn : (!(["0", "false", "f", "off", "no", "n"].contains ("".map Char.toLower))) = true := by
    rw [show "".map Char.toLower = "" by simp]
    decide
  simp only [ParsedOptions.value, ParsedOptions.value?, ParsedOptions.flag, stageItems]
  split_ifs <;> simp_all [String.isEmpty_iff]

section Reader

variable [Getopt]

/-- Long option words, then `--`: every option is recorded in order, and every word after the
`--` is an operand. -/
theorem Getopt.Lawful.read_longWords (lawful : Getopt.Lawful) {s : OptionSet}
    (items : List (String × Option String)) (reads : ∀ i ∈ items, ReadsLong s.specs i.1 i.2)
    (rest : List String) :
    Getopt.read s (items.map (fun i => longWord i.1 i.2) ++ "--" :: rest) =
      .ok { seen := items.map fun i => (i.1, i.2.getD ""), operands := rest } := by
  induction items with
  | nil => exact lawful.dashes s rest
  | cons item items ih =>
    obtain ⟨plain, named, o, found, key, kind⟩ := reads item List.mem_cons_self
    rw [List.map_cons, List.cons_append, lawful.long s _ _ o _ plain named found kind,
      ih fun i member => reads i (List.mem_cons_of_mem item member), key]
    rfl

theorem stageArgs_read (lawful : Getopt.Lawful) (c : Command) :
    Getopt.read stageOptions (stageArgs c) =
      .ok { seen := (stageItems c).map fun i => (i.1, i.2.getD ""), operands := c.args } := by
  rw [stageArgs_eq_items]
  exact lawful.read_longWords (stageItems c) (stageOptions_read c) c.args

open Host in
/-- A stage's command line reads back, through every option reader that follows the library's
rules: the stage's parse gives the command's input and output files, appends exactly when the
command appends to an output file, and takes the command's arguments as its operands, whatever
they look like; so the stage opens its redirections and runs its program as the command says. -/
theorem stage_command_line_reads_back (lawful : Getopt.Lawful) (c : Command) (named : c.args ≠ [])
    (h : Host) (environ cwd : List String) (pid : Nat) (stdin : Source) (stdout : Sink) :
    (∃ p, Getopt.read stageOptions (stageArgs c) = .ok p ∧ p.value "in" = c.input ∧
      p.value "out" = c.output ∧ p.flag "append" = (c.append && !c.output.isEmpty) ∧
      p.operands = c.args) ∧
    runStage h (stageArgs c) environ cwd pid stdin stdout =
      runRedirected h c.input c.output (c.append && !c.output.isEmpty) c.args environ cwd pid
        stdin stdout := by
  obtain ⟨input, output, append⟩ := stageItems_read_back c
  refine ⟨⟨_, stageArgs_read lawful c, input, output, append, rfl⟩, ?_⟩
  have operands : c.args.isEmpty = false := List.isEmpty_eq_false_iff.mpr named
  unfold runStage
  rw [stageArgs_read lawful c]
  simp only [operands, input, output, append, Bool.false_eq_true, if_false]

end Reader

/-- With the shell's own reader, arguments that look like options, and files named with `=` and
`-`, read back as they are. -/
theorem dashed_stage_reads_back :
    (Getopt.Lawful ∧ (["--", "-x"] : List String) ≠ []) ∧
    ((∃ p, Getopt.read stageOptions (stageArgs
        { args := ["--", "-x"], input := "a=b", output := "-o", append := true }) = .ok p ∧
      p.value "in" = "a=b" ∧ p.value "out" = "-o" ∧ p.flag "append" = (true && !"-o".isEmpty) ∧
      p.operands = ["--", "-x"]) ∧
    runStage default (stageArgs
        { args := ["--", "-x"], input := "a=b", output := "-o", append := true })
        [] [] 1 .terminal .terminal =
      runRedirected default "a=b" "-o" (true && !"-o".isEmpty) ["--", "-x"] [] [] 1
        .terminal .terminal) :=
  ⟨⟨Getopt.builtin_lawful, by simp⟩, stage_command_line_reads_back Getopt.builtin_lawful
    { args := ["--", "-x"], input := "a=b", output := "-o", append := true } (by simp)
    default [] [] 1 .terminal .terminal⟩

end JobShell

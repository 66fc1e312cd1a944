import Mathlib.Data.List.TakeDrop
import JobShell.Options

/-!
# Option readers that follow the library's rules

The shell's programs read their words through a `Getopt`. What they rely on of it is what the
option library documents, for the words the programs write themselves or are given
(`Getopt.Lawful`): no words give nothing; `--` ends the options and is dropped, every word after
it being an operand; a long option word `--name=value` is cut at its first `=`, so the value may
hold `=`, and `--name` alone sets a flag; a word `-c` sets the flag `c`. After an option word,
reading goes on with the next word as if from the start.

`Getopt.builtin_lawful` shows that the reader the shell runs with follows these rules. One
option word is one round of `parseOptions`, and a round does not look at the options recorded
before it (`parseOptions_seen`).
-/
namespace JobShell

/-- The options read, with one more given before them. -/
def ParsedOptions.record (p : ParsedOptions) (key value : String) : ParsedOptions :=
  { p with seen := (key, value) :: p.seen }

/-- A long option as a command line writes it: `--name=value`, or `--name` alone. -/
def longWord (name : String) : Option String → String
  | some v => "--" ++ name ++ "=" ++ v
  | none => "--" ++ name

/-- What the shell's programs rely on of an option reader: the rules the option library
documents, for the words the programs write or are given. -/
structure Getopt.Lawful [Getopt] : Prop where
  /-- No words: no option and no operand. -/
  nil : ∀ s : OptionSet, Getopt.read s [] = .ok {}
  /-- `--` ends the options and is dropped: every word after it is an operand, whatever it
  looks like. -/
  dashes : ∀ (s : OptionSet) (rest : List String), Getopt.read s ("--" :: rest) = .ok { operands := rest }
  /-- A long option word is cut at its first `=`: `--name=value` gives the option called `name`
  what follows that `=`, which may hold `=` itself; `--name` alone sets the flag `name`. -/
  long : ∀ (s : OptionSet) (name : String) (value : Option String) (o : OptionSpec)
    (rest : List String), '=' ∉ name.toList → name ≠ "" → s.specs.find? (·.long == some name) = some o →
    o.isFlag = value.isNone →
    Getopt.read s (longWord name value :: rest) =
      (Getopt.read s rest).map (·.record o.key (value.getD ""))
  /-- A word `-c` sets the flag whose letter is `c`. -/
  flag : ∀ (s : OptionSet) (c : Char) (o : OptionSpec) (rest : List String), c ≠ '-' →
    s.specs.find? (·.short == some c) = some o → o.isFlag = true →
    Getopt.read s (("-" ++ c.toString) :: rest) = (Getopt.read s rest).map (·.record o.key "")

/-! ## Cutting a long option at its first `=` -/

theorem span_append_of_no_equals {l r : List Char} (plain : '=' ∉ l) :
    (l ++ r).span (· != '=') = (l ++ r.takeWhile (· != '='), r.dropWhile (· != '=')) := by
  have kept : ∀ x ∈ l, (x != '=') = true := fun x member => by
    simp only [bne_iff_ne, ne_eq]
    rintro rfl
    exact plain member
  rw [List.span_eq_takeWhile_dropWhile, List.takeWhile_append_of_pos kept,
    List.dropWhile_append_of_pos kept]

theorem splitAtEquals_plain {name : String} (plain : '=' ∉ name.toList) :
    splitAtEquals name = (name, none) := by
  unfold splitAtEquals
  have spans := span_append_of_no_equals (r := []) plain
  rw [List.append_nil] at spans
  rw [spans]
  simp

/-- Only the first `=` cuts: the value keeps any `=` after it. -/
theorem splitAtEquals_append {name : String} (value : String) (plain : '=' ∉ name.toList) :
    splitAtEquals (name ++ "=" ++ value) = (name, some value) := by
  unfold splitAtEquals
  have spans := span_append_of_no_equals (r := '=' :: value.toList) plain
  simp only [String.toList_append]
  rw [show ("=" : String).toList = ['='] from rfl, List.append_assoc, List.singleton_append,
    spans]
  simp

/-! ## One option word is one round -/

/-- The text of a long option word after its dashes. -/
def longBody (name : String) : Option String → String
  | some v => name ++ "=" ++ v
  | none => name

theorem longWord_eq (name : String) (value : Option String) :
    longWord name value = "--" ++ longBody name value := by
  cases value <;> simp [longWord, longBody, String.append_assoc]

theorem dashes_ne_dash (body : String) : "--" ++ body ≠ "-" := by
  intro same
  have chars := congrArg String.toList same
  rw [String.toList_append, show ("--" : String).toList = ['-', '-'] from rfl,
    show ("-" : String).toList = ['-'] from rfl] at chars
  simp at chars

theorem drop_dashes (body : String) : (("--" ++ body).drop 2).copy = body := by
  apply String.toList_injective
  simp [String.toList_append]

theorem longOption_found {specs : List OptionSpec} {name : String} {value : Option String}
    {o : OptionSpec} (plain : '=' ∉ name.toList) (found : specs.find? (·.long == some name) = some o)
    (kind : o.isFlag = value.isNone) (ws : List String) (seen : List (String × String)) :
    longOption specs (longBody name value) ws seen = .ok (ws, (o.key, value.getD "") :: seen) := by
  cases value with
  | none =>
    simp [longOption, longBody, splitAtEquals_plain plain, found, kind, flagWords]
  | some v =>
    simp only [Option.isNone_some] at kind
    simp [longOption, longBody, splitAtEquals_append v plain, found, kind]

theorem parseOptions_longWord {specs : List OptionSpec} {name : String} {value : Option String}
    {o : OptionSpec} (plain : '=' ∉ name.toList) (named : name ≠ "")
    (found : specs.find? (·.long == some name) = some o) (kind : o.isFlag = value.isNone)
    (fuel : Nat) (ws : List String) (seen : List (String × String)) :
    parseOptions specs (fuel + 1) (longWord name value :: ws) seen =
      parseOptions specs fuel ws ((o.key, value.getD "") :: seen) := by
  have body : longBody name value ≠ "" := by
    cases value <;> simp [longBody, named]
  rw [parseOptions, longWord_eq]
  simp [String.toList_append, body, dashes_ne_dash, drop_dashes,
    longOption_found plain found kind]

/-! ## A round does not look at what was read before it -/

theorem shortOptions_seen (specs : List OptionSpec) (cs : List Char) (ws : List String)
    (seen extra : List (String × String)) :
    shortOptions specs cs ws (seen ++ extra) =
      (shortOptions specs cs ws seen).map fun r => (r.1, r.2 ++ extra) := by
  induction cs generalizing ws seen with
  | nil => rfl
  | cons c cs ih =>
    unfold shortOptions
    split
    · rfl
    · rename_i o _
      by_cases flag : o.isFlag = true
      · simp only [flag, if_true]
        exact ih ws ((o.key, "") :: seen)
      · simp only [flag, Bool.false_eq_true, if_false]
        split
        · rfl
        · split <;> rfl

theorem longOption_seen (specs : List OptionSpec) (body : String) (ws : List String)
    (seen extra : List (String × String)) :
    longOption specs body ws (seen ++ extra) =
      (longOption specs body ws seen).map fun r => (r.1, r.2 ++ extra) := by
  unfold longOption
  dsimp only
  split
  · rfl
  · split
    · split <;> rfl
    · split
      · rfl
      · split <;> rfl

/-- Reading goes on the same whatever was read before: what a run records comes before the
options already recorded. -/
theorem parseOptions_seen (specs : List OptionSpec) (fuel : Nat) (ws : List String)
    (seen extra : List (String × String)) :
    parseOptions specs fuel ws (seen ++ extra) =
      (parseOptions specs fuel ws seen).map fun p => { p with seen := p.seen ++ extra } := by
  induction fuel generalizing ws seen with
  | zero => rfl
  | succ fuel ih =>
    cases ws with
    | nil => rfl
    | cons w ws =>
      unfold parseOptions
      split
      · rfl
      split
      · rfl
      -- one word is one round, and the round keeps the options before it behind its own
      have step : (if w.startsWith "--" then longOption specs (w.drop 2).toString ws (seen ++ extra)
          else shortOptions specs (w.drop 1).toString.toList ws (seen ++ extra)) =
          (if w.startsWith "--" then longOption specs (w.drop 2).toString ws seen
          else shortOptions specs (w.drop 1).toString.toList ws seen).map
            fun r => (r.1, r.2 ++ extra) := by
        split
        · exact longOption_seen specs _ ws seen extra
        · exact shortOptions_seen specs _ ws seen extra
      rw [step]
      cases (if w.startsWith "--" then longOption specs (w.drop 2).toString ws seen
          else shortOptions specs (w.drop 1).toString.toList ws seen) with
      | error e => rfl
      | ok r => exact ih r.1 r.2

theorem parseOptions_flagWord {specs : List OptionSpec} {c : Char} {o : OptionSpec}
    (letter : c ≠ '-') (found : specs.find? (·.short == some c) = some o) (flag : o.isFlag = true)
    (fuel : Nat) (ws : List String) (seen : List (String × String)) :
    parseOptions specs (fuel + 1) (("-" ++ c.toString) :: ws) seen =
      parseOptions specs fuel ws ((o.key, "") :: seen) := by
  -- the word is neither a lone dash nor `--`, nor a long option word
  have single : "-".push c ≠ "-" := fun same => by
    have chars := congrArg String.toList same
    simp at chars
  have short : "-".push c ≠ "--" := fun same => by
    have chars := congrArg String.toList same
    simp [show ("--" : String).toList = ['-', '-'] from rfl, letter] at chars
  rw [parseOptions]
  simp [found, flag, shortOptions, single, short, Ne.symm letter]

/-! ## Words the programs are given -/

section Reader

variable [Getopt]

/-- Flag words `-c` of one letter each, then other words: the flags are recorded in order, ahead
of what the other words give. -/
theorem Getopt.Lawful.read_flags (lawful : Getopt.Lawful) {s : OptionSet} (cs : List Char)
    (flags : ∀ c ∈ cs, c ≠ '-' ∧ ∃ o, s.specs.find? (·.short == some c) = some o ∧
      o.isFlag = true ∧ o.key = c.toString)
    (rest : List String) :
    Getopt.read s (cs.map (fun c => "-" ++ c.toString) ++ rest) =
      (Getopt.read s rest).map fun p => { p with seen := cs.map (fun c => (c.toString, "")) ++ p.seen } := by
  induction cs with
  | nil =>
    rw [List.map_nil, List.nil_append]
    cases Getopt.read s rest <;> rfl
  | cons c cs ih =>
    obtain ⟨letter, o, found, flag, key⟩ := flags c List.mem_cons_self
    rw [List.map_cons, List.cons_append, lawful.flag s c o _ letter found flag,
      ih fun c' member => flags c' (List.mem_cons_of_mem c member), key]
    cases Getopt.read s rest <;> rfl

end Reader

/-! ## The shell's reader -/

/-- Reading `word` and then `rest` from scratch is reading `rest` with what `word` gives recorded
first. -/
theorem parse_cons {s : OptionSet} {word : String} {rest : List String} {key value : String}
    (round : ∀ fuel, parseOptions s.specs (fuel + 1) (word :: rest) [] =
      parseOptions s.specs fuel rest [(key, value)]) :
    s.parse (word :: rest) = (s.parse rest).map (·.record key value) := by
  unfold OptionSet.parse
  rw [List.length_cons, round, ← List.nil_append [(key, value)], parseOptions_seen]
  cases parseOptions s.specs (rest.length + 1) rest [] <;> simp [Except.map, ParsedOptions.record]

/-- The reader the shell runs with follows the library's rules. -/
theorem Getopt.builtin_lawful : Getopt.Lawful where
  nil _ := rfl
  dashes s rest := by
    show s.parse ("--" :: rest) = _
    simp [OptionSet.parse, parseOptions, Except.map]
  long s name value o rest plain named found kind :=
    parse_cons fun fuel => parseOptions_longWord plain named found kind fuel rest []
  flag s c o rest letter found flag :=
    parse_cons fun fuel => parseOptions_flagWord letter found flag fuel rest []

end JobShell

import JobShell.Text.ShellWords

/-!
# Command-line options

The option syntax of the shell's builtins and tools. Short options are single letters after
`-` and may be bundled (`-lp`); a short option that takes a value takes the rest of its
word or the next word. Long options are words after `--`, with a value after `=` or in the
next word; `--x` names the short option `x` when no long option is called `x`. Parsing
stops at the first word that does not start with `-`, at a lone `-` (which stays an
operand) and after `--` (which does not). A flag given a value takes the usual yes and no
words. A list option collects the comma-separated parts of all its values.

The programs read their words through a `Getopt`, of which `OptionSet.parse` is the one the
shell runs with.

The usage text is one line `Usage: PROGRAM [-flags] [-x NAME]… PARAMETERS` and then one
line per option, sorted by name without regard to case, with the help texts in one column.
-/
namespace JobShell

inductive OptionKind where
  | flag
  | value (name : String)
  | list (name : String)
  deriving DecidableEq, Repr

structure OptionSpec where
  short : Option Char := none
  long : Option String := none
  help : String
  kind : OptionKind := .flag
  deriving Repr

namespace OptionSpec

def isFlag (o : OptionSpec) : Bool := o.kind == .flag

/-- The name that identifies an option: its letter, else its long name. -/
def key (o : OptionSpec) : String :=
  match o.short with
  | some c => c.toString
  | none => o.long.getD ""

def valueName (o : OptionSpec) : String :=
  match o.kind with
  | .flag => ""
  | .value n => n
  | .list n => n

/-- How the option is shown in the option lines. -/
def usageName (o : OptionSpec) : String :=
  let v := o.valueName
  match o.short, o.long with
  | some c, some l => "-" ++ c.toString ++ ", --" ++ l ++ (if v.isEmpty then "" else "=" ++ v)
  | some c, none => "-" ++ c.toString ++ (if v.isEmpty then "" else " " ++ v)
  | none, some l => "    --" ++ l ++ (if v.isEmpty then "" else "=" ++ v)
  | none, none => ""

end OptionSpec

/-- The help option every option set has. -/
def helpOption : OptionSpec := { short := some 'h', long := some "help", help := "show help and exit" }

inductive OptionError where
  | unknownShort (c : Char)
  | unknownLong (name : String)
  | missingValue (shown : String)
  | badFlagValue (shown : String) (value : String)
  deriving DecidableEq, Repr

def quoteValue (s : String) : String :=
  "\"" ++ String.join (s.toList.map fun c =>
    if c == '"' then "\\\"" else if c == '\\' then "\\\\" else c.toString) ++ "\""

def OptionError.message : OptionError → String
  | .unknownShort c => "unknown option: -" ++ (if c == '-' then "" else c.toString)
  | .unknownLong n => "unknown option: --" ++ n
  | .missingValue n => "missing parameter for " ++ n
  | .badFlagValue n v => "invalid value for bool " ++ n ++ ": " ++ quoteValue v

/-- The options seen, in order, each with the value given, and the operands. -/
structure ParsedOptions where
  seen : List (String × String) := []
  operands : List String := []
  deriving Repr, Inhabited

namespace ParsedOptions

/-- Whether a flag is on: the last occurrence decides. -/
def flag (p : ParsedOptions) (key : String) : Bool :=
  match (p.seen.reverse.find? (·.1 == key)) with
  | some (_, v) => !(["0", "false", "f", "off", "no", "n"].contains (v.map Char.toLower))
  | none => false

def value? (p : ParsedOptions) (key : String) : Option String :=
  (p.seen.reverse.find? (·.1 == key)).map (·.2)

def value (p : ParsedOptions) (key : String) : String := (p.value? key).getD ""

/-- Every comma-separated part of every value of a list option. -/
def list (p : ParsedOptions) (key : String) : List String :=
  (p.seen.filter (·.1 == key)).flatMap fun (_, v) => v.splitOn ","

end ParsedOptions

def flagWords : List String := ["", "1", "true", "t", "on", "yes", "y", "0", "false", "f", "off", "no", "n"]

/-- The letters of one bundled word: flags are recorded; an option with a value takes
the rest of the word, or else the next word. Returns the words left. -/
def shortOptions (specs : List OptionSpec) : List Char → List String → List (String × String) →
    Except OptionError (List String × List (String × String))
  | [], ws, seen => .ok (ws, seen)
  | c :: cs, ws, seen =>
    match specs.find? (·.short == some c) with
    | none => .error (.unknownShort c)
    | some o =>
      if o.isFlag then shortOptions specs cs ws ((o.key, "") :: seen)
      else if !cs.isEmpty then .ok (ws, (o.key, String.ofList cs) :: seen)
      else match ws with
        | v :: ws' => .ok (ws', (o.key, v) :: seen)
        | [] => .error (.missingValue ("-" ++ c.toString))

/-- A long option word without its dashes, cut at its first `=`: the name, and what follows
the `=` when there is one. -/
def splitAtEquals (body : String) : String × Option String :=
  match body.toList.span (· != '=') with
  | (name, []) => (String.ofList name, none)
  | (name, _ :: value) => (String.ofList name, some (String.ofList value))

/-- One long option word (without its dashes): the value follows `=` or is the next word. -/
def longOption (specs : List OptionSpec) (body : String) (ws : List String)
    (seen : List (String × String)) : Except OptionError (List String × List (String × String)) :=
  let (name, given) := splitAtEquals body
  let found := (specs.find? (·.long == some name)).orElse fun _ =>
    if name.length == 1 then specs.find? (·.short == name.toList.head?) else none
  match found with
  | none => .error (.unknownLong name)
  | some o =>
    let shown := "--" ++ name
    if o.isFlag then
      let v := given.getD ""
      if flagWords.contains (v.map Char.toLower) then .ok (ws, (o.key, v) :: seen)
      else .error (.badFlagValue shown v)
    else match given with
      | some v => .ok (ws, (o.key, v) :: seen)
      | none =>
        match ws with
        | v :: ws' => .ok (ws', (o.key, v) :: seen)
        | [] => .error (.missingValue shown)

/-- Parses the words after the program name; the fuel is one more than the number of
words, and every round takes at least one. The options come back in reverse order. -/
def parseOptions (specs : List OptionSpec) : Nat → List String → List (String × String) →
    Except OptionError ParsedOptions
  | 0, ws, seen => .ok { seen, operands := ws }
  | _ + 1, [], seen => .ok { seen, operands := [] }
  | fuel + 1, w :: ws, seen =>
    if w.isEmpty || !w.startsWith "-" || w == "-" then .ok { seen, operands := w :: ws }
    else if w == "--" then .ok { seen, operands := ws }
    else
      let step := if w.startsWith "--" then longOption specs (w.drop 2).toString ws seen
        else shortOptions specs (w.drop 1).toString.toList ws seen
      match step with
      | .error e => .error e
      | .ok (ws', seen') => parseOptions specs fuel ws' seen'

/-- Sort key of an option: its name without case, then upper case before lower case. -/
def optionLess (a b : OptionSpec) : Bool :=
  let ka := a.key
  let kb := b.key
  let la := ka.map Char.toLower
  let lb := kb.map Char.toLower
  if la == lb then decide (ka ≤ kb) else decide (la < lb)

/-- Breaks a help text into lines of at most `width` characters at spaces. -/
def breakHelp (width : Nat) (s : String) : List String :=
  go (s.length + 1) s.toList
where
  go : Nat → List Char → List String
    | 0, _ => []
    | fuel + 1, cs =>
      let cs := cs.dropWhile (· == ' ')
      if cs.length ≤ width then (if cs.isEmpty then [] else [String.ofList cs])
      else
        -- cut at the last space at or before `width`, or after the first word if none
        let cut := match ((cs.take (width + 1)).zipIdx.filter (·.1 == ' ')).getLast? with
          | some (_, i) => i
          | none => (cs.takeWhile (· != ' ')).length
        let line := (cs.take cut).reverse.dropWhile (· == ' ') |>.reverse
        String.ofList line :: go fuel (cs.drop cut)

/-- A set of options with the program name and the parameter text of its usage line. -/
structure OptionSet where
  program : String
  params : String
  specs : List OptionSpec
  deriving Repr

namespace OptionSet

def sorted (s : OptionSet) : List OptionSpec := s.specs.mergeSort optionLess

def usageLine (s : OptionSet) : String :=
  let specs := s.sorted
  let flags := String.ofList (specs.filterMap fun o => if o.isFlag then o.short else none)
  let rest := specs.filterMap fun o =>
    if o.isFlag then (if o.short.isSome then none else some ("--" ++ o.long.getD ""))
    else match o.short with
      | some c => some ("-" ++ c.toString ++ " " ++ o.valueName)
      | none => some ("--" ++ o.long.getD "" ++ " " ++ o.valueName)
  let parts := (if flags.isEmpty then [] else ["-" ++ flags]) ++ rest
  let opts := if parts.isEmpty then "" else "[" ++ "] [".intercalate parts ++ "]"
  " ".intercalate (["Usage:", s.program] ++ (if opts.isEmpty then [] else [opts]) ++
    (if s.params.isEmpty then [] else [s.params]))

/-- The whole usage text, ending in a newline. -/
def usage (s : OptionSet) : String :=
  let specs := s.sorted
  let widest := specs.foldl (fun m o =>
    let n := o.usageName.length
    if m < n && n ≤ 17 then n else m) 4
  let lines := specs.flatMap fun o =>
    let help := breakHelp 60 o.help.trimAscii.toString
    match help with
    | [] => [" " ++ o.usageName]
    | h :: hs =>
      let first := if o.usageName.length ≤ widest then [" " ++ Text.padRight widest o.usageName ++ "  " ++ h]
        else [" " ++ o.usageName, " " ++ Text.padRight widest " " ++ "  " ++ h]
      first ++ hs.map fun l => " " ++ Text.padRight widest " " ++ "  " ++ l
  s.usageLine ++ "\n" ++ String.join (lines.map (· ++ "\n"))

def parse (s : OptionSet) (words : List String) : Except OptionError ParsedOptions :=
  (parseOptions s.specs (words.length + 1) words []).map fun p => { p with seen := p.seen.reverse }

end OptionSet

/-- A reader of command-line options, as the shell's programs use one: from an option set and the
words after a program's name, the options given, in order, with their values, and the operands,
or why the words do not parse. The programs are written against the rules such a reader follows,
not against one reader; `OptionSet.parse` is the reader the shell runs with. -/
class Getopt where
  read : OptionSet → List String → Except OptionError ParsedOptions

instance Getopt.builtin : Getopt := ⟨OptionSet.parse⟩

end JobShell

import JobShell.Shell.JobControl
import JobShell.Options
import JobShell.Text.ShellWords
import JobShell.Json.Value
import JobShell.Tools.Files
import JobShell.Tools.Awk
import JobShell.Script.Ast

/-!
# Builtins

The commands the shell runs itself, because they read or change its state: directory,
variables, aliases, exit, help, and the job commands. Each takes its arguments (the
first is its own name) and gives an exit status: 0 for success, 1 for failure and 2
for a misused command line.

A stage's shell has the builtins too, but no job control: `fg` and `bg` refuse there.
-/
namespace JobShell

open ShellM

variable [Getopt]

structure BuiltinInfo where
  name : String
  usage : String
  summary : String
  group : String
  deriving Repr

def shellGroup : String := "Built-in Commands"
def jobsGroup : String := "Job Control"

def shellName : String := "ushell"
def shellVersion : String := "1.0.0"

/-- The builtins in byte order of their names. -/
def builtinInfos : List BuiltinInfo :=
  [⟨"alias", "alias [name[=value]...]", "Define or display aliases", shellGroup⟩,
   ⟨"bg", "bg [%N]", "Continue stopped job in background", jobsGroup⟩,
   ⟨"cd", "cd [dir]", "Change directory (default: $HOME, - for $OLDPWD)", shellGroup⟩,
   ⟨"commands", "commands [--json]", "List builtins and integrated tools", shellGroup⟩,
   ⟨"echo", "echo [-n] [args...]", "Display arguments", shellGroup⟩,
   ⟨"env", "env", "Display exported variables", shellGroup⟩,
   ⟨"exit", "exit [code]", "Exit the shell", shellGroup⟩,
   ⟨"export", "export [VAR[=value]...]", "Set and export environment variables", shellGroup⟩,
   ⟨"false", "false", "Return failure", shellGroup⟩,
   ⟨"fg", "fg [%N]", "Bring job to foreground", jobsGroup⟩,
   ⟨"help", "help [name...]", "Display help for builtins", shellGroup⟩,
   ⟨"history", "history [-c]", "Display or clear command history", shellGroup⟩,
   ⟨"jobs", "jobs [-lprs]", "List active jobs", jobsGroup⟩,
   ⟨"pwd", "pwd", "Print working directory", shellGroup⟩,
   ⟨"set", "set [VAR=value...]", "Set shell variables, or list them all", shellGroup⟩,
   ⟨"true", "true", "Return success", shellGroup⟩,
   ⟨"unalias", "unalias [-a] name...", "Remove aliases", shellGroup⟩,
   ⟨"unset", "unset VAR...", "Remove variables", shellGroup⟩,
   ⟨"version", "version", "Display version information", shellGroup⟩]

def isBuiltin (name : String) : Bool := builtinInfos.any (·.name == name)

def builtinInfo? (name : String) : Option BuiltinInfo := builtinInfos.find? (·.name == name)

namespace Tool

/-- The integrated tools by name, in byte order of their names. -/
def registry : List (String × (List String → ToolM Int)) :=
  [("myawk", awk), ("mycat", cat), ("mycp", cp), ("myls", ls), ("mymkdir", mkdir),
   ("mymv", mv), ("myrm", rm), ("myrmdir", rmdir), ("mystat", stat), ("mytouch", touch)]

def find? (name : String) : Option (List String → ToolM Int) :=
  (registry.find? (·.1 == name)).map (·.2)

def names : List String := registry.map (·.1)

end Tool

/-- Every tool name, for help and the catalog. -/
def toolNames : List String := Tool.names

/-- A decimal integer as the standard conversion reads it: an optional sign and digits,
within 64 bits. -/
def strictInt? (s : String) : Option Int :=
  let (neg, digits) := match s.toList with
    | '-' :: r => (true, r)
    | '+' :: r => (false, r)
    | r => (false, r)
  if digits.isEmpty || !digits.all Char.isDigit then none
  else
    let v : Int := digits.foldl (fun acc c => acc * 10 + (c.toNat - '0'.toNat)) 0
    let v := if neg then -v else v
    if v < -9223372036854775808 || v ≥ 9223372036854775808 then none else some v

/-- Parses a builtin's options with `-h`/`--help` added. An error prints the error and
the usage to standard error and gives 2; help prints the usage and gives 0. -/
def builtinOptions (args : List String) (specs : List OptionSpec) (params : String) :
    ShellM (Except Int ParsedOptions) := do
  let name := args.headD ""
  let set : OptionSet := { program := name, params, specs := specs ++ [helpOption] }
  match Getopt.read set args.tail with
  | .error e =>
    warn (name ++ ": " ++ e.message ++ "\n")
    warn set.usage
    return .error 2
  | .ok p =>
    if p.flag "h" then
      say set.usage
      return .error 0
    else return .ok p

/-- A name made of letters, digits and `_`, not starting with a digit. -/
def validIdentifier (s : String) : Bool := Script.validName s

/-- Changes the working directory of the process. -/
def changeDir (dir : String) : ShellM (Option Errno) := do
  let w ← world
  match w.tree.lstat w.cwd dir with
  | .error e => return some e
  | .ok (.file _) => return some .notdir
  | .ok .dir =>
    match w.tree.locate w.cwd dir with
    | .ok pl =>
      modifyWorld fun w => { w with cwd := pl.path }
      return none
    | .error e => return some e

def cdBuiltin (args : List String) : ShellM Int := do
  let name := args.headD "cd"
  let env := (← shell).env
  let target : Option String ← match args with
    | [_] =>
      match env.lookup "HOME" with
      | some home =>
        if home.isEmpty then do log (name ++ ": HOME not set"); pure none else pure (some home)
      | none => do log (name ++ ": HOME not set"); pure none
    | [_, d] =>
      if d == "-" then
        let old := env.get "OLDPWD"
        if old.isEmpty then do log (name ++ ": OLDPWD not set"); pure none
        else do say (old ++ "\n"); pure (some old)
      else pure (some d)
    | _ => do log (name ++ ": too many arguments"); pure none
  let some dir := target | return 1
  match ← changeDir dir with
  | some e =>
    log (name ++ ": " ++ dir ++ ": " ++ e.message)
    return 1
  | none =>
    let env := (← shell).env
    let env := match env.lookup "PWD" with
      | some prev => env.setenv "OLDPWD" prev
      | none => env
    let wd := Fs.render (← world).cwd
    modifyShell fun s => { s with env := env.setenv "PWD" wd }
    return 0

def pwdBuiltin (_args : List String) : ShellM Int := do
  say (Fs.render (← world).cwd ++ "\n")
  return 0

def echoBuiltin (args : List String) : ShellM Int := do
  let words := args.drop 1
  let (newline, words) := match words with
    | "-n" :: rest => (false, rest)
    | ws => (true, ws)
  say (" ".intercalate words ++ (if newline then "\n" else ""))
  return 0

/-- `NAME=value` split at the first `=`, and whether there was one. -/
def cutAssignment (s : String) : String × String × Bool :=
  match s.splitOn "=" with
  | [name] => (name, "", false)
  | name :: rest => (name, "=".intercalate rest, true)
  | [] => ("", "", false)

def exportBuiltin (args : List String) : ShellM Int := do
  let name := args.headD "export"
  if args.length == 1 then
    for pair in (← shell).env.environ do
      let (k, v) := splitPair pair
      say ("export " ++ k ++ "=" ++ Text.shellWord v ++ "\n")
    return 0
  let mut status : Int := 0
  for arg in args.drop 1 do
    let (var, value, hasValue) := cutAssignment arg
    if !validIdentifier var then
      log (name ++ ": \x60" ++ arg ++ "': not a valid identifier")
      status := 1
    else if hasValue then
      modifyShell fun s => { s with env := s.env.setenv var value }
    else
      modifyShell fun s => { s with env := s.env.markExported var }
  return status

def setBuiltin (args : List String) : ShellM Int := do
  let name := args.headD "set"
  if args.length == 1 then
    for pair in (← shell).env.all do
      say (pair ++ "\n")
    return 0
  go name (args.drop 1)
where
  go (name : String) : List String → ShellM Int
    | [] => return 0
    | arg :: rest => do
      let (var, value, ok) := cutAssignment arg
      if !ok || !validIdentifier var then
        log (name ++ ": invalid format (use VAR=value)")
        return 1
      modifyShell fun s => { s with env := s.env.set var value }
      go name rest

def unsetBuiltin (args : List String) : ShellM Int := do
  let name := args.headD "unset"
  let specs : List OptionSpec :=
    [{ short := some 'f', help := "treat NAME as a function" },
     { short := some 'v', help := "treat NAME as a variable" }]
  match ← builtinOptions args specs "NAME..." with
  | .error code => return code
  | .ok p =>
    if p.operands.isEmpty then
      log (name ++ ": usage: unset VAR")
      return 1
    for var in p.operands do
      modifyShell fun s => { s with env := s.env.unset var }
    return 0

def envBuiltin (_args : List String) : ShellM Int := do
  for pair in (← shell).env.environ do
    say (pair ++ "\n")
  return 0

def aliasLine (name value : String) : String := "alias " ++ name ++ "=" ++ Text.shellWord value ++ "\n"

def setAlias (name value : String) : ShellM Unit :=
  modifyShell fun s => { s with aliases := (name, value) :: s.aliases.filter (·.1 != name) }

def sortedAliases : ShellM (List (String × String)) := do
  return (← shell).aliases.mergeSort fun a b => decide (a.1 ≤ b.1)

def aliasBuiltin (args : List String) : ShellM Int := do
  let cmd := args.headD "alias"
  if args.length == 1 then
    for (n, v) in ← sortedAliases do
      say (aliasLine n v)
    return 0
  let mut status : Int := 0
  for arg in args.drop 1 do
    let (name, value, ok) := cutAssignment arg
    if ok && !name.isEmpty && !name.toList.any (fun c => " \t|&;<>".toList.contains c) then
      setAlias name value
    else if ok then
      log (cmd ++ ": \x60" ++ name ++ "': invalid alias name")
      status := 1
    else
      match (← shell).aliases.lookup name with
      | some v => say (aliasLine name v)
      | none =>
        log (cmd ++ ": " ++ name ++ ": not found")
        status := 1
  return status

def unaliasBuiltin (args : List String) : ShellM Int := do
  let cmd := args.headD "unalias"
  match ← builtinOptions args [{ short := some 'a', help := "remove all alias definitions" }]
      "[-a] NAME..." with
  | .error code => return code
  | .ok p =>
    if p.flag "a" then
      modifyShell fun s => { s with aliases := [] }
      return 0
    if p.operands.isEmpty then
      log (cmd ++ ": usage: unalias [-a] name [name ...]")
      return 2
    let mut status : Int := 0
    for name in p.operands do
      if ((← shell).aliases.lookup name).isNone then
        log (cmd ++ ": " ++ name ++ ": not found")
        status := 1
      else
        modifyShell fun s => { s with aliases := s.aliases.filter (·.1 != name) }
    return status

def exitBuiltin (args : List String) : ShellM Int := do
  let name := args.headD "exit"
  if args.length > 2 then
    log (name ++ ": too many arguments")
    return 1
  let last ← status
  let code : Int ← match args with
    | [_, arg] =>
      match strictInt? arg with
      | some n => pure (n % 256)
      | none => do
        log (name ++ ": " ++ arg ++ ": numeric argument required")
        pure 2
    | _ => pure (last % 256)
  modifyShell fun s => { s with quit := true, exitCode := code }
  return code

def historyBuiltin (args : List String) : ShellM Int := do
  match ← builtinOptions args [{ short := some 'c', help := "clear the history by deleting all entries" }]
      "[-c]" with
  | .error code => return code
  | .ok p =>
    if p.flag "c" then
      modifyShell fun s => { s with history := [] }
      say "History cleared\n"
      return 0
    let hist := (← shell).history
    if hist.isEmpty then
      say "No history\n"
      return 0
    for (line, i) in hist.zipIdx do
      say (Text.padLeft 5 (toString (i + 1)) ++ "  " ++ line ++ "\n")
    return 0

def banner : String := "Unified Shell (" ++ shellName ++ ") v" ++ shellVersion ++ "\n"

def helpBuiltin (args : List String) : ShellM Int := do
  let cmd := args.headD "help"
  if args.length > 1 then
    let mut status : Int := 0
    for topic in args.drop 1 do
      match builtinInfo? topic with
      | some b => say (b.name ++ ": " ++ b.usage ++ "\n    " ++ b.summary ++ "\n")
      | none =>
        log (cmd ++ ": no help topics match \x60" ++ topic ++ "'")
        status := 1
    return status
  say banner
  for group in [shellGroup, jobsGroup] do
    say ("\n" ++ group ++ ":\n")
    for b in builtinInfos do
      if b.group == group then
        say ("  " ++ Text.padRight 20 b.usage ++ " " ++ b.summary ++ "\n")
    if group == jobsGroup then
      say ("  " ++ Text.padRight 20 "cmd &" ++ " " ++ "Run command in background" ++ "\n")
  say ("\nIntegrated Tools:\n  " ++ ", ".intercalate toolNames ++ "\n")
  return 0

def versionBuiltin (_args : List String) : ShellM Int := do
  say banner
  return 0

/-- Everything the shell runs without searching the path. -/
def catalogJson : JsonValue :=
  let builtins := builtinInfos.map fun b =>
    JsonValue.object [("name", .string b.name), ("kind", .string "builtin"),
      ("usage", .string b.usage), ("summary", .string b.summary)]
  let tools := toolNames.map fun n => JsonValue.object [("name", .string n), ("kind", .string "tool")]
  .object [("commands", .array (builtins ++ tools))]

def commandsBuiltin (args : List String) : ShellM Int := do
  match ← builtinOptions args [{ long := some "json", help := "print a JSON catalog" }] "[--json]" with
  | .error code => return code
  | .ok p =>
    if p.flag "json" then
      say (catalogJson.indented true "  " "" ++ "\n")
      return 0
    for b in builtinInfos do
      say (Text.padRight 8 "builtin" ++ " " ++ b.name ++ "\n")
    for n in toolNames do
      say (Text.padRight 8 "tool" ++ " " ++ n ++ "\n")
    return 0

/-- The status of a job as `jobs` prints it. -/
def jobsLine (long : Bool) (j : Job) (marker : Char) : String :=
  "[" ++ toString j.id ++ "]" ++ marker.toString ++ "  " ++
  (if long then Text.padRight 7 (toString j.pid) ++ " " else "") ++
  Text.padRight 20 j.status.name ++ " " ++ j.command ++ "\n"

/-- The options of `jobs`. -/
def jobsSpecs : List OptionSpec :=
  [{ short := some 'l', help := "list process IDs in addition to the normal information" },
   { short := some 'p', help := "list process IDs only" },
   { short := some 'r', help := "restrict output to running jobs" },
   { short := some 's', help := "restrict output to stopped jobs" },
   helpOption]

def jobsBuiltin (args : List String) : ShellM Int := do
  let name := args.headD "jobs"
  let set : OptionSet := { program := name, params := "", specs := jobsSpecs }
  match Getopt.read set args.tail with
  | .error e =>
    warn (name ++ ": " ++ e.message ++ "\n")
    warn set.usage
    return 1
  | .ok p =>
    if p.flag "h" then
      say set.usage
      return 0
    if let some arg := p.operands.head? then
      log (name ++ ": unexpected argument: " ++ arg)
      return 1
    catchUp
    let (_, t) := (← jobs).cleanup
    setJobs t
    let t ← jobs
    for (j, i) in t.jobs.zipIdx do
      if p.flag "r" && j.status != .running then continue
      if p.flag "s" && j.status != .stopped then continue
      if p.flag "p" then say (toString j.pid ++ "\n")
      else say (jobsLine (p.flag "l") j (t.marker i))
    return 0

/-- Resolves a job operand: `%+`, `%%`, `%-`, or a number with an optional `%`. -/
def jobSpec (name spec : String) : ShellM (Except String Job) := do
  let t ← jobs
  match spec with
  | "%+" | "%%" =>
    match t.current? with
    | some (some j) => return .ok j
    | _ => return .error (name ++ ": no current job")
  | "%-" =>
    match t.previous? with
    | some (some j) => return .ok j
    | _ => return .error (name ++ ": no previous job")
  | _ =>
    let digits := if spec.startsWith "%" then (spec.drop 1).toString else spec
    match strictInt? digits with
    | some id =>
      if id ≤ 0 then return .error (name ++ ": invalid job id: " ++ spec)
      match t.get? id with
      | some j => return .ok j
      | none => return .error (name ++ ": " ++ toString id ++ ": no such job")
    | none => return .error (name ++ ": invalid job id: " ++ spec)

/-- The job a `fg` or `bg` refers to; `fallback` picks it when no operand is given. A
job that is done is reported, and the done jobs are cleaned up. -/
def jobTarget (args : List String) (fallback : ShellM (Except String Job)) :
    ShellM (Option Job) := do
  let name := args.headD ""
  let found ← match args with
    | [_] => fallback
    | [_, spec] => jobSpec name spec
    | _ => pure (.error (name ++ ": too many arguments"))
  match found with
  | .error msg =>
    log msg
    return none
  | .ok j =>
    if j.status == .done then
      log (name ++ ": job " ++ toString j.id ++ " has terminated")
      let (_, t) := (← jobs).cleanup
      setJobs t
      return none
    return some j

def displayCommand (j : Job) : String :=
  if j.command.endsWith " &" then (j.command.dropEnd 2).toString else j.command

def fgBuiltin (args : List String) : ShellM Int := do
  let name := args.headD "fg"
  if (← shell).stage then
    log (name ++ ": no job control")
    return 1
  catchUp
  let fallback : ShellM (Except String Job) := do
    match (← jobs).current? with
    | some (some j) => return .ok j
    | _ => return .error (name ++ ": no current job")
  let some j ← jobTarget args fallback | return 1
  say (displayCommand j ++ "\n")
  foreground j.id

def bgBuiltin (args : List String) : ShellM Int := do
  let name := args.headD "bg"
  if (← shell).stage then
    log (name ++ ": no job control")
    return 1
  catchUp
  let fallback : ShellM (Except String Job) := do
    let t ← jobs
    if t.size == 0 then return .error (name ++ ": no current job")
    match t.lastWithStatus? .stopped with
    | some j => return .ok j
    | none => return .error (name ++ ": no stopped jobs")
  let some j ← jobTarget args fallback | return 1
  if j.status == .running then
    log (name ++ ": job " ++ toString j.id ++ " already in background")
    return 0
  match ← background j.id with
  | some e =>
    log (name ++ ": " ++ toString j.id ++ ": " ++ e.message)
    return 1
  | none =>
    say ("[" ++ toString j.id ++ "]+ " ++ displayCommand j ++ " &\n")
    return 0

/-- Runs the builtin a name stands for. -/
def runBuiltin (name : String) (args : List String) : ShellM Int :=
  match name with
  | "alias" => aliasBuiltin args
  | "bg" => bgBuiltin args
  | "cd" => cdBuiltin args
  | "commands" => commandsBuiltin args
  | "echo" => echoBuiltin args
  | "env" => envBuiltin args
  | "exit" => exitBuiltin args
  | "export" => exportBuiltin args
  | "false" => return 1
  | "fg" => fgBuiltin args
  | "help" => helpBuiltin args
  | "history" => historyBuiltin args
  | "jobs" => jobsBuiltin args
  | "pwd" => pwdBuiltin args
  | "set" => setBuiltin args
  | "true" => return 0
  | "unalias" => unaliasBuiltin args
  | "unset" => unsetBuiltin args
  | "version" => versionBuiltin args
  | _ => return 127

end JobShell

import JobShell.Shell.Builtins
import JobShell.Host.Procs
import JobShell.Jobs.Snapshot
import JobShell.Command.Pipeline

/-!
# One stage of a pipeline

The child side of a pipeline: a process started with `[--in=FILE] [--out=FILE
[--append]] -- ARGV...` opens its redirections, then runs the builtin or tool `ARGV`
names, or else looks the program up on `PATH` and runs it.

A builtin runs in a shell of its own that has the parent's job table, frozen, and no job
control, so `jobs` lists what the parent had and `fg` and `bg` refuse. The table comes in
the `USHELL_JOBS` variable, which is kept out of the stage's environment. A table read back
with an empty slot makes `jobs` fault; the stage then ends with status 2 and the panic on
standard error (its first line: the goroutine trace after it is not modelled).

The host programs are `sh` and `cat`, in `/bin` and `/usr/bin`. A path naming a file of
the working tree cannot be run: the files there are not executable.
-/
namespace JobShell

open ShellM Host

variable [Getopt]

/-- The variable that carries the job table to a builtin stage. -/
def jobsVariable : String := "USHELL_JOBS"

/-- The programs the host has, and where. -/
def hostPrograms : List String := ["sh", "cat"]
def systemDirs : List String := ["/bin", "/usr/bin"]

/-- What looking a program up gives. -/
inductive Lookup where
  | found (program : String)
  | notFound
  | denied
  | failed (msg : String)
  deriving DecidableEq, Repr

/-- The value of a variable in an environment list: the first entry wins. -/
def environValue? (environ : List String) (key : String) : Option String :=
  environ.findSome? fun e => let (k, v) := splitPair e; if k == key then some v else none

/-- Whether two entries set the same name; an entry without `=` sets none. -/
def setsSame (e e' : String) : Bool :=
  e.contains '=' && e'.contains '=' && (splitPair e).1 == (splitPair e').1

/-- The environment a stage reads from the block it was started with: of the entries that set
one name, only the first is kept, as the Go runtime keeps it. -/
def firstSettings : List String → List String
  | [] => []
  | e :: rest => e :: (firstSettings rest).filter fun e' => !setsSame e e'

/-- Looks a program up: a name with a `/` is a path, any other name is searched in the
directories of `PATH`. -/
def lookPath (tree : Fs.Tree) (cwd : List String) (environ : List String) (name : String) :
    Lookup :=
  if name.contains '/' then
    match systemDirs.findSome? fun d =>
        if hostPrograms.any (fun p => d ++ "/" ++ p == name) then some (name.splitOn "/").getLast!
        else none with
    | some p => .found p
    | none =>
      match tree.lstat cwd name with
      | .ok .dir => .failed ("exec: " ++ quoted name ++ ": is a directory")
      | .ok (.file _) => .denied
      | .error .noent => .notFound
      | .error e => .failed ("exec: " ++ quoted name ++ ": " ++ e.message)
  else
    let dirs := ((environValue? environ "PATH").getD "").splitOn ":"
    if dirs.any (fun d => systemDirs.contains d) && hostPrograms.contains name then .found name
    else .notFound
where
  quoted (s : String) : String := "\"" ++ s ++ "\""

/-- The shell a builtin stage runs in. -/
def stageSession (h : Host) (environ : List String) (cwd : List String) (pid : Nat)
    (input : Input) : Session :=
  let table := match environValue? environ jobsVariable with
    | some snap => (Table.restore snap).toOption.getD (Table.empty Table.defaultCapacity)
    | none => Table.empty Table.defaultCapacity
  let environ := environ.filter fun e => (splitPair e).1 != jobsVariable
  { shell := { env := Env.ofEnviron environ, aliases := [], stage := true, jobs := table }
    world := { tree := h.tree, cwd, input, system := .frozen, recording := false, pid, environ } }

/-- The input a stage reads, and how to give back what is left of it. -/
def Host.Source.input (h : Host) : Source → Input
  | .terminal => h.input
  | .own i => i

def Host.Source.give (h : Host) (src : Source) (i : Input) : Host :=
  match src with
  | .terminal => { h with input := i }
  | .own _ => h

/-- Runs the program a stage names, with its streams already set. -/
def runProgram (h : Host) (argv : List String) (environ : List String) (cwd : List String)
    (pid : Nat) (stdin : Source) (stdout : Sink) : ShEnd × Host :=
  let name := argv.headD ""
  if isBuiltin name then
    let s := stageSession h environ cwd pid (stdin.input h)
    let (code, s) := (runBuiltin name argv).run s
    match s.world.crashed with
    | some c =>
      -- the runtime reports the panic on standard error and exits with status 2
      let h := { h with tree := s.world.tree }.write stdout c.out
      (.exited 2, h.write .errors (c.err ++ "panic: " ++ c.fault.message ++ "\n"))
    | none =>
      let h := ({ h with tree := s.world.tree }.write stdout s.world.out).write .errors s.world.err
      (.exited (code % 256), h)
  else match Tool.find? name with
  | some tool =>
    let st : ToolState := { tree := h.tree, cwd, input := stdin.input h, environ }
    let (code, st) := (tool argv).run st
    let h := Source.give { h with tree := st.tree } stdin st.input
    (.exited (code % 256), (h.write stdout st.out).write .errors st.err)
  | none =>
    let fail (msg : String) : ShEnd × Host := (.exited 127, h.write .errors ("ushell: " ++ msg ++ "\n"))
    match lookPath h.tree cwd environ name with
    | .notFound => fail ("command not found: " ++ name)
    | .denied => fail ("permission denied: " ++ name)
    | .failed msg => fail (name ++ ": " ++ msg)
    | .found program =>
      let sh : Sh := { vars := Env.ofEnviron environ, pid, cwd, stdin, stdout, work := [] }
      if program == "sh" then startSh sh h argv.tail
      else
        let (eff, _, h) := catCommand sh h argv.tail
        match eff with
        | .status code => (.exited code, h)
        | .exit code => (.exited code, h)
        | .signal sig => (.killed sig, h)

/-- The options of a stage. -/
def stageOptions : OptionSet :=
  { program := "__stage", params := "",
    specs := [{ long := some "in", help := "read standard input from FILE", kind := .value "FILE" },
              { long := some "out", help := "write standard output to FILE", kind := .value "FILE" },
              { long := some "append", help := "append to the --out file instead of truncating" }] }

/-- Runs a stage whose options are read: standard input from `inFile` unless it is empty,
standard output to `outFile` unless it is empty (appended to or truncated), then the program
`argv` names. A redirection that cannot be opened ends the stage with status 1. -/
def runRedirected (h : Host) (inFile outFile : String) (append : Bool) (argv : List String)
    (environ : List String) (cwd : List String) (pid : Nat) (stdin : Source) (stdout : Sink) :
    ShEnd × Host :=
  let opened : Except String (Source × Sink × Fs.Tree) := do
    let src ← if inFile.isEmpty then pure stdin
      else match h.tree.lstat cwd inFile with
        | .ok (.file d) => pure (.own { data := d })
        | .ok .dir => pure (.own {})
        | .error e => throw (inFile ++ ": " ++ e.message)
    if outFile.isEmpty then return (src, stdout, h.tree)
    match h.tree.writeFile cwd outFile "" append with
    | .error e => throw (outFile ++ ": " ++ e.message)
    | .ok t =>
      match t.locate cwd outFile with
      | .ok pl =>
        -- an input file that is also the truncated output reads as empty
        let same := !inFile.isEmpty && !append &&
          (match h.tree.locate cwd inFile with
           | .ok q => q.path == pl.path
           | .error _ => false)
        return (if same then .own {} else src, .file pl.path, t)
      | .error e => throw (outFile ++ ": " ++ e.message)
  match opened with
  | .error msg => (.exited 1, h.write .errors ("ushell: " ++ msg ++ "\n"))
  | .ok (src, sink, tree) => runProgram { h with tree } argv (firstSettings environ) cwd pid src sink

/-- Runs a stage from its command line: the redirections, then the program. -/
def runStage (h : Host) (args : List String) (environ : List String) (cwd : List String)
    (pid : Nat) (stdin : Source) (stdout : Sink) : ShEnd × Host :=
  let fail (code : Int) (msg : String) : ShEnd × Host :=
    (.exited code, h.write .errors ("ushell: " ++ msg ++ "\n"))
  match Getopt.read stageOptions args with
  | .error e => fail 2 ("__stage: " ++ e.message)
  | .ok p =>
    if p.operands.isEmpty then fail 2 "__stage: missing command"
    else runRedirected h (p.value "in") (p.value "out") (p.flag "append") p.operands environ cwd
      pid stdin stdout

/-- The command line a stage is started with. -/
def stageArgs (c : Command) : List String :=
  (if c.input.isEmpty then [] else ["--in=" ++ c.input]) ++
  (if c.output.isEmpty then []
   else ["--out=" ++ c.output] ++ (if c.append then ["--append"] else [])) ++
  ["--"] ++ c.args

end JobShell

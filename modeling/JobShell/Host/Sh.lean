import JobShell.Script.Parser
import JobShell.Script.Expand
import JobShell.Tools.Run

/-!
# The system shell

Pipeline stages that are neither builtins nor tools run programs of the host system.
The one such program modelled is the POSIX `sh` (and the `cat` it and the shell may
start): enough of it to run the short scripts given to `sh -c`. A script is parsed with
the shell's own parser and run as a machine over a stack of work: statements still to
run, and the checks that follow a statement (`!`, `&&`, `||`, `if`).

The machine stops when the stack is empty (the status is the last command's), at `exit`,
when the process kills itself, or when it stops itself with `kill -STOP $$`: then the
rest of the stack is kept, and running it again later is what continuing the process
does.

Processes share the host: the file tree, the terminal's standard input, and what they
wrote to the terminal. A process writes to a sink: the terminal, its error stream, the
pipe to the next stage, a file, or nowhere.
-/
namespace JobShell.Host

open Script

/-- Where a process's output goes. -/
inductive Sink where
  /-- The shell's standard output. -/
  | terminal
  /-- The shell's standard error. -/
  | errors
  /-- The pipe to the next stage of the pipeline now starting. -/
  | pipe
  | file (path : List String)
  | discard
  deriving DecidableEq, Repr, Inhabited

/-- What processes share. -/
structure Host where
  tree : Fs.Tree
  /-- The terminal's standard input, read by every process that inherits it. -/
  input : Input := {}
  out : String := ""
  err : String := ""
  /-- What was written to the pipe of the stage now running. -/
  piped : String := ""
  deriving Inhabited

/-- Writes to a sink. -/
def Host.write (h : Host) (sink : Sink) (text : String) : Host :=
  match sink with
  | .terminal => { h with out := h.out ++ text }
  | .errors => { h with err := h.err ++ text }
  | .pipe => { h with piped := h.piped ++ text }
  | .file p =>
    match h.tree.writeFile [] (Fs.render p) text true with
    | .ok t => { h with tree := t }
    | .error _ => h
  | .discard => h

/-- Where a process reads its standard input from. -/
inductive Source where
  | terminal
  | own (i : Input)
  deriving Repr, Inhabited

/-- Signal numbers and names. -/
def signalNames : List (String × Nat) :=
  [("HUP", 1), ("INT", 2), ("QUIT", 3), ("ILL", 4), ("TRAP", 5), ("ABRT", 6), ("BUS", 7),
   ("FPE", 8), ("KILL", 9), ("USR1", 10), ("SEGV", 11), ("USR2", 12), ("PIPE", 13),
   ("ALRM", 14), ("TERM", 15), ("STKFLT", 16), ("CHLD", 17), ("CONT", 18), ("STOP", 19),
   ("TSTP", 20), ("TTIN", 21), ("TTOU", 22), ("URG", 23), ("XCPU", 24), ("XFSZ", 25),
   ("VTALRM", 26), ("PROF", 27), ("WINCH", 28), ("IO", 29), ("PWR", 30), ("SYS", 31)]

/-- What a signal does to a process that has not changed how it handles it. -/
inductive SignalEffect where
  | terminate
  | stop
  | ignore
  deriving DecidableEq, Repr

/-- The effect of a signal on a stage. `SIGTTIN` and `SIGTTOU` are ignored by every stage,
so that background stages are not stopped for using the terminal. -/
def signalEffect (sig : Nat) : SignalEffect :=
  if sig == 19 || sig == 20 then .stop
  else if sig == 0 || sig == 17 || sig == 18 || sig == 21 || sig == 22 || sig == 23 ||
    sig == 28 then .ignore
  else if sig < 65 then .terminate
  else .ignore

/-- A signal given by name (with or without `SIG`) or number. -/
def signalOf? (s : String) : Option Nat :=
  let name := if s.startsWith "SIG" then (s.drop 3).toString else s
  match name.toNat? with
  | some n => if n < 65 then some n else none
  | none => signalNames.lookup name

/-- Work left to a script. -/
inductive Work where
  | run (s : Stmt)
  /-- Inverts the status. -/
  | negate
  /-- Runs the statement when the status is zero. -/
  | andThen (s : Stmt)
  /-- Runs the statement when the status is not zero. -/
  | orElse (s : Stmt)
  /-- After the condition of an `if` branch: its body on success, else the next
  branches. -/
  | decide (body : List Stmt) (rest : List (List Stmt × List Stmt))
  deriving Repr, Inhabited

/-- A running script. -/
structure Sh where
  vars : Env
  pid : Nat
  status : Int := 0
  cwd : List String
  /-- `$0`, used in diagnostics. -/
  zero : String := "sh"
  stdin : Source := .terminal
  stdout : Sink := .terminal
  stderr : Sink := .errors
  work : List Work
  deriving Inhabited

/-- How a script ended, or that it stopped with work left. -/
inductive ShEnd where
  | exited (code : Int)
  | killed (sig : Nat)
  | stopped (sig : Nat) (rest : Sh)
  deriving Inhabited

/-- The work a branch list of an `if` starts with; the `else` branch has no condition.
With no branch left the status becomes 0, which `none` stands for. -/
def branchWork : List (List Stmt × List Stmt) → Option (List Work)
  | [] => none
  | (cond, body) :: rest =>
    if cond.isEmpty then some (body.map .run)
    else some (cond.map .run ++ [.decide body rest])

/-- Dash's `echo`: a first `-n` drops the newline, and backslash escapes are
interpreted, `\c` ending the output. -/
def echoText (args : List String) : String :=
  let (newline, words) := match args with
    | "-n" :: rest => (false, rest)
    | ws => (true, ws)
  let (text, stop) := escapes (" ".intercalate words).toList []
  String.ofList text ++ (if newline && !stop then "\n" else "")
where
  escapes : List Char → List Char → List Char × Bool
    | [], acc => (acc.reverse, false)
    | '\\' :: c :: rest, acc =>
      match c with
      | 'a' => escapes rest ('\x07' :: acc)
      | 'b' => escapes rest ('\x08' :: acc)
      | 'c' => (acc.reverse, true)
      | 'f' => escapes rest ('\x0c' :: acc)
      | 'n' => escapes rest ('\n' :: acc)
      | 'r' => escapes rest ('\r' :: acc)
      | 't' => escapes rest ('\t' :: acc)
      | 'v' => escapes rest ('\x0b' :: acc)
      | '\\' => escapes rest ('\\' :: acc)
      | '0' =>
        let ds := (rest.take 3).takeWhile fun d => '0' ≤ d && d ≤ '7'
        let v := ds.foldl (fun n d => n * 8 + (d.toNat - '0'.toNat)) 0
        escapes (rest.drop ds.length) (Char.ofNat (v % 256) :: acc)
      | _ => escapes rest (c :: '\\' :: acc)
    | c :: rest, acc => escapes rest (c :: acc)
  termination_by cs => cs.length
  decreasing_by all_goals (simp only [List.length_drop, List.length_cons]; omega)

/-- Splits a line read by `read` among the names: blanks around fields are dropped and
the last name takes the rest of the line. -/
def readFields (line : String) (names : List String) : List (String × String) :=
  go (line.toList.dropWhile blank) names
where
  blank (c : Char) : Bool := c == ' ' || c == '\t' || c == '\n'
  go : List Char → List String → List (String × String)
    | _, [] => []
    | cs, [n] => [(n, String.ofList (cs.reverse.dropWhile blank).reverse)]
    | cs, n :: more =>
      let field := cs.takeWhile (! blank ·)
      let rest := (cs.drop field.length).dropWhile blank
      (n, String.ofList field) :: go rest more

/-- Takes one line from an input: the text before the newline, and whether a newline
ended it. -/
def takeLine (i : Input) : String × Bool × Input :=
  let cs := i.data.toList
  let line := cs.takeWhile (· != '\n')
  let ended := line.length < cs.length
  (String.ofList line, ended, { i with data := String.ofList (cs.drop (line.length + 1)) })

/-- Takes everything left on an input. -/
def takeAll (i : Input) : String × Input := (i.data, { i with data := "" })

namespace Sh

/-- The scope of word expansion inside the script. -/
def scope (st : Sh) (h : Host) : Scope :=
  { vars := st.vars, status := st.status, pid := st.pid, tree := h.tree, cwd := st.cwd,
    zero := st.zero }

/-- A diagnostic in the form `sh: LINE: message`. -/
def complain (st : Sh) (h : Host) (line : Nat) (msg : String) : Host :=
  h.write st.stderr (st.zero ++ ": " ++ toString line ++ ": " ++ msg ++ "\n")

/-- Reads one line from the script's standard input. -/
def readLine (st : Sh) (h : Host) : String × Bool × Sh × Host :=
  match st.stdin with
  | .terminal =>
    let (line, ended, i) := takeLine h.input
    (line, ended || !line.isEmpty, st, { h with input := i })
  | .own i =>
    let (line, ended, i) := takeLine i
    (line, ended || !line.isEmpty, { st with stdin := .own i }, h)

/-- Reads all of the script's standard input. -/
def readAll (st : Sh) (h : Host) : String × Sh × Host :=
  match st.stdin with
  | .terminal => let (d, i) := takeAll h.input; (d, st, { h with input := i })
  | .own i => let (d, i) := takeAll i; (d, { st with stdin := .own i }, h)

end Sh

/-- What a command did to the script: go on with a status, or end it. -/
inductive Effect where
  | status (code : Int)
  | exit (code : Int)
  | signal (sig : Nat)
  deriving Repr, Inhabited

/-- `cat`: the named files, or standard input, to standard output. -/
def catCommand (st : Sh) (h : Host) (args : List String) : Effect × Sh × Host :=
  if args.isEmpty then
    let (d, st, h) := st.readAll h
    (.status 0, st, h.write st.stdout d)
  else
    let (code, h) := args.foldl (fun (acc : Int × Host) a =>
      let (code, h) := acc
      if a == "-" then (code, h)
      else match h.tree.readFile st.cwd a with
        | .ok d => (code, h.write st.stdout d)
        | .error e => (1, h.write st.stderr ("cat: " ++ a ++ ": " ++ e.message ++ "\n"))) (0, h)
    (.status code, st, h)

/-- `kill`: signals to the script's own process take effect when the command is done;
any other process does not exist. -/
def killCommand (st : Sh) (h : Host) (line : Nat) (args : List String) : Effect × Sh × Host :=
  let (sig?, targets) : Option Nat × List String := match args with
    | "-s" :: name :: rest => (signalOf? name, rest)
    | a :: rest =>
      if a.startsWith "-" && a.length > 1 then (signalOf? (a.drop 1).toString, rest)
      else (some 15, a :: rest)
    | [] => (some 15, [])
  match sig? with
  | none =>
    (.status 1, st, st.complain h line ("kill: invalid signal number or name: " ++
      ((args.head?.map fun a => (a.drop 1).toString).getD "")))
  | some sig =>
    if targets.isEmpty then
      (.status 2, st, st.complain h line "kill: Usage: kill [-s sigspec | -signum | -sigspec] [pid | job]... or\nkill -l [exitstatus]")
    else
      let mine := targets.any (· == toString st.pid)
      let others := targets.filter (· != toString st.pid)
      let h := others.foldl (fun h _ => st.complain h line "kill: No such process") h
      let code : Int := if others.isEmpty then 0 else 1
      if mine then
        match signalEffect sig with
        | .ignore => (.status code, st, h)
        | _ => (.signal sig, { st with status := code }, h)
      else (.status code, st, h)

/-- Runs one simple command. -/
def simple (st : Sh) (h : Host) (line : Nat) (args : List String) : Effect × Sh × Host :=
  match args with
  | [] => (.status 0, st, h)
  | name :: rest =>
    match name with
    | "echo" => (.status 0, st, h.write st.stdout (echoText rest))
    | "true" | ":" => (.status 0, st, h)
    | "false" => (.status 1, st, h)
    | "exit" =>
      match rest with
      | [] => (.exit st.status, st, h)
      | a :: _ =>
        match a.toNat? with
        | some n => (.exit (n % 256), st, h)
        | none => (.exit 2, st, st.complain h line ("exit: Illegal number: " ++ a))
    | "pwd" => (.status 0, st, h.write st.stdout (Fs.render st.cwd ++ "\n"))
    | "cd" =>
      let dir := rest.headD (st.vars.get "HOME")
      match h.tree.locate st.cwd dir with
      | .ok pl =>
        if (h.tree.node? pl.path).any Fs.Node.isDir then (.status 0, { st with cwd := pl.path }, h)
        else (.status 2, st, st.complain h line ("cd: can't cd to " ++ dir))
      | .error _ => (.status 2, st, st.complain h line ("cd: can't cd to " ++ dir))
    | "read" =>
      let names := rest.filter (· != "-r")
      let (text, got, st, h) := st.readLine h
      let vars := (readFields text names).foldl (fun e (kv : String × String) => e.set kv.1 kv.2) st.vars
      (.status (if got then 0 else 1), { st with vars }, h)
    | "export" =>
      let vars := rest.foldl (fun e a =>
        match a.splitOn "=" with
        | [n] => e.markExported n
        | n :: v => e.setenv n ("=".intercalate v)
        | [] => e) st.vars
      (.status 0, { st with vars }, h)
    | "unset" => (.status 0, { st with vars := rest.foldl Env.unset st.vars }, h)
    | "kill" => killCommand st h line rest
    | "cat" => catCommand st h rest
    | "sleep" => (.status 0, st, h)
    | _ => (.status 127, st, st.complain h line (name ++ ": not found"))

/-- Applies a command's redirections to the script's streams; a target that cannot be
opened is reported, and the error carries the host with the report. -/
def redirect (st : Sh) (h : Host) (rs : List Redirect) : Except Host (Sh × Host) :=
  rs.foldlM (fun (acc : Sh × Host) r =>
    let (st, h) := acc
    let target := ((Script.literalText (st.scope h) r.word).toOption).getD ""
    let toErr := r.fd == some "2"
    let place (s : Sink) : Sh := if toErr then { st with stderr := s } else { st with stdout := s }
    match r.op with
    | .dupOut =>
      if target == "2" then .ok (place st.stderr, h)
      else if target == "1" then .ok (place st.stdout, h)
      else .ok (st, h)
    | .output | .clobber | .append =>
      if target == "/dev/null" then .ok (place .discard, h)
      else
        match h.tree.writeFile st.cwd target "" (r.op == .append) with
        | .ok t =>
          match t.locate st.cwd target with
          | .ok pl => .ok (place (.file pl.path), { h with tree := t })
          | .error _ => .error h
        | .error _ =>
          .error (st.complain h r.pos.line ("cannot create " ++ target ++ ": Directory nonexistent"))
    | .input =>
      match h.tree.readFile st.cwd target with
      | .ok d => .ok ({ st with stdin := .own { data := d } }, h)
      | .error _ =>
        .error (st.complain h r.pos.line ("cannot open " ++ target ++ ": No such file"))
    | _ => .ok (st, h)) (st, h)

/-- Runs the script until its work is done, it ends, or it stops. -/
def exec : Nat → Sh → Host → ShEnd × Host
  | 0, st, h => (.exited st.status, h)
  | n + 1, st, h =>
    match st.work with
    | [] => (.exited st.status, h)
    | w :: rest =>
      let st := { st with work := rest }
      match w with
      | .negate => exec n { st with status := if st.status == 0 then 1 else 0 } h
      | .andThen s => exec n (if st.status == 0 then { st with work := .run s :: rest } else st) h
      | .orElse s => exec n (if st.status != 0 then { st with work := .run s :: rest } else st) h
      | .decide body more =>
        if st.status == 0 then exec n { st with work := body.map .run ++ rest } h
        else
          match branchWork more with
          | some ws => exec n { st with work := ws ++ rest } h
          | none => exec n { st with status := 0 } h
      | .run s =>
        let neg : List Work := if s.negated then [.negate] else []
        match s.cmd with
        | some (.binary .and x y) => exec n { st with work := .run x :: .andThen y :: neg ++ rest } h
        | some (.binary .or x y) => exec n { st with work := .run x :: .orElse y :: neg ++ rest } h
        | some (.binary _ x y) =>
          -- a pipe: the left side runs to its end, and its output is the right side's input
          let saved := h.piped
          let (_, h1) := exec n { st with work := [.run x], stdout := .pipe } { h with piped := "" }
          let data := h1.piped
          let (e, h2) := exec n { st with work := [.run y], stdin := .own { data } } { h1 with piped := saved }
          match e with
          | .exited code => exec n { st with status := code, work := neg ++ rest } h2
          | other => (other, h2)
        | some (.block body) => exec n { st with work := body.map .run ++ neg ++ rest } h
        | some (.cond clauses) =>
          match branchWork clauses with
          | some ws => exec n { st with work := ws ++ neg ++ rest } h
          | none => exec n { st with status := 0, work := neg ++ rest } h
        | some (.call assigns words) =>
          let sc := st.scope h
          match Script.fields sc words with
          | .error e => exec n { st with status := 2 } (st.complain h s.pos.line e)
          | .ok args =>
            if args.isEmpty then
              let vars := assigns.foldl (fun e a =>
                match a.name with
                | some nm => e.set nm (((Script.literalText sc a.value).toOption).getD "")
                | none => e) st.vars
              exec n { st with vars, status := 0, work := neg ++ rest } h
            else
              match redirect st h s.redirs with
              | .error h1 => exec n { st with status := 2, work := neg ++ rest } h1
              | .ok (st1, h1) =>
                let (eff, st2, h2) := simple st1 h1 s.pos.line args
                let ownInput := s.redirs.any (·.op == .input)
                let st2 := { st2 with stdout := st.stdout, stderr := st.stderr,
                                      stdin := if ownInput then st.stdin else st2.stdin }
                match eff with
                | .status code => exec n { st2 with status := code, work := neg ++ rest } h2
                | .exit code => (.exited code, h2)
                | .signal sig =>
                  if signalEffect sig == .stop then
                    (.stopped sig { st2 with work := neg ++ rest }, h2)
                  else (.killed sig, h2)
        | _ => exec n { st with status := 2 } (st.complain h s.pos.line "Syntax error")

/-- The steps a script may take: more than any script given on a command line needs. -/
def shFuel : Nat := 100000

/-- Runs `sh` with its arguments: `-c SCRIPT [NAME [ARGS]]`, a script file, or the
script on standard input. -/
def startSh (st : Sh) (h : Host) (args : List String) : ShEnd × Host :=
  let source : Except (Nat × String) (String × String × List String × Sh × Host) :=
    match args with
    | "-c" :: text :: rest =>
      .ok (text, rest.headD "sh", rest.drop 1, st, h)
    | ["-c"] => .error (2, "sh: 0: -c requires an argument\n")
    | file :: rest =>
      match h.tree.readFile st.cwd file with
      | .ok text => .ok (text, file, rest, st, h)
      | .error _ => .error (127, "sh: 0: cannot open " ++ file ++ ": No such file\n")
    | [] => let (d, st, h) := st.readAll h; .ok (d, "sh", [], st, h)
  match source with
  | .error (code, msg) => (.exited code, h.write st.stderr msg)
  | .ok (text, zero, params, st, h) =>
    let vars := params.zipIdx.foldl (fun e (p, i) => e.set (toString (i + 1)) p) st.vars
    match Script.parse text with
    | .error e =>
      (.exited 2, h.write st.stderr (zero ++ ": " ++ toString e.pos.line ++ ": Syntax error: " ++ e.text ++ "\n"))
    | .ok stmts => exec shFuel { st with zero, vars, work := stmts.map .run } h

end JobShell.Host

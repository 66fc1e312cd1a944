import JobShell.Shell.State
import JobShell.Script.Expand
import JobShell.Text.AliasWords
import JobShell.Command.Pipeline

/-!
# From parsed commands to pipeline stages

A simple command becomes a stage: its prefix assignments become the stage's environment
(each one sees the ones before it), an alias in command position is replaced by the
words of its value, the remaining words are expanded into arguments, and the `<`, `>` and
`>>` redirections of standard input and output become the stage's files.

A declaration (`export`, `local`, …) becomes a call of the builtin of that name with its
operands expanded back into `NAME=value` words.

Anything else the parser accepts but the shell does not run is refused with the position
of the offending node: `LINE:COL: unsupported syntax: WHAT`.
-/
namespace JobShell

open ShellM Script

/-- The refusal of a construct the shell parses but does not run. -/
def unsupported (p : Pos) (what : String) : String :=
  toString p.line ++ ":" ++ toString p.col ++ ": unsupported syntax: " ++ what

/-- What word expansion sees: the shell's variables and special parameters, with the
assignments made so far on the command line in front. -/
def scope (overlay : List (String × String)) : ShellM Scope := do
  let s ← get
  let current := match s.shell.jobs.current? with
    | some (some j) => some j.pid
    | _ => none
  return { vars := s.shell.env, overlay, status := s.shell.lastRet, pid := s.world.pid,
           currentJobPid := current, tree := s.world.tree, cwd := s.world.cwd }

/-- Records one redirection on a stage. Only standard input from a file and standard
output to a file, truncated or appended, are supported. -/
def applyRedirect (sc : Scope) (cmd : Command) (r : Redirect) : Except String Command := do
  let fd := r.fd.getD ""
  let target ← literalText sc r.word
  if target.isEmpty then throw (unsupported r.pos "empty redirection target")
  let plain (std : String) : Bool := fd == "" || fd == std
  match r.op with
  | .input =>
    if plain "0" then return { cmd with input := target }
  | .output =>
    if plain "1" then return { cmd with output := target, append := false }
  | .append =>
    if plain "1" then return { cmd with output := target, append := true }
  | _ => pure ()
  throw (unsupported r.pos (fd ++ r.op.text))

/-- Applies the redirections in order. -/
def applyRedirects (sc : Scope) (cmd : Command) (rs : List Redirect) : Except String Command :=
  rs.foldlM (applyRedirect sc) cmd

/-- Evaluates the prefix assignments of a simple command: the environment entries and the
overlay they build, latest first. -/
def prefixAssigns (sc : Scope) : List Assign → List String → Except String (List String × Scope)
  | [], env => return (env.reverse, sc)
  | a :: rest, env =>
    match a.name with
    | none => prefixAssigns sc rest env
    | some name => do
      if a.array || a.naked then throw (unsupported a.pos "array assignment")
      let value ← literalText sc a.value
      let value := if a.append then sc.get name ++ value else value
      prefixAssigns { sc with overlay := (name, value) :: sc.overlay } rest
        ((name ++ "=" ++ value) :: env)

/-- Expands a simple command into a stage. Arguments and redirections see the shell's
variables, not the prefix assignments. -/
def buildCommand (assigns : List Assign) (words : List Word) (redirs : List Redirect) :
    ShellM (Except String Command) := do
  let base ← scope []
  let aliases := (← shell).aliases
  return do
    let (env, _) ← prefixAssigns base assigns []
    let (head, words) ← match words with
      | w :: rest =>
        match Word.literal? w with
        | some name =>
          match aliases.lookup name with
          | some value =>
            if name.isEmpty then pure ([], words)
            else
              match Text.aliasWords value with
              | .ok tokens => pure (tokens, rest)
              | .error e => throw ("alias " ++ name ++ ": " ++ e)
          | none => pure ([], words)
        | none => pure ([], words)
      | [] => pure ([], words)
    let fields ← Script.fields base words
    applyRedirects base { args := head ++ fields, env } redirs

/-- Turns a declaration back into the words of a call to the builtin of its name. -/
def buildDecl (variant : String) (args : List Assign) (redirs : List Redirect) :
    ShellM (Except String Command) := do
  let sc ← scope []
  return do
    let words ← args.foldlM (fun (acc : List String) (a : Assign) => do
      if a.array then throw (unsupported a.pos "array assignment")
      match a.naked, a.name with
      | true, some name => return acc ++ [name]
      | true, none => return acc ++ (← Script.fields sc [a.value])
      | false, name? =>
        let name := name?.getD ""
        let value ← literalText sc a.value
        let value := if a.append then sc.vars.get name ++ value else value
        return acc ++ [name ++ "=" ++ value]) [variant]
    applyRedirects sc { args := words } redirs

end JobShell

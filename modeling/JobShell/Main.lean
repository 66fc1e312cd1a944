import JobShell.Shell.Eval
import JobShell.Shell.Builtins
import JobShell.Config.Load
import JobShell.Log.Report

/-!
# The command line

`jobshell -c COMMAND` runs one command line; `jobshell` with no argument runs the script
read from standard input. Both run in a session over an empty file tree whose working
directory is `/`, with the built-in settings, and child processes are not started.
`jobshell builtins` lists what the shell runs without searching the path (builtins as
`shell:NAME`, then the tools, sorted), and `jobshell report` reads an event log from
standard input and prints its report.

This layer reads, calls and prints; the status is the shell's exit code.
-/
namespace JobShell.CommandLine

/-- The lines `jobshell builtins` prints. -/
def builtinLines : List String :=
  ((builtinInfos.map fun b => "shell:" ++ b.name) ++ toolNames).mergeSort (fun a b => decide (a ≤ b))

/-- A session over an empty tree with the given environment and standard input. -/
def freshSession (environ : List String) (stdin : String) : Session :=
  Session.start Settings.builtin environ (Fs.Tree.seed [] []) [] stdin (.scripted {}) environ

/-- The exit code of a finished session. -/
def exitCode (s : Session) : UInt32 :=
  let code := if s.shell.quit then s.shell.exitCode else s.shell.lastRet
  (code % 256).toNat.toUInt32

/-- Runs a session step, printing what it wrote. -/
def runSession (step : ShellM Int) (environ : List String) (stdin : String) : IO UInt32 := do
  let s := freshSession environ stdin
  let s := (runStartup.run s).2
  let s := (step.run { s with world := { s.world with out := "", err := "" } }).2
  IO.print s.world.out
  IO.eprint s.world.err
  return exitCode s

end JobShell.CommandLine

open JobShell JobShell.CommandLine in
def main (args : List String) : IO UInt32 := do
  let environ ← ["HOME", "USER", "PATH"].filterMapM fun k => do
    return (← IO.getEnv k).map fun v => k ++ "=" ++ v
  let stdin ← IO.getStdin
  match args with
  | ["builtins"] =>
    for l in builtinLines do IO.println l
    return 0
  | ["report"] =>
    match Log.reportLog (← stdin.readToEnd) with
    | .ok text => IO.print text; return 0
    | .error e => IO.eprintln ("Error: " ++ e); return 1
  | ["-c", line] => runSession (runLine line) environ ""
  | [] =>
    let text ← stdin.readToEnd
    runSession (runScript text "-") environ ""
  | _ =>
    IO.eprintln "usage: jobshell [-c COMMAND] | builtins | report"
    return 2

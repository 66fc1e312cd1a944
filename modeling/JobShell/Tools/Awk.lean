import JobShell.Tools.Run
import JobShell.Awk.Interp

/-!
# The awk tool

`myawk [-F FS] [-v VAR=VALUE]... 'PROGRAM' [FILE...]` runs an awk program over the files,
or over standard input when no file is named. `-F` sets the field separator and each `-v`
assigns a variable before the program runs; the program sees the tool's environment in
`ENVIRON`.

A program that does not parse is a misuse (status 2), as are a missing program and a `-v`
without `=`. A runtime error is reported as `myawk: message` with status 1; otherwise the
status is the one `exit` gave, 0 by default.
-/
namespace JobShell.Tool

variable [Getopt]

/-- Splits `NAME=value` at its first `=`. -/
def cutAssignment (s : String) : Option (String × String) :=
  match s.splitOn "=" with
  | name :: rest@(_ :: _) => some (name, "=".intercalate rest)
  | _ => none

/-- The assignments of `-v`, in order, or the first one without `=`. -/
def assignments : List String → Except String (List (String × String))
  | [] => .ok []
  | a :: rest =>
    match cutAssignment a with
    | some kv => (assignments rest).map (kv :: ·)
    | none => .error a

def awk (args : List String) : ToolM Int :=
  withOptions args [{ short := some 'F', help := "use FS as the input field separator", kind := .value "FS" },
                    { short := some 'v', long := some "assign",
                      help := "assign VAR=VALUE before the program runs", kind := .list "VAR=VALUE" }]
      "'PROGRAM' [FILE...]" fun p => do
    let name := args.headD ""
    match p.operands with
    | [] => usageError name "missing program"
    | src :: files =>
      match Awk.parseProgram src with
      | .error e =>
        warn (name ++ ": " ++ e.message ++ "\n")
        return misuse
      | .ok prog =>
        let fs := p.value "F"
        let fsVars := if fs.isEmpty then [] else [("FS", fs)]
        match assignments (p.list "v") with
        | .error bad => usageError name ("invalid -v argument: " ++ Text.quoted bad)
        | .ok vars =>
          let st ← get
          let setup : Awk.Setup :=
            { argv0 := name, operands := files, vars := fsVars ++ vars,
              environ := st.environ.filterMap cutAssignment, tree := st.tree, cwd := st.cwd,
              stdin := st.input.data, stdinClosed := st.input.closed }
          let r := Awk.runProgram prog setup
          set { st with tree := r.tree, out := st.out ++ r.out,
                        input := { data := r.stdin, closed := r.stdinClosed } }
          match r.status with
          | .ok status => return status
          | .error e =>
            warn (name ++ ": " ++ e ++ "\n")
            return failure

end JobShell.Tool

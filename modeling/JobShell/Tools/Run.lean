import JobShell.Fs.Tree
import JobShell.Options

/-!
# Running a tool

A tool runs against the file tree and a working directory, reads a standard input, and
writes standard output and standard error; it ends with an exit status. The input can be
closed by a tool that is done with it, after which reading it fails.
-/
namespace JobShell

/-- What is left to read of a standard input, and whether it was closed. -/
structure Input where
  data : String := ""
  closed : Bool := false
  deriving Repr, Inhabited

/-- The message for reading a closed input. -/
def closedInputMessage : String := "file already closed"

structure ToolState where
  tree : Fs.Tree
  cwd : List String
  input : Input := {}
  out : String := ""
  err : String := ""
  /-- The process environment as `NAME=value` entries. -/
  environ : List String := []
  deriving Inhabited

abbrev ToolM := StateM ToolState

namespace Tool

def say (s : String) : ToolM Unit := modify fun st => { st with out := st.out ++ s }

def warn (s : String) : ToolM Unit := modify fun st => { st with err := st.err ++ s }

/-- Exit statuses: success, failure, and misuse of the command line. -/
def success : Int := 0
def failure : Int := 1
def misuse : Int := 2

/-- Reports a failure on a path: `name: path: reason`. -/
def fileError (name path reason : String) : ToolM Int := do
  warn (name ++ ": " ++ path ++ ": " ++ reason ++ "\n")
  return failure

/-- Reports a misuse: `name: message`. -/
def usageError (name message : String) : ToolM Int := do
  warn (name ++ ": " ++ message ++ "\n")
  return misuse

/-- Reads everything left on standard input. -/
def readInput : ToolM (Except String String) := do
  let st ← get
  if st.input.closed then return .error closedInputMessage
  set { st with input := { st.input with data := "" } }
  return .ok st.input.data

/-- Gives back what a reader took from standard input and did not use: it is what is left to
read. -/
def unreadInput (rest : String) : ToolM Unit :=
  modify fun st => { st with input := { st.input with data := rest } }

def closeInput : ToolM Unit := modify fun st => { st with input := { st.input with closed := true } }

def tree : ToolM Fs.Tree := return (← get).tree

def cwd : ToolM (List String) := return (← get).cwd

def setTree (t : Fs.Tree) : ToolM Unit := modify fun st => { st with tree := t }

/-- The help option of the tools. -/
def helpSpec : OptionSpec := { helpOption with help := "show this help and exit" }

section Options

variable [Getopt]

/-- Parses a tool's options with `-h`/`--help` added. An option error prints the error and
the usage to standard error and gives status 2; help prints the usage and gives 0. -/
def withOptions (args : List String) (specs : List OptionSpec) (params : String)
    (k : ParsedOptions → ToolM Int) : ToolM Int := do
  let name := args.headD ""
  let set : OptionSet := { program := name, params, specs := specs ++ [helpSpec] }
  match Getopt.read set args.tail with
  | .error e =>
    warn (name ++ ": " ++ e.message ++ "\n")
    warn set.usage
    return misuse
  | .ok p =>
    if p.flag "h" then
      say set.usage
      return success
    else k p

end Options

end Tool

end JobShell

import JobShell.Text.ShellWords

/-!
# Commands and pipelines

A command is one stage of a pipeline: its argument vector (program name first), the files
its standard input and output are redirected to (empty for none), whether output appends,
and the `NAME=value` assignments that apply to it alone. A pipeline is a list of stages
connected output to input, run in the foreground or the background.

The display text of a stage is its assignments, then its arguments, then `< in` and
`> out` or `>> out`, every word written as `Text.shellWord` says; stages are joined with
` | ` and a background pipeline ends in ` &`.
-/
namespace JobShell

structure Command where
  args : List String := []
  input : String := ""
  output : String := ""
  append : Bool := false
  env : List String := []
  deriving DecidableEq, Repr, Inhabited

namespace Command

def name (c : Command) : String := c.args.headD ""

def hasRedirect (c : Command) : Bool := !c.input.isEmpty || !c.output.isEmpty

def display (c : Command) : String :=
  (if c.env.isEmpty then "" else Text.shellWords c.env ++ " ") ++
  Text.shellWords c.args ++
  (if c.input.isEmpty then "" else " < " ++ Text.shellWord c.input) ++
  (if c.output.isEmpty then "" else
    (if c.append then " >> " else " > ") ++ Text.shellWord c.output)

end Command

structure Pipeline where
  stages : List Command := []
  background : Bool := false
  deriving DecidableEq, Repr, Inhabited

inductive PipelineError where
  | noStages
  | emptyStage (index : Nat)
  deriving DecidableEq, Repr

def PipelineError.message : PipelineError → String
  | .noStages => "empty pipeline"
  | .emptyStage i => s!"stage {i}: empty pipeline stage"

namespace Pipeline

def size (p : Pipeline) : Nat := p.stages.length

def hasRedirect (p : Pipeline) : Bool := p.stages.any Command.hasRedirect

/-- A pipeline can run when it has a stage and every stage names a program; the first
stage without a name is reported. -/
def validate (p : Pipeline) : Except PipelineError Unit :=
  if p.stages.isEmpty then .error .noStages
  else match p.stages.findIdx? (·.name.isEmpty) with
    | some i => .error (.emptyStage i)
    | none => .ok ()

def display (p : Pipeline) : String :=
  " | ".intercalate (p.stages.map Command.display) ++ (if p.background then " &" else "")

end Pipeline

end JobShell

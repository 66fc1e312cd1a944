/-!
# Command language: the parsed form

A command line is a list of statements. A statement is a command with its redirections,
possibly negated with `!` or sent to the background with `&`. Commands are simple commands
(assignments and words), declarations (`export`, `local`, …), `&&`/`||`/`|` lists, `if`
clauses and `{ … }` blocks; every other compound form is kept only by its kind, since the
shell refuses to run it.

Words are lists of parts: literal text (with its backslashes still in it), single- and
double-quoted text, parameter expansions, arithmetic expansions, and command or process
substitutions, which are kept only by their position. Positions are line and column, the
column counted in bytes from 1.
-/
namespace JobShell.Script

structure Pos where
  line : Nat
  col : Nat
  deriving DecidableEq, Repr, Inhabited

/-- `line:col`, the form every parse and run error starts with. -/
def Pos.render (p : Pos) : String := toString p.line ++ ":" ++ toString p.col

def isNameChar (c : Char) : Bool := c.isAlphanum || c == '_'

/-- A variable name: a letter or `_`, then letters, digits and `_`. -/
def validName (s : String) : Bool :=
  match s.toList with
  | c :: cs => (c.isAlpha || c == '_') && cs.all isNameChar
  | [] => false

/-- Binary operators of arithmetic. A conditional `c ? a : b` is `ternary c (choice a b)`. -/
inductive ArithOp where
  | add | sub | mul | quo | rem | pow
  | eql | gtr | lss | neq | leq | geq
  | band | bor | bxor | shl | shr | land | lor | comma
  | assign | addAssign | subAssign | mulAssign | quoAssign | remAssign
  | andAssign | orAssign | xorAssign | shlAssign | shrAssign
  | ternary | choice
  deriving DecidableEq, Repr, Inhabited

inductive ArithUnary where
  | not | bitNot | plus | minus | inc | dec
  deriving DecidableEq, Repr, Inhabited

/-- The operators of `${name OP word}`. -/
inductive ParamOp where
  | altUnset | altUnsetOrNull | defaultUnset | defaultUnsetOrNull
  | errorUnset | errorUnsetOrNull | assignUnset | assignUnsetOrNull
  | removeSmallSuffix | removeLargeSuffix | removeSmallPrefix | removeLargePrefix
  | upperFirst | upperAll | lowerFirst | lowerAll | transform
  deriving DecidableEq, Repr, Inhabited

mutual

inductive WordPart where
  | lit (value : String)
  /-- `'…'`, or `$'…'` when `dollar` holds (its escapes still to be decoded). -/
  | single (value : String) (dollar : Bool)
  | double (parts : List WordPart) (dollar : Bool)
  | param (p : Param)
  | command (pos : Pos)
  | arith (e : Arith)
  | process (pos : Pos)
  | extGlob (op : String) (pattern : String)
  deriving Repr, Inhabited

/-- A parameter expansion: the name, whether it is `${#name}`, `${!name}` or
`${!prefix*}`, an index, a slice `:offset:length`, and the operation applied. -/
inductive Param where
  | mk (name : String) (pos : Pos) (length excl names : Bool) (index : Option Arith)
      (sliced : Bool) (offset : Option Arith) (count : Option Arith) (action : ParamAction)
  deriving Repr

inductive ParamAction where
  | none
  | replace (pattern : List WordPart) (replacement : List WordPart) (all : Bool)
  | apply (op : ParamOp) (word : List WordPart)
  deriving Repr, Inhabited

inductive Arith where
  | word (parts : List WordPart)
  | unary (op : ArithUnary) (post : Bool) (x : Arith)
  | binary (op : ArithOp) (x y : Arith)
  | paren (x : Arith)
  deriving Repr, Inhabited

end

abbrev Word := List WordPart

/-- The text of a word made only of literal parts, as a reserved word or a name is. -/
def Word.literal? (w : Word) : Option String :=
  w.foldr (fun p acc => match p, acc with
    | .lit s, some rest => some (s ++ rest)
    | _, _ => none) (some "")

inductive RedirOp where
  | output | append | input | readWrite | dupIn | dupOut | clobber
  | heredoc | heredocTabs | herestring | both | appendBoth
  deriving DecidableEq, Repr, Inhabited

def RedirOp.text : RedirOp → String
  | .output => ">"
  | .append => ">>"
  | .input => "<"
  | .readWrite => "<>"
  | .dupIn => "<&"
  | .dupOut => ">&"
  | .clobber => ">|"
  | .heredoc => "<<"
  | .heredocTabs => "<<-"
  | .herestring => "<<<"
  | .both => "&>"
  | .appendBoth => "&>>"

/-- A redirection: its operator, the descriptor written before it, its target word, and
its position (the descriptor's if there is one). -/
structure Redirect where
  op : RedirOp
  fd : Option String
  word : Word
  pos : Pos
  deriving Repr, Inhabited

/-- An assignment `name=value` or `name+=value`; a declaration's operand without `=` is
`naked`, with either a name or just a word. `array` marks `name[i]=…` and `name=(…)`. -/
structure Assign where
  name : Option String
  pos : Pos
  value : Word := []
  append : Bool := false
  naked : Bool := false
  array : Bool := false
  deriving Repr, Inhabited

inductive BinOp where
  | and | or | pipe | pipeAll
  deriving DecidableEq, Repr, Inhabited

def BinOp.text : BinOp → String
  | .and => "&&"
  | .or => "||"
  | .pipe => "|"
  | .pipeAll => "|&"

mutual

inductive Cmd where
  | call (assigns : List Assign) (args : List Word)
  | decl (variant : String) (args : List Assign)
  | binary (op : BinOp) (x y : Stmt)
  /-- `if`/`elif`/`else` as condition and body pairs; `else` has no condition. -/
  | cond (clauses : List (List Stmt × List Stmt))
  | block (body : List Stmt)
  /-- A compound command the shell does not run, by the name it reports. -/
  | other (kind : String)
  deriving Repr, Inhabited

inductive Stmt where
  | mk (cmd : Option Cmd) (pos : Pos) (negated background : Bool) (redirs : List Redirect)
  deriving Repr, Inhabited

end

namespace Stmt

def cmd : Stmt → Option Cmd
  | .mk c _ _ _ _ => c

def pos : Stmt → Pos
  | .mk _ p _ _ _ => p

def negated : Stmt → Bool
  | .mk _ _ n _ _ => n

def background : Stmt → Bool
  | .mk _ _ _ b _ => b

def redirs : Stmt → List Redirect
  | .mk _ _ _ _ r => r

end Stmt

end JobShell.Script

/-!
# The awk language: syntax

A program is a list of items: `BEGIN` and `END` actions, pattern–action pairs (the
pattern empty, one expression, or a range of two), and function definitions.

Expressions and statements are those of POSIX awk with the common extensions: `**` for
`^`, `nextfile`, `delete` of a whole array, `fflush`, `length` of an array. A regular
expression written as `/re/` stands for a match of the current record when it is used as
a value, and for the expression itself where an operator or a function takes one (`~`,
`!~`, `match`, `split`, `sub`, `gsub`); there it is kept as the text of the expression.
-/
namespace JobShell.Awk

/-- A place in the program text: line and column, both from 1, columns in characters. -/
structure Pos where
  line : Nat := 1
  col : Nat := 1
  deriving Repr, DecidableEq, Inhabited

/-- Binary operators. -/
inductive BinOp where
  | add | sub | mul | div | mod | pow
  | concat
  | lt | le | gt | ge | eq | ne
  | and | or
  deriving Repr, DecidableEq, Inhabited

/-- Unary operators. -/
inductive UnOp where
  | neg | plus | not
  deriving Repr, DecidableEq, Inhabited

/-- The built-in functions. -/
inductive Builtin where
  | atan2 | close | cos | exp | fflush | gsub | index | int | length | log | match | rand
  | sin | split | sprintf | sqrt | srand | sub | substr | system | tolower | toupper
  deriving Repr, DecidableEq, Inhabited

def Builtin.name : Builtin → String
  | .atan2 => "atan2" | .close => "close" | .cos => "cos" | .exp => "exp"
  | .fflush => "fflush" | .gsub => "gsub" | .index => "index" | .int => "int"
  | .length => "length" | .log => "log" | .match => "match" | .rand => "rand"
  | .sin => "sin" | .split => "split" | .sprintf => "sprintf" | .sqrt => "sqrt"
  | .srand => "srand" | .sub => "sub" | .substr => "substr" | .system => "system"
  | .tolower => "tolower" | .toupper => "toupper"

def Builtin.all : List Builtin :=
  [.atan2, .close, .cos, .exp, .fflush, .gsub, .index, .int, .length, .log, .match, .rand,
   .sin, .split, .sprintf, .sqrt, .srand, .sub, .substr, .system, .tolower, .toupper]

/-- Where `getline` reads from. -/
inductive Source where
  /-- the main input -/
  | main
  /-- a file named by the value of an expression -/
  | file
  /-- the output of a command named by the value of an expression -/
  | command
  deriving Repr, DecidableEq, Inhabited

/-- Where `print` and `printf` write. -/
inductive Redirect where
  | stdout
  /-- a file, emptied when first opened -/
  | file
  /-- a file, added to -/
  | append
  /-- the input of a command -/
  | pipe
  deriving Repr, DecidableEq, Inhabited

/-- Expressions. -/
inductive Expr where
  | num (n : Float)
  | str (s : String)
  /-- `/re/` as a value: whether the current record matches -/
  | regex (src : String)
  | var (name : String)
  | index (name : String) (subs : List Expr)
  | field (e : Expr)
  | assign (target value : Expr)
  | augAssign (op : BinOp) (target value : Expr)
  | cond (c t f : Expr)
  | binary (op : BinOp) (l r : Expr)
  | unary (op : UnOp) (e : Expr)
  /-- `++`/`--`, before or after -/
  | incr (target : Expr) (up pre : Bool)
  | inArray (subs : List Expr) (name : String)
  /-- `e ~ re` or `e !~ re` -/
  | matchOp (negated : Bool) (e re : Expr)
  | call (f : Builtin) (args : List Expr)
  | userCall (name : String) (args : List Expr) (pos : Pos)
  /-- `getline`, with the expression naming the file or command, and the target -/
  | getline (src : Source) (from_ : Option Expr) (target : Option Expr)
  | group (e : Expr)
  /-- a parenthesized list, as in `print (a, b)` or `(i, j) in a` -/
  | multi (es : List Expr) (pos : Pos)
  deriving Repr, Inhabited

/-- Statements. -/
inductive Stmt where
  | print (args : List Expr) (redirect : Redirect) (dest : Option Expr)
  | printf (args : List Expr) (redirect : Redirect) (dest : Option Expr)
  | expr (e : Expr)
  | ifElse (c : Expr) (t f : List Stmt)
  | while (c : Expr) (body : List Stmt)
  | doWhile (body : List Stmt) (c : Expr)
  | forLoop (init : Option Stmt) (c : Option Expr) (post : Option Stmt) (body : List Stmt)
  | forIn (var : Expr) (array : String) (body : List Stmt)
  | next
  | nextFile
  | exit (status : Option Expr)
  | ret (value : Option Expr)
  | brk
  | cont
  | delete (array : String) (subs : Option (List Expr))
  | block (body : List Stmt)
  deriving Repr, Inhabited

/-- A pattern–action item. No action means printing the record. -/
structure Action where
  pattern : List Expr
  body : Option (List Stmt)
  deriving Repr, Inhabited

/-- A function definition. -/
structure Function where
  name : String
  params : List String
  body : List Stmt
  deriving Repr, Inhabited

/-- A program. -/
structure Program where
  begins : List (List Stmt) := []
  actions : List Action := []
  ends : List (List Stmt) := []
  functions : List Function := []
  /-- the global names used as arrays -/
  arrays : List String := []
  /-- for each function, its parameters used as arrays -/
  arrayParams : List (String × List String) := []
  /-- the global names used as scalars -/
  scalars : List String := []
  deriving Repr, Inhabited

/-- The special variables. -/
def specialVars : List String :=
  ["CONVFMT", "FILENAME", "FNR", "FS", "NF", "NR", "OFMT", "OFS", "ORS", "RLENGTH", "RS",
   "RSTART", "SUBSEP"]

end JobShell.Awk

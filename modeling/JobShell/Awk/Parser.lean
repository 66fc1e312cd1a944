import JobShell.Awk.Lexer
import JobShell.Awk.Number
import JobShell.Regex.Syntax
import JobShell.Text.Escaped

/-!
# The awk language: the grammar

A recursive-descent parser. The levels of expressions, loosest first:

* `expr | getline [lvalue]`;
* assignment (`= += -= *= /= %= ^=`, to the right, only after an lvalue);
* `?:`;
* `||`, `&&` (a line break may follow either);
* `in`;
* `~`, `!~` (a `/re/` on the right is kept as the text of the expression);
* one comparison (`< <= == != >= >`), not chained;
* concatenation, of operands that start with `$ ! ( ++ --`, a name, a number, a string or
  a built-in function;
* `+ -`, then `* / %`;
* unary `! + -`;
* `^` (to the right, with a unary operand on its right);
* `++`/`--` before or after an lvalue;
* operands: numbers, strings, `/re/`, `$operand`, names and `name[subscripts]`, calls,
  `(expr)` and `(e1, e2) in array`, `getline [lvalue] [< operand]`.

In the arguments of `print` and `printf` the comparison `>` is not read, since `>` there
sends the output to a file; `print (a > b)` compares.

Statements end at a line break, a `;` or a `}`. `break` and `continue` must be in a loop,
`next` and `nextfile` in an action or a function, `return` in a function.

After the whole text is read, the names are checked: every function called is defined
and not given more arguments than it has parameters, every variable is used either as a
scalar or as an array (a parameter takes the kind of its uses in its function, or of the
variables passed to it), and a list in parentheses stands only where `print` or `in`
takes it.

Every error is "parse error at line:column: message".
-/
namespace JobShell.Awk

/-- A parse error and where it was found. -/
structure ParseError where
  pos : Pos
  msg : String
  deriving Repr

def ParseError.message (e : ParseError) : String :=
  "parse error at " ++ toString e.pos.line ++ ":" ++ toString e.pos.col ++ ": " ++ e.msg

/-- How a variable is used. -/
inductive UseKind where
  | scalar
  | array
  /-- passed as argument `index` to a function -/
  | arg (func : String) (index : Nat)
  /-- the argument of `length`, which takes either kind -/
  | either
  deriving Repr, DecidableEq, Inhabited

/-- A use of a variable: its name, the function whose parameter it is (none for a
global), how it is used, and where. -/
structure VarUse where
  name : String
  func : Option String
  kind : UseKind
  pos : Pos
  deriving Repr, Inhabited

/-- The parser's state: the reader after the current token, the current token, its
place and whether blanks came before it, the previous token, where the parser is, and
what it has collected for the checks at the end. -/
structure PState where
  lex : Lexer
  tok : Tok := .eof
  pos : Pos := {}
  space : Bool := false
  prevTok : Tok := .eof
  inAction : Bool := false
  funcName : Option String := none
  locals : List String := []
  loopDepth : Nat := 0
  uses : Array VarUse := #[]
  calls : Array (String × Nat × Pos) := #[]
  funcs : Array (String × List String) := #[]
  multis : Array Pos := #[]

abbrev ParseM := StateT PState (Except ParseError)

namespace Parse

def failAt {α : Type} (pos : Pos) (msg : String) : ParseM α := throw { pos, msg }

def fail {α : Type} (msg : String) : ParseM α := do failAt (← get).pos msg

def tok : ParseM Tok := return (← get).tok

/-- Reads the next token; an unreadable one is an error where it stands. -/
def advance : ParseM Unit := do
  let s ← get
  let (t, p, sp, l) := s.lex.next
  set { s with tok := t, pos := p, space := sp, lex := l, prevTok := s.tok }
  match t with
  | .illegal msg => failAt p msg
  | _ => pure ()

def isSym (s : String) : ParseM Bool := return (← tok) == .sym s

def isKeyword (k : String) : ParseM Bool := return (← tok) == .keyword k

def isOneOf (ts : List Tok) : ParseM Bool := return ts.contains (← tok)

/-- Reads the given token, or fails naming what was found instead. -/
def expect (t : Tok) : ParseM Unit := do
  let cur ← tok
  if cur == t then advance
  else fail ("expected " ++ t.describe ++ " instead of " ++ cur.describe)

/-- Reads a name, or fails. -/
def expectName : ParseM String := do
  match ← tok with
  | .name s => advance; return s
  | cur => fail ("expected name instead of " ++ cur.describe)

def optionalNewlines : ParseM Unit := do
  let s ← get
  let n := s.lex.rest.length + 1
  go n
where
  go : Nat → ParseM Unit
    | 0 => pure ()
    | k + 1 => do if (← tok) == .newline then advance; go k

def commaNewlines : ParseM Unit := do
  expect (.sym ",")
  optionalNewlines

/-- Records a use of a variable: a parameter of the function being read, or a global. -/
def recordUse (name : String) (kind : UseKind) (pos : Pos) : ParseM Unit :=
  modify fun s =>
    let func := if s.locals.contains name then s.funcName else none
    { s with uses := s.uses.push { name, func, kind, pos } }

def varRef (name : String) (pos : Pos) : ParseM Expr := do
  recordUse name .scalar pos
  return .var name

def arrayRef (name : String) (pos : Pos) : ParseM Unit := recordUse name .array pos

/-- Changes the kind of the latest use, which is that of an argument just read. -/
def retagLastUse (kind : UseKind) : ParseM Unit :=
  modify fun s =>
    match s.uses.back? with
    | some u => { s with uses := s.uses.pop.push { u with kind } }
    | none => s

def isLValue : Expr → Bool
  | .var _ | .index _ _ | .field _ => true
  | _ => false

/-- The value of a number token; an exponent with no digits was not taken by the reader. -/
def numberValue (text : String) : Float := numberPrefix text

/-- Reads a regular expression where the current token is `/` or `/=`, and checks it. -/
def nextRegex : ParseM String := do
  let s ← get
  let afterAssign := s.tok == .sym "/="
  match s.lex.regex afterAssign with
  | .error (p, msg) => failAt p msg
  | .ok (re, l) =>
    set { s with lex := l, tok := .regex re }
    match Regex.parse ("(?s)" ++ re) with
    | .error e => failAt s.pos e.message
    | .ok _ => pure ()
    advance
    return re

def assignOp : Tok → Option (Option BinOp)
  | .sym "=" => some none
  | .sym "+=" => some (some .add)
  | .sym "-=" => some (some .sub)
  | .sym "*=" => some (some .mul)
  | .sym "/=" => some (some .div)
  | .sym "%=" => some (some .mod)
  | .sym "^=" => some (some .pow)
  | _ => none

/-- Whether a token starts an operand of a concatenation. -/
def startsConcat : Tok → Bool
  | .sym "$" | .sym "!" | .sym "(" | .sym "++" | .sym "--" => true
  | .name _ | .number _ | .string _ | .builtin _ => true
  | _ => false

def comparisonOp (inPrint : Bool) : Tok → Option BinOp
  | .sym "==" => some .eq
  | .sym "!=" => some .ne
  | .sym "<" => some .lt
  | .sym "<=" => some .le
  | .sym ">=" => some .ge
  | .sym ">" => if inPrint then none else some .gt
  | _ => none

/-- The tokens that end a list of expressions. -/
def listEnd : List Tok :=
  [.newline, .sym ";", .sym "\x7d", .sym "]", .sym ")", .sym ">", .sym "|", .sym ">>"]

def outOfFuel {α : Type} : ParseM α := fail "program nests too deeply"

mutual

/-- `expr | getline [lvalue]`, or an expression. -/
def expr : Nat → ParseM Expr
  | 0 => outOfFuel
  | n + 1 => do
    let e ← assign n false
    if ← isSym "|" then
      advance
      expect (.keyword "getline")
      let target ← optionalLValue n
      return .getline .command (some e) target
    return e

/-- An expression in the arguments of `print`. -/
def printExpr : Nat → ParseM Expr
  | 0 => outOfFuel
  | n + 1 => assign n true

def assign : Nat → Bool → ParseM Expr
  | 0, _ => outOfFuel
  | n + 1, inPrint => do
    let e ← cond n inPrint
    match assignOp (← tok) with
    | some op =>
      if isLValue e then
        advance
        let r ← assign n inPrint
        match op with
        | none => return .assign e r
        | some o => return .augAssign o e r
      else return e
    | none => return e

def cond : Nat → Bool → ParseM Expr
  | 0, _ => outOfFuel
  | n + 1, inPrint => do
    let c ← orExpr n inPrint
    if ← isSym "?" then
      advance
      optionalNewlines
      let t ← expr n
      optionalNewlines
      expect (.sym ":")
      optionalNewlines
      let f ← expr n
      return .cond c t f
    return c

def orExpr : Nat → Bool → ParseM Expr
  | 0, _ => outOfFuel
  | n + 1, inPrint => do
    let l ← andExpr n inPrint
    orRest n inPrint l

def orRest : Nat → Bool → Expr → ParseM Expr
  | 0, _, _ => outOfFuel
  | n + 1, inPrint, l => do
    if ← isSym "||" then
      advance
      optionalNewlines
      let r ← andExpr n inPrint
      orRest n inPrint (.binary .or l r)
    else return l

def andExpr : Nat → Bool → ParseM Expr
  | 0, _ => outOfFuel
  | n + 1, inPrint => do
    let l ← inExpr n inPrint
    andRest n inPrint l

def andRest : Nat → Bool → Expr → ParseM Expr
  | 0, _, _ => outOfFuel
  | n + 1, inPrint, l => do
    if ← isSym "&&" then
      advance
      optionalNewlines
      let r ← inExpr n inPrint
      andRest n inPrint (.binary .and l r)
    else return l

def inExpr : Nat → Bool → ParseM Expr
  | 0, _ => outOfFuel
  | n + 1, inPrint => do
    let l ← matchExpr n inPrint
    inRest n l

def inRest : Nat → Expr → ParseM Expr
  | 0, _ => outOfFuel
  | n + 1, l => do
    if ← isKeyword "in" then
      advance
      let p := (← get).pos
      let name ← expectName
      arrayRef name p
      inRest n (.inArray [l] name)
    else return l

def matchExpr : Nat → Bool → ParseM Expr
  | 0, _ => outOfFuel
  | n + 1, inPrint => do
    let l ← compare n inPrint
    matchRest n inPrint l

def matchRest : Nat → Bool → Expr → ParseM Expr
  | 0, _, _ => outOfFuel
  | n + 1, inPrint, l => do
    let t ← tok
    if t == .sym "~" || t == .sym "!~" then
      advance
      let r ← regexOr n (compare n inPrint)
      matchRest n inPrint (.matchOp (t == .sym "!~") l r)
    else return l

/-- A `/re/` as the text of the expression, or else what `parse` reads. -/
def regexOr : Nat → ParseM Expr → ParseM Expr
  | 0, _ => outOfFuel
  | _ + 1, parse => do
    let t ← tok
    if t == .sym "/" || t == .sym "/=" then
      let re ← nextRegex
      return .str re
    else parse

def compare : Nat → Bool → ParseM Expr
  | 0, _ => outOfFuel
  | n + 1, inPrint => do
    let l ← concat n
    match comparisonOp inPrint (← tok) with
    | some op =>
      advance
      let r ← concat n
      return .binary op l r
    | none => return l

def concat : Nat → ParseM Expr
  | 0 => outOfFuel
  | n + 1 => do
    let l ← additive n
    concatRest n l

def concatRest : Nat → Expr → ParseM Expr
  | 0, _ => outOfFuel
  | n + 1, l => do
    if startsConcat (← tok) then
      let r ← additive n
      concatRest n (.binary .concat l r)
    else return l

def additive : Nat → ParseM Expr
  | 0 => outOfFuel
  | n + 1 => do
    let l ← multiplicative n
    additiveRest n l

def additiveRest : Nat → Expr → ParseM Expr
  | 0, _ => outOfFuel
  | n + 1, l => do
    let t ← tok
    if t == .sym "+" || t == .sym "-" then
      advance
      let r ← multiplicative n
      additiveRest n (.binary (if t == .sym "+" then .add else .sub) l r)
    else return l

def multiplicative : Nat → ParseM Expr
  | 0 => outOfFuel
  | n + 1 => do
    let l ← unary n
    multiplicativeRest n l

def multiplicativeRest : Nat → Expr → ParseM Expr
  | 0, _ => outOfFuel
  | n + 1, l => do
    let t ← tok
    let op := if t == .sym "*" then some BinOp.mul else if t == .sym "/" then some .div
      else if t == .sym "%" then some .mod else none
    match op with
    | some o =>
      advance
      let r ← unary n
      multiplicativeRest n (.binary o l r)
    | none => return l

def unary : Nat → ParseM Expr
  | 0 => outOfFuel
  | n + 1 => do
    let t ← tok
    if t == .sym "!" || t == .sym "+" || t == .sym "-" then
      advance
      let e ← unary n
      return .unary (if t == .sym "!" then .not else if t == .sym "+" then .plus else .neg) e
    else pow n

def pow : Nat → ParseM Expr
  | 0 => outOfFuel
  | n + 1 => do
    let l ← preIncr n
    if ← isSym "^" then
      advance
      let r ← unary n
      return .binary .pow l r
    return l

def preIncr : Nat → ParseM Expr
  | 0 => outOfFuel
  | n + 1 => do
    let t ← tok
    if t == .sym "++" || t == .sym "--" then
      advance
      let p := (← get).pos
      let e ← preIncr n
      if !isLValue e then failAt p "expected lvalue after ++ or --"
      return .incr e (t == .sym "++") true
    else postIncr n

def postIncr : Nat → ParseM Expr
  | 0 => outOfFuel
  | n + 1 => do
    let e ← primary n
    let t ← tok
    if (t == .sym "++" || t == .sym "--") && isLValue e then
      advance
      return .incr e (t == .sym "++") false
    return e

def primary : Nat → ParseM Expr
  | 0 => outOfFuel
  | n + 1 => do
    let s ← get
    match s.tok with
    | .number text => advance; return .num (numberValue text)
    | .string str => advance; return .str str
    | .sym "/" | .sym "/=" => return .regex (← nextRegex)
    | .sym "$" =>
      advance
      let t ← tok
      if t == .sym "++" || t == .sym "--" then
        advance
        let p := (← get).pos
        let e ← primary n
        if !isLValue e then failAt p "expected lvalue after ++ or --"
        return .field (.incr e (t == .sym "++") true)
      return .field (← primary n)
    | .sym "!" | .sym "+" | .sym "-" =>
      advance
      let e ← primary n
      let op := if s.tok == .sym "!" then UnOp.not else if s.tok == .sym "+" then .plus else .neg
      return .unary op e
    | .name name =>
      advance
      if ← isSym "[" then
        advance
        let subs ← exprList n false
        if subs.isEmpty then fail "expected expression instead of ]"
        expect (.sym "]")
        arrayRef name s.pos
        return .index name subs
      else if (← isSym "(") && !(← get).space then
        if (← get).locals.contains name then
          failAt s.pos ("can't call local variable " ++ Text.quoted name ++ " as function")
        userCall n name s.pos
      else varRef name s.pos
    | .sym "(" =>
      advance
      let es ← exprList n false
      match es with
      | [] => fail ("expected expression instead of " ++ (← tok).describe)
      | [e] =>
        expect (.sym ")")
        return .group e
      | _ =>
        expect (.sym ")")
        if ← isKeyword "in" then
          advance
          let p := (← get).pos
          let name ← expectName
          arrayRef name p
          return .inArray es name
        modify fun st => { st with multis := st.multis.push s.pos }
        return .multi es s.pos
    | .keyword "getline" =>
      advance
      let target ← optionalLValue n
      if ← isSym "<" then
        advance
        let f ← primary n
        return .getline .file (some f) target
      return .getline .main none target
    | .builtin b => builtinCall n b
    | t => fail ("expected expression instead of " ++ t.describe)

/-- The target of `getline`, if one follows. -/
def optionalLValue : Nat → ParseM (Option Expr)
  | 0 => outOfFuel
  | n + 1 => do
    let s ← get
    match s.tok with
    | .name _ => if s.lex.peek == some '(' then return none else return some (← primary n)
    | .sym "$" => return some (← primary n)
    | _ => return none

/-- Expressions separated by commas, up to a token that ends a list. -/
def exprList : Nat → Bool → ParseM (List Expr)
  | 0, _ => outOfFuel
  | n + 1, inPrint => do
    if (listEnd.contains (← tok)) then return []
    let e ← if inPrint then printExpr n else expr n
    let rest ← exprListRest n inPrint
    return e :: rest

def exprListRest : Nat → Bool → ParseM (List Expr)
  | 0, _ => outOfFuel
  | n + 1, inPrint => do
    if (listEnd.contains (← tok)) then return []
    commaNewlines
    let e ← if inPrint then printExpr n else expr n
    let rest ← exprListRest n inPrint
    return e :: rest

/-- The arguments of a call of a function of the program. -/
def userCall : Nat → String → Pos → ParseM Expr
  | 0, _, _ => outOfFuel
  | n + 1, name, pos => do
    expect (.sym "(")
    let args ← callArgs n name 0
    expect (.sym ")")
    modify fun s => { s with calls := s.calls.push (name, args.length, pos) }
    return .userCall name args pos

def callArgs : Nat → String → Nat → ParseM (List Expr)
  | 0, _, _ => outOfFuel
  | n + 1, name, i => do
    let t ← tok
    if t == .newline || t == .sym ")" then return []
    if i > 0 then commaNewlines
    let e ← expr n
    match e with
    | .var _ => retagLastUse (.arg name i)
    | _ => pure ()
    let rest ← callArgs n name (i + 1)
    return e :: rest

/-- More arguments after commas. -/
def moreArgs : Nat → ParseM (List Expr)
  | 0 => outOfFuel
  | n + 1 => do
    if ← isSym "," then
      commaNewlines
      let e ← expr n
      return e :: (← moreArgs n)
    return []

/-- A call of a built-in function, whose arguments each function reads its own way. -/
def builtinCall : Nat → Builtin → ParseM Expr
  | 0, _ => outOfFuel
  | n + 1, b => do
    advance
    match b with
    | .sub | .gsub =>
      expect (.sym "(")
      let re ← regexOr n (expr n)
      commaNewlines
      let repl ← expr n
      let mut args := [re, repl]
      if ← isSym "," then
        commaNewlines
        let p := (← get).pos
        let target ← expr n
        if !isLValue target then failAt p "3rd arg to sub/gsub must be lvalue"
        args := args ++ [target]
      expect (.sym ")")
      return .call b args
    | .split =>
      expect (.sym "(")
      let str ← expr n
      commaNewlines
      let p := (← get).pos
      let name ← expectName
      arrayRef name p
      let mut args := [str, .var name]
      if ← isSym "," then
        commaNewlines
        args := args ++ [← regexOr n (expr n)]
      expect (.sym ")")
      return .call b args
    | .match =>
      expect (.sym "(")
      let str ← expr n
      commaNewlines
      let re ← regexOr n (expr n)
      expect (.sym ")")
      return .call b [str, re]
    | .rand =>
      expect (.sym "(")
      expect (.sym ")")
      return .call b []
    | .srand | .fflush =>
      expect (.sym "(")
      let args ← if ← isSym ")" then pure [] else pure [← expr n]
      expect (.sym ")")
      return .call b args
    | .length =>
      if ← isSym "(" then
        advance
        if ← isSym ")" then
          advance
          return .call b []
        let e ← expr n
        match e with
        | .var _ => retagLastUse .either
        | _ => pure ()
        expect (.sym ")")
        return .call b [e]
      return .call b []
    | .substr =>
      expect (.sym "(")
      let str ← expr n
      commaNewlines
      let start ← expr n
      let mut args := [str, start]
      if ← isSym "," then
        commaNewlines
        args := args ++ [← expr n]
      expect (.sym ")")
      return .call b args
    | .sprintf =>
      expect (.sym "(")
      let first ← expr n
      let rest ← moreArgs n
      expect (.sym ")")
      return .call b (first :: rest)
    | .atan2 | .index =>
      expect (.sym "(")
      let a ← expr n
      commaNewlines
      let c ← expr n
      expect (.sym ")")
      return .call b [a, c]
    | _ =>
      expect (.sym "(")
      let a ← expr n
      expect (.sym ")")
      return .call b [a]

/-- A statement that may stand in the head of a `for`. -/
def simpleStmt : Nat → ParseM Stmt
  | 0 => outOfFuel
  | n + 1 => do
    let t ← tok
    if t == .keyword "print" || t == .keyword "printf" then
      advance
      let args ← exprList n true
      let args ← match args with
        | [.multi es _] =>
          modify fun s => { s with multis := s.multis.pop }
          pure es
        | _ => pure args
      let (redirect, dest) ← do
        let r ← tok
        if r == .sym ">" || r == .sym ">>" || r == .sym "|" then
          advance
          let d ← concat n
          pure (if r == .sym ">" then Redirect.file else if r == .sym ">>" then .append else .pipe, some d)
        else pure (Redirect.stdout, none)
      if t == .keyword "print" then return .print args redirect dest
      if args.isEmpty then fail "expected printf args, got none"
      return .printf args redirect dest
    else if t == .keyword "delete" then
      advance
      let p := (← get).pos
      let name ← expectName
      arrayRef name p
      if ← isSym "[" then
        advance
        let subs ← exprList n false
        if subs.isEmpty then fail "expected expression instead of ]"
        expect (.sym "]")
        return .delete name (some subs)
      return .delete name none
    else if [.keyword "if", .keyword "for", .keyword "while", .keyword "do", .keyword "break",
             .keyword "continue", .keyword "next", .keyword "nextfile", .keyword "exit",
             .keyword "return"].contains t then
      fail "expected print/printf, delete, or expression"
    else return .expr (← expr n)

/-- Skips line breaks and semicolons. -/
def skipSeparators : Nat → ParseM Unit
  | 0 => pure ()
  | n + 1 => do
    if (← isOneOf [.newline, .sym ";"]) then
      advance
      skipSeparators n

/-- Any statement, and the separators after it. -/
def stmt : Nat → ParseM Stmt
  | 0 => outOfFuel
  | n + 1 => do
    skipSeparators n
    let s ← match ← tok with
      | .keyword "if" => do
        advance
        expect (.sym "(")
        let c ← expr n
        expect (.sym ")")
        optionalNewlines
        let body ← stmts n
        optionalNewlines
        if ← isKeyword "else" then
          advance
          optionalNewlines
          let other ← stmts n
          pure (Stmt.ifElse c body other)
        else pure (Stmt.ifElse c body [])
      | .keyword "for" => do
        advance
        expect (.sym "(")
        let pre ← if ← isSym ";" then pure none else pure (some (← simpleStmt n))
        match pre with
        | some p =>
          if ← isSym ")" then
            advance
            optionalNewlines
            match p with
            | .expr (.inArray [v@(.var _)] arr) =>
              let body ← loopStmts n
              pure (Stmt.forIn v arr body)
            | _ => fail "expected 'for (var in array) ...'"
          else forRest n pre
        | none => forRest n pre
      | .keyword "while" => do
        advance
        expect (.sym "(")
        let c ← expr n
        expect (.sym ")")
        if ← isSym ";" then
          advance
          pure (Stmt.while c [])
        else
          optionalNewlines
          let body ← loopStmts n
          pure (Stmt.while c body)
      | .keyword "do" => do
        advance
        optionalNewlines
        let body ← loopStmts n
        expect (.keyword "while")
        expect (.sym "(")
        let c ← expr n
        expect (.sym ")")
        pure (Stmt.doWhile body c)
      | .keyword "break" => do
        if (← get).loopDepth == 0 then fail "break must be inside a loop body"
        advance
        pure Stmt.brk
      | .keyword "continue" => do
        if (← get).loopDepth == 0 then fail "continue must be inside a loop body"
        advance
        pure Stmt.cont
      | .keyword "next" => do
        let st ← get
        if !st.inAction && st.funcName.isNone then fail "next can't be inside BEGIN or END"
        advance
        pure Stmt.next
      | .keyword "nextfile" => do
        let st ← get
        if !st.inAction && st.funcName.isNone then fail "nextfile can't be inside BEGIN or END"
        advance
        pure Stmt.nextFile
      | .keyword "exit" => do
        advance
        if ← isOneOf [.newline, .sym ";", .sym "\x7d"] then pure (Stmt.exit none)
        else pure (Stmt.exit (some (← expr n)))
      | .keyword "return" => do
        if (← get).funcName.isNone then fail "return must be inside a function"
        advance
        if ← isOneOf [.newline, .sym ";", .sym "\x7d"] then pure (Stmt.ret none)
        else pure (Stmt.ret (some (← expr n)))
      | .sym "\x7b" => do
        let body ← stmtsBrace n
        pure (Stmt.block body)
      | _ => simpleStmt n
    let st ← get
    if !([Tok.newline, .sym ";", .sym "\x7d"].contains st.tok) &&
        !([Tok.newline, .sym ";", .sym "\x7d"].contains st.prevTok) then
      fail "expected ; or newline between statements"
    skipSeparators n
    return s

/-- The rest of a `for (init; cond; post)` after its first part. -/
def forRest : Nat → Option Stmt → ParseM Stmt
  | 0, _ => outOfFuel
  | n + 1, pre => do
    expect (.sym ";")
    optionalNewlines
    let c ← if ← isSym ";" then pure none else pure (some (← expr n))
    expect (.sym ";")
    optionalNewlines
    let post ← if ← isSym ")" then pure none else pure (some (← simpleStmt n))
    expect (.sym ")")
    optionalNewlines
    let body ← loopStmts n
    return .forLoop pre c post body

/-- A statement or a block, as the body of `if`, `else` or a loop; a lone `;` is an
empty body. -/
def stmts : Nat → ParseM (List Stmt)
  | 0 => outOfFuel
  | n + 1 => do
    match ← tok with
    | .sym ";" => advance; return []
    | .sym "\x7b" => stmtsBrace n
    | _ => return [← stmt n]

def loopStmts : Nat → ParseM (List Stmt)
  | 0 => outOfFuel
  | n + 1 => do
    modify fun s => { s with loopDepth := s.loopDepth + 1 }
    let body ← stmts n
    modify fun s => { s with loopDepth := s.loopDepth - 1 }
    return body

/-- Statements between braces; a `;` after the closing brace is taken too. -/
def stmtsBrace : Nat → ParseM (List Stmt)
  | 0 => outOfFuel
  | n + 1 => do
    expect (.sym "\x7b")
    optionalNewlines
    let body ← braceBody n
    expect (.sym "\x7d")
    if ← isSym ";" then advance
    return body

def braceBody : Nat → ParseM (List Stmt)
  | 0 => outOfFuel
  | n + 1 => do
    let t ← tok
    if t == .sym "\x7d" || t == .eof then return []
    let first ← stmts n
    let rest ← braceBody n
    return first ++ rest

end

/-- A function definition, after its keyword. -/
def function (n : Nat) : ParseM Function := do
  advance
  let s ← get
  let name := match s.tok with
    | .name x => x
    | _ => ""
  if (s.funcs.map (·.1)).contains name && !name.isEmpty then
    fail ("function " ++ Text.quoted name ++ " already defined")
  let _ ← expectName
  expect (.sym "(")
  let params ← paramList n name []
  advance
  optionalNewlines
  modify fun st => { st with funcName := some name, locals := params }
  let body ← stmtsBrace n
  modify fun st => { st with funcName := none, locals := [] }
  return { name, params, body }
where
  paramList : Nat → String → List String → ParseM (List String)
    | 0, _, acc => return acc.reverse
    | k + 1, fname, acc => do
      if ← isSym ")" then return acc.reverse
      if !acc.isEmpty then commaNewlines
      let p := match (← tok) with
        | .name x => x
        | _ => ""
      if p == fname && !p.isEmpty then fail "can't use function name as parameter name"
      if acc.contains p && !p.isEmpty then fail ("duplicate parameter name " ++ Text.quoted p)
      let p ← expectName
      paramList k fname (p :: acc)

/-- The items of a program. -/
def items (n : Nat) : Nat → Program → ParseM Program
  | 0, prog => return prog
  | k + 1, prog => do
    if (← tok) == .eof then return prog
    let prog ← match ← tok with
      | .keyword "BEGIN" => do
        advance
        let body ← stmtsBrace n
        pure { prog with begins := prog.begins ++ [body] }
      | .keyword "END" => do
        advance
        let body ← stmtsBrace n
        pure { prog with ends := prog.ends ++ [body] }
      | .keyword "function" => do
        let f ← function n
        modify fun s => { s with funcs := s.funcs.push (f.name, f.params) }
        pure { prog with functions := prog.functions ++ [f] }
      | _ => do
        modify fun s => { s with inAction := true }
        let mut pattern : List Expr := []
        if !(← isOneOf [.sym "\x7b", .eof]) then
          pattern := [← expr n]
        if !(← isOneOf [.sym "\x7b", .eof, .newline]) then
          commaNewlines
          pattern := pattern ++ [← expr n]
        let body ← if ← isSym "\x7b" then pure (some (← stmtsBrace n)) else pure none
        modify fun s => { s with inAction := false }
        pure { prog with actions := prog.actions ++ [{ pattern, body }] }
    optionalNewlines
    items n k prog

end Parse

/-- A variable: a global by name, or a parameter of a function. -/
abbrev VarKey := Option String × String

/-- What the checks of names know: the kind of each variable and of each parameter. -/
structure Kinds where
  vars : List (VarKey × Bool) := []
  deriving Inhabited

def Kinds.get? (k : Kinds) (v : VarKey) : Option Bool := (k.vars.find? (·.1 == v)).map (·.2)

def Kinds.learn (k : Kinds) (v : VarKey) (isArray : Bool) : Kinds :=
  if (k.get? v).isSome then k else { vars := k.vars ++ [(v, isArray)] }

/-- The kind a use asks for, when it asks for one (`true` for an array). -/
def useKind (funcs : List (String × List String)) (k : Kinds) (u : VarUse) : Option Bool :=
  match u.kind with
  | .scalar => some false
  | .array => some true
  | .either => none
  | .arg f i =>
    match funcs.find? (·.1 == f) with
    | some (_, params) =>
      match params[i]? with
      | some p => k.get? (some f, p)
      | none => none
    | none => none

/-- Learns kinds from uses, in order, until nothing new is learned. -/
def inferKinds (funcs : List (String × List String)) (uses : List VarUse) : Nat → Kinds → Kinds
  | 0, k => k
  | n + 1, k =>
    let k' := uses.foldl (fun k u =>
      let k := match useKind funcs k u with
        | some a => k.learn (u.func, u.name) a
        | none => k
      -- a parameter takes the kind of a variable passed to it
      match u.kind with
      | .arg f i =>
        match funcs.find? (·.1 == f), k.get? (u.func, u.name) with
        | some (_, params), some a =>
          match params[i]? with
          | some p => k.learn (some f, p) a
          | none => k
        | _, _ => k
      | _ => k) k
    if k'.vars.length == k.vars.length then k' else inferKinds funcs uses n k'

/-- The special arrays, and the special variables that are scalars. -/
def builtinKinds : Kinds :=
  { vars := [((none, "ARGV"), true), ((none, "ENVIRON"), true)] ++
      specialVars.map fun v => ((none, v), false) }

/-- Checks names after reading: calls, kinds of variables, lists in parentheses. -/
def checkNames (s : PState) (prog : Program) : Except ParseError Program := do
  let funcs := s.funcs.toList
  for (name, nargs, pos) in s.calls.toList do
    match funcs.find? (·.1 == name) with
    | none => throw { pos, msg := "undefined function " ++ Text.quoted name }
    | some (_, params) =>
      if nargs > params.length then
        throw { pos, msg := Text.quoted name ++ " called with more arguments than declared" }
  let uses := s.uses.toList
  let kinds := inferKinds funcs uses (uses.length + 2) builtinKinds
  for u in uses do
    match useKind funcs kinds u, kinds.get? (u.func, u.name) with
    | some want, some known =>
      if want != known then
        let msg := if known then "can't use array " ++ Text.quoted u.name ++ " as scalar"
          else "can't use scalar " ++ Text.quoted u.name ++ " as array"
        throw { pos := u.pos, msg }
    | _, _ => pure ()
  match s.multis.toList with
  | [] => pure ()
  | p :: ps =>
    let first := ps.foldl (fun a b =>
      if b.line < a.line || (b.line == a.line && b.col < a.col) then b else a) p
    throw { pos := first, msg := "unexpected comma-separated expression" }
  let arrays := kinds.vars.filterMap fun ((f, v), a) => if a && f.isNone then some v else none
  let scalars := kinds.vars.filterMap fun ((f, v), a) => if !a && f.isNone then some v else none
  let arrayParams := funcs.map fun (f, params) =>
    (f, params.filter fun p => kinds.get? (some f, p) == some true)
  return { prog with arrays, scalars, arrayParams }

/-- Reads a program. -/
def parseProgram (text : String) : Except ParseError Program := do
  let fuel := 24 * (text.length + 2)
  let start : PState := { lex := { rest := text.toList } }
  let run : ParseM Program := do
    Parse.advance
    Parse.optionalNewlines
    Parse.items fuel (text.length + 2) {}
  let (prog, s) ← run.run start
  checkNames s prog

end JobShell.Awk

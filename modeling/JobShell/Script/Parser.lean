import JobShell.Script.Reader

/-!
# Command language: the grammar

A recursive-descent parser over the tokens of `Script.Reader`. Statements are read in
lists that end at given reserved words; a statement is an optional `!`, a pipeline of
commands joined by `|`, then `&&`/`||` lists, then an optional `;` or `&`. Words are read
part by part until a blank. Arithmetic follows the usual precedence: `,` below assignment
below `?:` below `||`, `&&`, `|`, `^`, `&`, equality, comparison, shifts, `+ -`,
`* / %`, then `**` (to the right), unary operators and operands.

Every recursive function takes a fuel count that bounds the depth of the descent; the
entry points give a fuel proportional to the input, which no input exhausts, since every
level of the descent reads at least one token.
-/
namespace JobShell.Script

/-- How an error message shows a word: words starting with a lower-case letter in
quotes, operators bare. -/
def readable (s : String) : String :=
  match s.toList with
  | c :: _ => if 'a' ≤ c && c ≤ 'z' then "\"" ++ s ++ "\"" else s
  | [] => s

def quoted (s : String) : String := "\"" ++ s ++ "\""

/-- Parameters named by one character after `$`. -/
def singleRuneParam (c : Char) : Bool := "@*#$?!-0123456789".contains c

def stopToken : Tok → Bool
  | .eof | .newl | .semicolon | .and | .or | .andAnd | .orOr | .orAnd | .dblSemicolon
  | .semiAnd | .dblSemiAnd | .semiOr | .rightParen => true
  | _ => false

def redirOf : Tok → Option RedirOp
  | .rdrOut => some .output | .appOut => some .append | .rdrIn => some .input
  | .rdrInOut => some .readWrite | .dplIn => some .dupIn | .dplOut => some .dupOut
  | .clbOut => some .clobber | .hdoc => some .heredoc | .dashHdoc => some .heredocTabs
  | .wordHdoc => some .herestring | .rdrAll => some .both | .appAll => some .appendBoth
  | _ => none

def isRedirTok (t : Tok) : Bool := (redirOf t).isSome || t == .litRedir

/-- Tokens that start a word part other than plain literal text. -/
def wordStartTok : Tok → Bool
  | .dollBrace | .dollDblParen | .dollParen | .dollar | .cmdIn | .cmdOut | .sglQuote
  | .dollSglQuote | .dblQuote | .dollDblQuote | .dollBrack | .globQuest | .globStar
  | .globPlus | .globAt | .globExcl => true
  | _ => false

def paramOpOf : Tok → Option ParamOp
  | .plus => some .altUnset | .colPlus => some .altUnsetOrNull
  | .minus => some .defaultUnset | .colMinus => some .defaultUnsetOrNull
  | .quest => some .errorUnset | .colQuest => some .errorUnsetOrNull
  | .assgn => some .assignUnset | .colAssgn => some .assignUnsetOrNull
  | .perc => some .removeSmallSuffix | .dblPerc => some .removeLargeSuffix
  | .hash => some .removeSmallPrefix | .dblHash => some .removeLargePrefix
  | .caret => some .upperFirst | .dblCaret => some .upperAll
  | .comma => some .lowerFirst | .dblComma => some .lowerAll
  | .at => some .transform
  | _ => none

def assignOpOf : Tok → Option ArithOp
  | .assgn => some .assign | .addAssgn => some .addAssign | .subAssgn => some .subAssign
  | .mulAssgn => some .mulAssign | .quoAssgn => some .quoAssign | .remAssgn => some .remAssign
  | .andAssgn => some .andAssign | .orAssgn => some .orAssign | .xorAssgn => some .xorAssign
  | .shlAssgn => some .shlAssign | .shrAssgn => some .shrAssign
  | _ => none

/-- The left-associative binary levels of arithmetic, loosest first. -/
def arithLevels : List (List (Tok × ArithOp)) :=
  [[(.orOr, .lor)], [(.andAnd, .land)], [(.or, .bor)], [(.caret, .bxor)], [(.and, .band)],
   [(.equal, .eql), (.nequal, .neq)],
   [(.rdrIn, .lss), (.rdrOut, .gtr), (.lequal, .leq), (.gequal, .geq)],
   [(.hdoc, .shl), (.appOut, .shr)],
   [(.plus, .add), (.minus, .sub)],
   [(.star, .mul), (.slash, .quo), (.perc, .rem)]]

/-- A statement being read. -/
structure Draft where
  cmd : Option Cmd := none
  pos : Pos
  negated : Bool := false
  background : Bool := false
  redirs : Array Redirect := #[]

def Draft.finish (d : Draft) : Stmt := .mk d.cmd d.pos d.negated d.background d.redirs.toList

/-- The text a here-document delimiter word stands for, quotes and backslashes removed. -/
def delimText (w : Word) : String :=
  String.join (w.map fun
    | .lit s => String.ofList (unescape s.toList)
    | .single s _ => s
    | .double ps _ => String.join (ps.map fun | .lit s => s | _ => "")
    | _ => "")
where
  unescape : List Char → List Char
    | '\\' :: c :: rest => c :: unescape rest
    | c :: rest => c :: unescape rest
    | [] => []

def curTok : ParseM Tok := return (← get).tok

def curVal : ParseM String := return (← get).val

def tokPos : ParseM Pos := return (← get).pos

def nextTok (n : Nat) : ParseM Unit := next n

def got (n : Nat) (t : Tok) : ParseM Bool := do
  if (← get).tok == t then
    nextTok n
    return true
  return false

def gotRsrv (n : Nat) (v : String) : ParseM (Option Pos) := do
  let s ← get
  if s.tok == .litWord && s.val == v then
    nextTok n
    return some s.pos
  return none

def followErr {α : Type} (pos : Pos) (left right : String) : ParseM α :=
  fail pos (readable left ++ " must be followed by " ++ right)

def followErrExp {α : Type} (pos : Pos) (left : String) : ParseM α :=
  followErr pos left "an expression"

def matchingErr {α : Type} (lpos : Pos) (left right : String) : ParseM α := do
  fail lpos ("reached " ++ (← get).tok.text ++ " without matching " ++ left ++ " with " ++ right)

def quoteErr {α : Type} (lpos : Pos) (q : String) : ParseM α := do
  fail lpos ("reached " ++ (← get).tok.text ++ " without closing quote " ++ q)

def matched (n : Nat) (lpos : Pos) (left right : Tok) : ParseM Unit := do
  unless ← got n right do matchingErr lpos left.text right.text

def arithMatchingErr {α : Type} (lpos : Pos) (left right : Tok) : ParseM α := do
  let s ← get
  match s.tok with
  | .lit | .litWord => failHere ("not a valid arithmetic operator: " ++ s.val)
  | .leftBrack => failHere "[ must follow a name"
  | .colon => failHere "ternary operator missing ? before :"
  | .rightParen | .eof => matchingErr lpos left.text right.text
  | t =>
    if s.quote == .arithmExpr then failHere ("not a valid arithmetic operator: " ++ t.text)
    else matchingErr lpos left.text right.text

def matchedArith (n : Nat) (lpos : Pos) (left right : Tok) : ParseM Unit := do
  unless ← got n right do arithMatchingErr lpos left right

def preNested (q : Quote) : ParseM (Quote × Nat) := do
  let s ← get
  set { s with quote := q, buriedDocs := s.docs.length }
  return (s.quote, s.buriedDocs)

def postNested (saved : Quote × Nat) : ParseM Unit :=
  modify fun s => { s with quote := saved.1, buriedDocs := saved.2 }

def setQuote (q : Quote) : ParseM Unit := modify fun s => { s with quote := q }

/-- Whether the current word starts an assignment `name=`, `name+=` or `name[`. -/
def hasValidIdent : ParseM Bool := do
  let s ← get
  if s.tok != .lit && s.tok != .litWord then return false
  if s.eqlOffs > 0 then
    let chars := s.val.toList
    let e := s.eqlOffs.toNat
    let e := if chars[e - 1]? == some '+' then e - 1 else e
    if validName (String.ofList (chars.take e)) then return true
  else if !validName s.val then return false
  return s.cur == .ch '['

def backquoteEnd : ParseM Bool := do
  let s ← get
  return s.tok == .bckQuote && s.openBquotes > 0

def outOfFuel {α : Type} : ParseM α := failHere "input nests too deeply"

/-- Whether an arithmetic operand can be assigned to: a name, or a name with an index. -/
def isArithName : Option Arith → Bool
  | some (.word [.lit s]) => validName s
  | some (.word [.param (.mk _ _ false false false (some _) false _ _ .none)]) => true
  | _ => false

/-- Moves to the next token in arithmetic; in compact form a blank ends the expression,
otherwise line feeds are skipped. -/
def nextArith (n : Nat) (compact : Bool) : ParseM Bool := do
  nextTok n
  if compact && (← get).spaced then return true
  if !compact then let _ ← got n .newl
  return false

def nextArithOp (n : Nat) (compact : Bool) : ParseM Unit := do
  let s ← get
  if ← nextArith n compact then followErrExp s.pos s.tok.text

/-- Reads a name after `$`: letters, digits and `_`. -/
def nameCont (n : Nat) : ParseM Unit := do
  let start := (← get).idx
  go n start
where
  go : Nat → Nat → ParseM Unit
    | 0, start => finishLit start .litWord
    | fuel + 1, start => do
      match (← get).cur with
      | .ch c => if isNameChar c then let _ ← advance; go fuel start else finishLit start .litWord
      | .cont => let _ ← advance; go fuel start
      | .eof => finishLit start .litWord

mutual

/-- Statements up to the end, a `)` or backquote that closes a nesting, or one of the
reserved words `stops`. -/
def stmtList (n : Nat) (stops : List String) : ParseM (List Stmt) :=
  match n with
  | 0 => outOfFuel
  | n + 1 => stmtsLoop n stops true []

def stmtsLoop (n : Nat) (stops : List String) (gotEnd : Bool) (acc : List Stmt) :
    ParseM (List Stmt) :=
  match n with
  | 0 => outOfFuel
  | n + 1 => do
    if (← curTok) == .eof then return acc.reverse
    let newLine ← got n .newl
    let s ← get
    match s.tok with
    | .litWord => if stops.contains s.val then return acc.reverse
    | .rightParen => if s.quote == .subCmd then return acc.reverse
    | .bckQuote => if ← backquoteEnd then return acc.reverse
    | .dblSemicolon | .semiAnd | .dblSemiAnd | .semiOr =>
      if s.quote == .switchCase then return acc.reverse
      failHere (s.tok.text ++ " can only be used in a case clause")
    | _ => pure ()
    if !newLine && !gotEnd then failHere "statements must be separated by &, ; or a newline"
    if (← curTok) == .eof then return acc.reverse
    match ← getStmt n true false with
    | none => invalidStmtStart
    | some (st, semi) =>
      let gotEnd := semi || (← curTok) == .newl
      stmtsLoop n stops gotEnd (st :: acc)

def invalidStmtStart {α : Type} : ParseM α := do
  let t ← curTok
  match t with
  | .semicolon | .and | .or | .andAnd | .orOr =>
    failHere (t.text ++ " can only immediately follow a statement")
  | .rightParen => failHere (t.text ++ " can only be used to close a subshell")
  | _ => failHere (t.text ++ " is not a valid start for a statement")

/-- One statement with its `&&`/`||` list; with `readEnd`, also its `;` or `&`. Gives the
statement and whether such an end was read. -/
def getStmt (n : Nat) (readEnd binCmd : Bool) : ParseM (Option (Stmt × Bool)) :=
  match n with
  | 0 => outOfFuel
  | n + 1 => do
    let pos ← tokPos
    let neg ← gotRsrv n "!"
    if neg.isSome then
      if stopToken (← curTok) then fail pos "\"!\" cannot form a statement alone"
      if (← gotRsrv n "!").isSome then fail pos "cannot negate a command multiple times"
    match ← gotStmtPipe n { pos, negated := neg.isSome } false with
    | none => return none
    | some st =>
      match ← andOrLoop n st binCmd with
      | none => return none
      | some st =>
        if !readEnd then return some (st, false)
        match ← curTok with
        | .semicolon => nextTok n; return some (st, true)
        | .and =>
          nextTok n
          let st := match st with
            | .mk c p ng _ r => Stmt.mk c p ng true r
          return some (st, true)
        | .orAnd => nextTok n; return some (st, true)
        | _ => return some (st, false)

def andOrLoop (n : Nat) (st : Stmt) (binCmd : Bool) : ParseM (Option Stmt) :=
  match n with
  | 0 => outOfFuel
  | n + 1 => do
    let s ← get
    if s.tok != .andAnd && s.tok != .orOr then return some st
    if binCmd then return some st
    let op : BinOp := if s.tok == .andAnd then .and else .or
    nextTok n
    let _ ← got n .newl
    match ← getStmt n false true with
    | none => followErr s.pos s.tok.text "a statement"
    | some (y, _) => andOrLoop n (.mk (some (.binary op st y)) st.pos false false []) binCmd

/-- A pipeline: a command with its redirections, then `|` and more commands. -/
def gotStmtPipe (n : Nat) (d : Draft) (binCmd : Bool) : ParseM (Option Stmt) :=
  match n with
  | 0 => outOfFuel
  | n + 1 => do
    let s ← get
    let d? : Option Draft ← match s.tok with
      | .litWord =>
        match s.val with
        | "\x7b" => some <$> block n d
        | "if" => some <$> ifClause n d
        | "while" => some <$> whileClause n d "while"
        | "until" => some <$> whileClause n d "until"
        | "for" => some <$> forClause n d
        | "case" => some <$> caseClause n d
        | "\x7d" => failHere "\"\x7d\" can only be used to close a block"
        | "then" => failHere "\"then\" can only be used in an if"
        | "elif" => failHere "\"elif\" can only be used in an if"
        | "fi" => failHere "\"fi\" can only be used to end an if"
        | "do" => failHere "\"do\" can only be used in a loop"
        | "done" => failHere "\"done\" can only be used to end a loop"
        | "esac" => failHere "\"esac\" can only be used to end a case"
        | "!" => if !d.negated then failHere "\"!\" can only be used in full statements"
                 else pure none
        | "[[" => some <$> testClause n d
        | "]]" => failHere "\"]]\" can only be used to close a test"
        | "let" => some <$> letClause n d
        | "function" => some <$> bashFuncDecl n d
        | "declare" | "local" | "export" | "readonly" | "typeset" | "nameref" =>
          some <$> declClause n d
        | "time" => some <$> timeClause n d
        | "coproc" => some <$> coprocClause n d
        | "select" => some <$> selectClause n d
        | _ => pure none
      | _ => pure none
    let d? ← match d? with
      | some d => pure (some d)
      | none =>
        match s.tok with
        | .litWord =>
          if ← hasValidIdent then some <$> callExpr n d none true
          else
            let name := s.val
            nextTok n
            if ← got n .leftParen then
              unless ← got n .rightParen do followErr s.pos "foo(" ")"
              some <$> funcDecl n d s.pos
            else some <$> callExpr n d (some [.lit name]) false
        | .bckQuote =>
          if ← backquoteEnd then pure none
          else if ← hasValidIdent then some <$> callExpr n d none true
          else
            let w ← wordParts n []
            if ← got n .leftParen then fail s.pos "invalid func name"
            some <$> callExpr n d (some w) false
        | .leftParen => some <$> subshell n d
        | .dblLeftParen => some <$> arithCmd n d
        | t =>
          if isRedirTok t then
            let d ← doRedirect n d
            some <$> callExpr n d none false
          else if t == .lit || wordStartTok t then
            if ← hasValidIdent then some <$> callExpr n d none true
            else
              let w ← wordParts n []
              if ← got n .leftParen then fail s.pos "invalid func name"
              some <$> callExpr n d (some w) false
          else if d.redirs.isEmpty then pure none
          else pure (some d)
    match d? with
    | none => return none
    | some d =>
      let d ← redirLoop n d
      pipeLoop n d.finish binCmd

def redirLoop (n : Nat) (d : Draft) : ParseM Draft :=
  match n with
  | 0 => outOfFuel
  | n + 1 => do
    if isRedirTok (← curTok) then redirLoop n (← doRedirect n d) else return d

def pipeLoop (n : Nat) (st : Stmt) (binCmd : Bool) : ParseM (Option Stmt) :=
  match n with
  | 0 => outOfFuel
  | n + 1 => do
    let s ← get
    if s.tok != .or && s.tok != .orAnd then return some st
    if binCmd then return some st
    let op : BinOp := if s.tok == .or then .pipe else .pipeAll
    nextTok n
    let _ ← got n .newl
    let pos ← tokPos
    match ← gotStmtPipe n { pos } true with
    | none => followErr s.pos s.tok.text "a statement"
    | some y => pipeLoop n (.mk (some (.binary op st y)) st.pos false false []) binCmd

/-- A simple command: assignments, then words, with redirections anywhere. -/
def callExpr (n : Nat) (d : Draft) (first : Option Word) (assign : Bool) : ParseM Draft :=
  match n with
  | 0 => outOfFuel
  | n + 1 => do
    let assigns ← if assign then (fun a => [a]) <$> getAssign n true else pure []
    callLoop n d assigns first.toList

def callLoop (n : Nat) (d : Draft) (assigns : List Assign) (args : List Word) :
    ParseM Draft :=
  match n with
  | 0 => outOfFuel
  | n + 1 => do
    let s ← get
    let finish : ParseM Draft := do
      if assigns.isEmpty && args.isEmpty then return d
      if !args.isEmpty then
        for a in assigns do
          if a.array then fail a.pos "inline variables cannot be arrays"
      return { d with cmd := some (.call assigns args) }
    match s.tok with
    | .eof | .newl | .semicolon | .and | .or | .andAnd | .orOr | .orAnd | .dblSemicolon
    | .semiAnd | .dblSemiAnd | .semiOr => finish
    | .litWord =>
      if args.isEmpty && (← hasValidIdent) then
        let a ← getAssign n true
        callLoop n d (assigns ++ [a]) args
      else
        nextTok n
        callLoop n d assigns (args ++ [[.lit s.val]])
    | .lit =>
      if args.isEmpty && (← hasValidIdent) then
        let a ← getAssign n true
        callLoop n d (assigns ++ [a]) args
      else
        let w ← wordParts n []
        callLoop n d assigns (args ++ [w])
    | .bckQuote =>
      if ← backquoteEnd then finish
      else
        let w ← wordParts n []
        callLoop n d assigns (args ++ [w])
    | .dblLeftParen => failHere "(( can only be used to open an arithmetic cmd"
    | .rightParen =>
      if s.quote == .subCmd then finish
      else failHere "a command can only contain words and redirects; encountered )"
    | t =>
      if wordStartTok t then
        let w ← wordParts n []
        callLoop n d assigns (args ++ [w])
      else if isRedirTok t then
        let d ← doRedirect n d
        callLoop n d assigns args
      else failHere ("a command can only contain words and redirects; encountered " ++ t.text)

def doRedirect (n : Nat) (d : Draft) : ParseM Draft :=
  match n with
  | 0 => outOfFuel
  | n + 1 => do
    let s ← get
    let fd ← if s.tok == .litRedir || s.tok == .lit || s.tok == .litWord then
        nextTok n; pure (some (s.val, s.pos))
      else pure none
    let s ← get
    let op := (redirOf s.tok).getD .output
    nextTok n
    let word ← match op with
      | .heredoc | .heredocTabs => do
        let old := (← get).quote
        setQuote .hdocWord
        let w ← followWord n s.tok s.pos
        setQuote old
        modify fun st => { st with docs := st.docs ++ [⟨delimText w, op == .heredocTabs⟩] }
        if (← curTok) == .newl then readDocs n
        pure w
      | _ => followWord n s.tok s.pos
    let r : Redirect := { op, fd := fd.map (·.1), word, pos := match fd with
      | some (_, p) => p
      | none => s.pos }
    return { d with redirs := d.redirs.push r }

def followWord (n : Nat) (t : Tok) (pos : Pos) : ParseM Word :=
  match n with
  | 0 => outOfFuel
  | n + 1 => do
    match ← getWord n with
    | some w => return w
    | none => followErr pos t.text "a word"

/-- An assignment word; `needEqual` says an indexed name must be followed by `=`. -/
def getAssign (n : Nat) (needEqual : Bool) : ParseM Assign :=
  match n with
  | 0 => outOfFuel
  | n + 1 => do
    let s ← get
    if s.eqlOffs > 0 then
      let chars := s.val.toList
      let e := s.eqlOffs.toNat
      let append := chars[e - 1]? == some '+'
      let nameEnd := if append then e - 1 else e
      let name := String.ofList (chars.take nameEnd)
      let rest := String.ofList (chars.drop (e + 1))
      let value : Word := if rest.isEmpty then [] else [.lit rest]
      nextTok n
      let a : Assign := { name := some name, pos := s.pos, value, append }
      if (← get).spaced then return a
      assignValue n a
    else
      -- name[index]=value
      let name := s.val
      let _ ← advance
      modify fun st => { st with pos := ⟨st.pos.line, st.pos.col + 1⟩ }
      let _ ← eitherIndex n
      let a : Assign := { name := some name, pos := s.pos, array := true }
      let st ← get
      if st.spaced || stopToken st.tok then
        if needEqual then followErr s.pos "a[b]" "=" else return { a with naked := true }
      let (append, v) := if st.val.startsWith "+" then (true, (st.val.drop 1).toString)
        else (false, st.val)
      if !v.startsWith "=" then
        followErr s.pos (if append then "a[b]+" else "a[b]") "="
      let v := (v.drop 1).toString
      modify fun st => { st with val := v }
      if v.isEmpty then nextTok n
      assignValue n { a with append }

def assignValue (n : Nat) (a : Assign) : ParseM Assign :=
  match n with
  | 0 => outOfFuel
  | n + 1 => do
    let s ← get
    if s.spaced || stopToken s.tok then return a
    if a.value.isEmpty && s.tok == .leftParen then
      if a.array then failHere "arrays cannot be nested"
      let saved ← preNested .arrayElems
      nextTok n
      let _ ← got n .newl
      arrayElems n
      postNested saved
      matched n s.pos .leftParen .rightParen
      return { a with array := true }
    match ← getWord n with
    | some w => return { a with value := a.value ++ w }
    | none => return a

def arrayElems (n : Nat) : ParseM Unit :=
  match n with
  | 0 => outOfFuel
  | n + 1 => do
    let t ← curTok
    if t == .eof || t == .rightParen then return
    if t == .leftBrack then
      let lpos ← tokPos
      let _ ← eitherIndex n
      unless ← got n .assgn do followErr lpos "\"[x]\"" "="
    match ← getWord n with
    | some _ => pure ()
    | none =>
      match ← curTok with
      | .leftParen => failHere "arrays cannot be nested"
      | .newl | .rightParen | .leftBrack => pure ()
      | _ => failHere "array element values must be words"
    let _ ← got n .newl
    arrayElems n

/-- A bracketed index `[expr]`; `*` and `@` stand for themselves. -/
def eitherIndex (n : Nat) : ParseM Arith :=
  match n with
  | 0 => outOfFuel
  | n + 1 => do
    let old := (← get).quote
    let lpos ← tokPos
    setQuote .arithmExprBrack
    nextTok n
    let s ← get
    if s.tok == .star || s.tok == .at then
      set { s with tok := .litWord, val := s.tok.text }
    let x ← followArith n .leftBrack lpos
    setQuote old
    matchedArith n lpos .leftBrack .rightBrack
    return x

def getWord (n : Nat) : ParseM (Option Word) :=
  match n with
  | 0 => outOfFuel
  | n + 1 => do
    let w ← wordParts n []
    return if w.isEmpty then none else some w

/-- Word parts up to a blank or a token that is not part of a word. -/
def wordParts (n : Nat) (acc : List WordPart) : ParseM Word :=
  match n with
  | 0 => outOfFuel
  | n + 1 => do
    match ← wordPart n with
    | none => return acc.reverse
    | some p =>
      if (← get).spaced then return (p :: acc).reverse
      wordParts n (p :: acc)

def wordPart (n : Nat) : ParseM (Option WordPart) :=
  match n with
  | 0 => outOfFuel
  | n + 1 => do
    let s ← get
    match s.tok with
    | .lit | .litWord | .litRedir =>
      nextTok n
      return some (.lit s.val)
    | .dollBrace => some <$> paramExp n
    | .dollDblParen | .dollBrack =>
      let bracket := s.tok == .dollBrack
      let saved ← preNested (if bracket then .arithmExprBrack else .arithmExpr)
      nextTok n
      if (← curTok) == .hash then fail s.pos "unsigned expressions are a mksh feature"
      let x ← followArith n s.tok s.pos
      if bracket then
        if (← curTok) != .rightBrack then arithMatchingErr s.pos .dollBrack .rightBrack
        postNested saved
        nextTok n
      else arithEnd n .dollDblParen s.pos saved
      return some (.arith x)
    | .dollParen =>
      if s.quote == .hdocWord then failHere "nested statements not allowed in heredoc words"
      let saved ← preNested .subCmd
      nextTok n
      let _ ← stmtList n []
      postNested saved
      matched n s.pos .leftParen .rightParen
      return some (.command s.pos)
    | .dollar =>
      match s.cur with
      | .ch c =>
        if singleRuneParam c then
          let _ ← advance
          modify fun st => { st with tok := .litWord, val := c.toString }
        else if c.isAlphanum || c == '_' || c == '\\' then nameCont n
        else
          nextTok n
          return some (.lit "$")
      | _ =>
        nextTok n
        return some (.lit "$")
      let name := (← get).val
      nextTok n
      if name.isEmpty then return some (.lit "$")
      return some (.param (.mk name s.pos false false false none false none none .none))
    | .cmdIn | .cmdOut =>
      let saved ← preNested .subCmd
      nextTok n
      let _ ← stmtList n []
      postNested saved
      matched n s.pos s.tok .rightParen
      return some (.process s.pos)
    | .sglQuote | .dollSglQuote =>
      let dollar := s.tok == .dollSglQuote
      let start := s.idx
      singleQuoted n s.pos dollar start
    | .dblQuote | .dollDblQuote =>
      if s.quote == .dblQuotes then return none
      let dollar := s.tok == .dollDblQuote
      setQuote .dblQuotes
      nextTok n
      let parts ← wordParts n []
      setQuote s.quote
      unless ← got n .dblQuote do quoteErr s.pos "\""
      return some (.double parts dollar)
    | .bckQuote =>
      if ← backquoteEnd then return none
      let saved ← preNested .subCmdBckquo
      modify fun st => { st with openBquotes := st.openBquotes + 1 }
      let _ ← advance
      nextTok n
      let _ ← stmtList n []
      postNested saved
      modify fun st => { st with openBquotes := st.openBquotes - 1 }
      let _ ← advance
      unless ← got n .bckQuote do quoteErr s.pos "\x60"
      return some (.command s.pos)
    | .globQuest | .globStar | .globPlus | .globAt | .globExcl =>
      let start := s.idx
      extGlob n s.tok s.pos start 1
    | _ => return none

/-- The body of `'…'` or `$'…'`, from the cell after the quote. -/
def singleQuoted (n : Nat) (lpos : Pos) (dollar : Bool) (start : Nat) :
    ParseM (Option WordPart) :=
  match n with
  | 0 => outOfFuel
  | n + 1 => do
    let s ← get
    match s.cur with
    | .ch '\'' =>
      let value := s.textWith true start
      let _ ← advance
      nextTok n
      return some (.single value dollar)
    | .ch '\\' =>
      if dollar then let _ ← advance
      let _ ← advance
      singleQuoted n lpos dollar start
    | .eof =>
      setTok .eof
      quoteErr lpos "'"
    | _ =>
      let _ ← advance
      singleQuoted n lpos dollar start

/-- The pattern of an extended glob, up to its matching `)`. -/
def extGlob (n : Nat) (t : Tok) (pos : Pos) (start depth : Nat) : ParseM (Option WordPart) :=
  match n with
  | 0 => outOfFuel
  | n + 1 => do
    let s ← get
    match s.cur with
    | .eof =>
      nextTok n
      matchingErr pos t.text ")"
    | .ch '(' => let _ ← advance; extGlob n t pos start (depth + 1)
    | .ch ')' =>
      if depth == 1 then
        let pattern := s.textFrom start
        let _ ← advance
        nextTok n
        return some (.extGlob (t.text.dropEnd 1).toString pattern)
      else
        let _ ← advance
        extGlob n t pos start (depth - 1)
    | _ => let _ ← advance; extGlob n t pos start depth

/-- Ends `$((…))` or `((…))`: the current token must be `)` directly followed by `)`. -/
def arithEnd (n : Nat) (left : Tok) (lpos : Pos) (saved : Quote × Nat) : ParseM Unit :=
  match n with
  | 0 => outOfFuel
  | n + 1 => do
    let s ← get
    unless s.tok == .rightParen && s.cur == .ch ')' do arithMatchingErr lpos left .dblRightParen
    let _ ← advance
    postNested saved
    nextTok n

/-- `${…}`. -/
def paramExp (n : Nat) : ParseM WordPart :=
  match n with
  | 0 => outOfFuel
  | n + 1 => do
    let dollarPos ← tokPos
    let old := (← get).quote
    setQuote .paramExpName
    if (← rune) == .ch '#' then
      modify fun st => { st with tok := .hash, pos := st.curPos }
      let _ ← advance
    else nextTok n
    let mut length := false
    let mut excl := false
    let s ← get
    match s.tok with
    | .hash =>
      match s.cur with
      | .ch c => if paramNameOp c then length := true; nextTok n
      | _ => pure ()
    | .perc => fail dollarPos "\"$\x7b%foo\x7d\" is a mksh feature"
    | .exclMark =>
      match s.cur with
      | .ch c => if paramNameOp c then excl := true; nextTok n
      | _ => pure ()
    | _ => pure ()
    let s ← get
    let op := s.tok
    let mut name := ""
    match s.tok with
    | .lit | .litWord =>
      if !allDigits s.val && !validName s.val then failHere "invalid parameter name"
      name := s.val
      nextTok n
    | .quest | .minus =>
      if length && s.cur != .ch '}' then
        length := false
        name := "#"
      else
        name := s.tok.text
        nextTok n
    | .at | .star | .hash | .exclMark | .dollar =>
      name := s.tok.text
      nextTok n
    | _ => failHere "parameter expansion requires a literal"
    let mk (index : Option Arith) (sliced : Bool) (off cnt : Option Arith) (a : ParamAction)
        (names : Bool) : WordPart :=
      .param (.mk name dollarPos length excl names index sliced off cnt a)
    let s ← get
    let mut index : Option Arith := none
    match s.tok with
    | .lit | .litWord => failHere (op.text ++ " cannot be followed by a word")
    | .rightBrace =>
      setQuote old
      nextTok n
      return mk none false none none .none false
    | .leftBrack =>
      if !validName name then failHere "cannot index a special parameter name"
      index := some (← eitherIndex n)
    | _ => pure ()
    let s ← get
    if s.tok == .rightBrace then
      setQuote old
      nextTok n
      return mk index false none none .none false
    if s.tok != .eof && length then failHere "cannot combine multiple parameter expansion operators"
    let mut action : ParamAction := .none
    let mut names := false
    match s.tok with
    | .slash | .dblSlash =>
      setQuote .paramExpRepl
      nextTok n
      let orig := (← getWord n).getD []
      setQuote .paramExpExp
      let repl ← if ← got n .slash then (fun w => w.getD []) <$> getWord n else pure []
      action := .replace orig repl (s.tok == .dblSlash)
    | .colon =>
      setQuote .paramExpSlice
      nextTok n
      let off ← if (← curTok) != .colon then some <$> followArith n .colon s.pos else pure none
      let colonPos ← tokPos
      let cnt ← if ← got n .colon then some <$> followArith n .colon colonPos else pure none
      setQuote old
      matchedArith n dollarPos .dollBrace .rightBrace
      return mk index true off cnt .none false
    | .caret | .dblCaret | .comma | .dblComma => action ← paramExpArg n
    | .at | .star =>
      if s.tok == .star && !excl then
        failHere ("not a valid parameter expansion operator: " ++ s.tok.text)
      else if excl && s.cur == .ch '}' then
        names := true
        nextTok n
      else action ← paramExpArg n
    | .plus | .colPlus | .minus | .colMinus | .quest | .colQuest | .assgn | .colAssgn
    | .perc | .dblPerc | .hash | .dblHash => action ← paramExpArg n
    | .eof => pure ()
    | t => failHere ("not a valid parameter expansion operator: " ++ t.text)
    setQuote old
    matched n dollarPos .dollBrace .rightBrace
    return mk index false none none action names

/-- The operator and word of `${name OP word}`. -/
def paramExpArg (n : Nat) : ParseM ParamAction :=
  match n with
  | 0 => outOfFuel
  | n + 1 => do
    let op := (paramOpOf (← curTok)).getD .defaultUnset
    setQuote .paramExpExp
    nextTok n
    if op == .transform then
      let s ← get
      if s.tok != .lit && s.tok != .litWord then failHere "@ expansion operator requires a literal"
      match s.val with
      | "a" | "u" | "A" | "E" | "K" | "L" | "P" | "U" | "Q" => pure ()
      | "#" => failHere "this expansion operator is a mksh feature"
      | v => failHere ("invalid @ expansion operator " ++ quoted v)
    let w := (← getWord n).getD []
    return .apply op w

def followArith (n : Nat) (left : Tok) (lpos : Pos) : ParseM Arith :=
  match n with
  | 0 => outOfFuel
  | n + 1 => do
    match ← arithExpr n false with
    | some x => return x
    | none => followErrExp lpos left.text

/-- A whole arithmetic expression: the comma level. -/
def arithExpr (n : Nat) (compact : Bool) : ParseM (Option Arith) :=
  match n with
  | 0 => outOfFuel
  | n + 1 => do
    let x ← arithAssign n compact
    arithCommaLoop n compact x

def arithCommaLoop (n : Nat) (compact : Bool) (x : Option Arith) : ParseM (Option Arith) :=
  match n with
  | 0 => outOfFuel
  | n + 1 => do
    let s ← get
    if s.tok != .comma || (compact && s.spaced) then return x
    let some x := x | failHere (s.tok.text ++ " must follow an expression")
    nextArithOp n compact
    match ← arithAssign n compact with
    | none => followErrExp s.pos s.tok.text
    | some y => arithCommaLoop n compact (some (.binary .comma x y))

def arithAssign (n : Nat) (compact : Bool) : ParseM (Option Arith) :=
  match n with
  | 0 => outOfFuel
  | n + 1 => do
    let x ← arithTernary n compact
    let s ← get
    match assignOpOf s.tok with
    | none => return x
    | some op =>
      if compact && s.spaced then return x
      if !isArithName x then failHere (s.tok.text ++ " must follow a name")
      nextArithOp n compact
      match ← arithAssign n compact, x with
      | none, _ => followErrExp s.pos s.tok.text
      | some y, some x => return some (.binary op x y)
      | some _, none => return x

def arithTernary (n : Nat) (compact : Bool) : ParseM (Option Arith) :=
  match n with
  | 0 => outOfFuel
  | n + 1 => do
    let x ← arithBinary n compact 0
    let s ← get
    if s.tok != .quest || (compact && s.spaced) then return x
    let some x := x | failHere "? must follow an expression"
    nextArithOp n compact
    if (← curTok) == .colon then followErrExp s.pos "?"
    let some t ← arithExpr n compact | followErrExp s.pos "?"
    if (← curTok) != .colon then fail s.pos "ternary operator missing : after ?"
    let colonPos ← tokPos
    nextArithOp n compact
    let some f ← arithTernary n compact | followErrExp colonPos ":"
    return some (.binary .ternary x (.binary .choice t f))

/-- The left-associative levels, from `level` on. -/
def arithBinary (n : Nat) (compact : Bool) (level : Nat) : ParseM (Option Arith) :=
  match n with
  | 0 => outOfFuel
  | n + 1 => do
    match arithLevels[level]? with
    | none => arithPower n compact
    | some ops =>
      let x ← arithBinary n compact (level + 1)
      arithBinaryLoop n compact level ops x

def arithBinaryLoop (n : Nat) (compact : Bool) (level : Nat) (ops : List (Tok × ArithOp))
    (x : Option Arith) : ParseM (Option Arith) :=
  match n with
  | 0 => outOfFuel
  | n + 1 => do
    let s ← get
    match ops.find? (·.1 == s.tok) with
    | none => return x
    | some (_, op) =>
      if compact && s.spaced then return x
      let some x := x | failHere (s.tok.text ++ " must follow an expression")
      nextArithOp n compact
      match ← arithBinary n compact (level + 1) with
      | none => followErrExp s.pos s.tok.text
      | some y => arithBinaryLoop n compact level ops (some (.binary op x y))

def arithPower (n : Nat) (compact : Bool) : ParseM (Option Arith) :=
  match n with
  | 0 => outOfFuel
  | n + 1 => do
    let x ← arithUnary n compact
    let s ← get
    if s.tok != .power || (compact && s.spaced) then return x
    let some x := x | failHere "** must follow an expression"
    nextArithOp n compact
    match ← arithPower n compact with
    | none => followErrExp s.pos "**"
    | some y => return some (.binary .pow x y)

def arithUnary (n : Nat) (compact : Bool) : ParseM (Option Arith) :=
  match n with
  | 0 => outOfFuel
  | n + 1 => do
    if !compact then let _ ← got n .newl
    let s ← get
    let op? : Option ArithUnary := match s.tok with
      | .exclMark => some .not | .tilde => some .bitNot | .plus => some .plus
      | .minus => some .minus | _ => none
    match op? with
    | some op =>
      let _ ← nextArith n compact
      match ← arithUnary n compact with
      | none => followErrExp s.pos s.tok.text
      | some x => return some (.unary op false x)
    | none => arithValue n compact

def arithValue (n : Nat) (compact : Bool) : ParseM (Option Arith) :=
  match n with
  | 0 => outOfFuel
  | n + 1 => do
    let s ← get
    let x? : Option Arith ← match s.tok with
      | .addAdd | .subSub =>
        let op : ArithUnary := if s.tok == .addAdd then .inc else .dec
        let _ ← nextArith n compact
        if (← curTok) != .litWord then followErr s.pos s.tok.text "a literal"
        match ← arithValue n compact with
        | some x => return some (.unary op false x)
        | none => return none
      | .leftParen =>
        nextArithOp n compact
        let x ← followArith n .leftParen s.pos
        matched n s.pos .leftParen .rightParen
        pure (some (.paren x))
      | .leftBrack => failHere "[ must follow a name"
      | .colon => failHere "ternary operator missing ? before :"
      | .litWord =>
        nextTok n
        if (← curTok) != .leftBrack then pure (some (.word [.lit s.val]))
        else
          let idx ← eitherIndex n
          pure (some (.word [.param (.mk s.val s.pos false false false (some idx) false none none
            .none)]))
      | _ =>
        if s.tok == .bckQuote && s.quote == .arithmExprLet && s.openBquotes > 0 then pure none
        else (·.map Arith.word) <$> getWord n
    match x? with
    | none => return none
    | some x =>
      if compact && (← get).spaced then return some x
      if !compact then let _ ← got n .newl
      let t ← curTok
      if t == .addAdd || t == .subSub then
        if !isArithName (some x) then failHere (t.text ++ " must follow a name")
        let _ ← nextArith n compact
        return some (.unary (if t == .addAdd then .inc else .dec) true x)
      return some x

/-- `{ … }`. -/
def block (n : Nat) (d : Draft) : ParseM Draft :=
  match n with
  | 0 => outOfFuel
  | n + 1 => do
    let lpos ← tokPos
    nextTok n
    let body ← stmtList n ["\x7d"]
    if (← gotRsrv n "\x7d").isNone then matchingErr lpos "\x7b" "\x7d"
    return { d with cmd := some (.block body) }

/-- Statements after a reserved word; `;` alone gives none, and otherwise at least one
statement or a line feed must follow. -/
def followStmts (n : Nat) (left : String) (lpos : Pos) (stops : List String) :
    ParseM (List Stmt) :=
  match n with
  | 0 => outOfFuel
  | n + 1 => do
    if ← got n .semicolon then return []
    let newLine ← got n .newl
    let stmts ← stmtList n stops
    if stmts.isEmpty && !newLine then followErr lpos left "a statement list"
    return stmts

def followRsrv (n : Nat) (lpos : Pos) (left v : String) : ParseM Pos :=
  match n with
  | 0 => outOfFuel
  | n + 1 => do
    match ← gotRsrv n v with
    | some p => return p
    | none => followErr lpos left (quoted v)

def stmtEnd (n : Nat) (npos : Pos) (start stop : String) : ParseM Unit :=
  match n with
  | 0 => outOfFuel
  | n + 1 => do
    if (← gotRsrv n stop).isNone then
      fail npos (start ++ " statement must end with " ++ quoted stop)

def ifClause (n : Nat) (d : Draft) : ParseM Draft :=
  match n with
  | 0 => outOfFuel
  | n + 1 => do
    let ifPos ← tokPos
    nextTok n
    let c ← followStmts n "if" ifPos ["then"]
    let thenPos ← followRsrv n ifPos "if <cond>" "then"
    let b ← followStmts n "then" thenPos ["fi", "elif", "else"]
    let clauses ← elifLoop n [(c, b)]
    let elsePos ← tokPos
    let clauses ← if (← gotRsrv n "else").isSome then
        let e ← followStmts n "else" elsePos ["fi"]
        pure (clauses ++ [([], e)])
      else pure clauses
    stmtEnd n ifPos "if" "fi"
    return { d with cmd := some (.cond clauses) }

def elifLoop (n : Nat) (acc : List (List Stmt × List Stmt)) :
    ParseM (List (List Stmt × List Stmt)) :=
  match n with
  | 0 => outOfFuel
  | n + 1 => do
    let s ← get
    if s.tok != .litWord || s.val != "elif" then return acc
    nextTok n
    let c ← followStmts n "elif" s.pos ["then"]
    let thenPos ← followRsrv n s.pos "elif <cond>" "then"
    let b ← followStmts n "then" thenPos ["fi", "elif", "else"]
    elifLoop n (acc ++ [(c, b)])

def whileClause (n : Nat) (d : Draft) (rsrv : String) : ParseM Draft :=
  match n with
  | 0 => outOfFuel
  | n + 1 => do
    let wpos ← tokPos
    nextTok n
    let _ ← followStmts n rsrv wpos ["do"]
    let doPos ← followRsrv n wpos (rsrv ++ " <cond>") "do"
    let _ ← followStmts n "do" doPos ["done"]
    stmtEnd n wpos rsrv "done"
    return { d with cmd := some (.other "*syntax.WhileClause") }

/-- `name [in words]` after `for` or `select`. -/
def wordIter (n : Nat) (ftok : String) (fpos : Pos) : ParseM Unit :=
  match n with
  | 0 => outOfFuel
  | n + 1 => do
    let s ← get
    if s.tok == .lit || s.tok == .litWord || s.tok == .litRedir then nextTok n
    else followErr fpos ftok "a literal"
    if ← got n .semicolon then
      let _ ← got n .newl
      return
    let _ ← got n .newl
    if (← gotRsrv n "in").isSome then
      wordList n
      let _ ← got n .semicolon
      let _ ← got n .newl
    else
      let s ← get
      if !(s.tok == .litWord && s.val == "do") then
        followErr fpos (ftok ++ " foo") "\"in\", \"do\", ;, or a newline"

def wordList (n : Nat) : ParseM Unit :=
  match n with
  | 0 => outOfFuel
  | n + 1 => do
    if stopToken (← curTok) then return
    match ← getWord n with
    | none => failHere "word list can only contain words"
    | some _ => wordList n

def forClause (n : Nat) (d : Draft) : ParseM Draft :=
  match n with
  | 0 => outOfFuel
  | n + 1 => do
    let fpos ← tokPos
    nextTok n
    if (← curTok) == .dblLeftParen then
      let lpos ← tokPos
      let saved ← preNested .arithmExprCmd
      nextTok n
      let _ ← arithExpr n false
      if !(← got n .dblSemicolon) then
        let p ← tokPos
        unless ← got n .semicolon do followErr p "expr" ";"
        let _ ← arithExpr n false
        let p ← tokPos
        unless ← got n .semicolon do followErr p "expr" ";"
      let _ ← arithExpr n false
      arithEnd n .dblLeftParen lpos saved
      let _ ← got n .semicolon
      let _ ← got n .newl
    else wordIter n "for" fpos
    let bracePos ← tokPos
    let (start, stop, doPos) ← if (← gotRsrv n "\x7b").isSome then pure ("\x7b", "\x7d", bracePos)
      else do
        let p ← followRsrv n fpos "for foo [in words]" "do"
        pure ("do", "done", p)
    let _ ← followStmts n start doPos [stop]
    stmtEnd n fpos "for" stop
    return { d with cmd := some (.other "*syntax.ForClause") }

def selectClause (n : Nat) (d : Draft) : ParseM Draft :=
  match n with
  | 0 => outOfFuel
  | n + 1 => do
    let fpos ← tokPos
    nextTok n
    wordIter n "select" fpos
    let doPos ← followRsrv n fpos "select foo [in words]" "do"
    let _ ← followStmts n "do" doPos ["done"]
    stmtEnd n fpos "select" "done"
    return { d with cmd := some (.other "*syntax.ForClause") }

def caseClause (n : Nat) (d : Draft) : ParseM Draft :=
  match n with
  | 0 => outOfFuel
  | n + 1 => do
    let cpos ← tokPos
    nextTok n
    if (← getWord n).isNone then followErr cpos "case" "a word"
    let _ ← got n .newl
    let _ ← followRsrv n cpos "case x" "in"
    caseItems n
    stmtEnd n cpos "case" "esac"
    return { d with cmd := some (.other "*syntax.CaseClause") }

def caseItems (n : Nat) : ParseM Unit :=
  match n with
  | 0 => outOfFuel
  | n + 1 => do
    let _ ← got n .newl
    let s ← get
    if s.tok == .eof || (s.tok == .litWord && s.val == "esac") then return
    let _ ← got n .leftParen
    casePatterns n
    let saved ← preNested .switchCase
    nextTok n
    let _ ← stmtList n ["esac"]
    postNested saved
    match ← curTok with
    | .dblSemicolon | .semiAnd | .dblSemiAnd | .semiOr =>
      nextTok n
      caseItems n
    | _ => return

def casePatterns (n : Nat) : ParseM Unit :=
  match n with
  | 0 => outOfFuel
  | n + 1 => do
    if (← curTok) == .eof then return
    if (← getWord n).isNone then failHere "case patterns must consist of words"
    if (← curTok) == .rightParen then return
    unless ← got n .or do failHere "case patterns must be separated with |"
    casePatterns n

def subshell (n : Nat) (d : Draft) : ParseM Draft :=
  match n with
  | 0 => outOfFuel
  | n + 1 => do
    let lpos ← tokPos
    let saved ← preNested .subCmd
    nextTok n
    let _ ← stmtList n []
    postNested saved
    matched n lpos .leftParen .rightParen
    return { d with cmd := some (.other "*syntax.Subshell") }

def arithCmd (n : Nat) (d : Draft) : ParseM Draft :=
  match n with
  | 0 => outOfFuel
  | n + 1 => do
    let lpos ← tokPos
    let saved ← preNested .arithmExprCmd
    nextTok n
    if (← curTok) == .hash then fail lpos "unsigned expressions are a mksh feature"
    let _ ← followArith n .dblLeftParen lpos
    arithEnd n .dblLeftParen lpos saved
    return { d with cmd := some (.other "*syntax.ArithmCmd") }

def testClause (n : Nat) (d : Draft) : ParseM Draft :=
  match n with
  | 0 => outOfFuel
  | n + 1 => do
    let lpos ← tokPos
    let saved ← preNested .testExpr
    nextTok n
    let s ← get
    if (s.tok == .litWord && s.val == "]]") || s.tok == .eof then
      fail lpos "test clause requires at least one expression"
    testTokens n
    if (← gotRsrv n "]]").isNone then matchingErr lpos "[[" "]]"
    postNested saved
    return { d with cmd := some (.other "*syntax.TestClause") }

def testTokens (n : Nat) : ParseM Unit :=
  match n with
  | 0 => outOfFuel
  | n + 1 => do
    let s ← get
    if s.tok == .eof || (s.tok == .litWord && s.val == "]]") then return
    if s.tok == .lit || s.tok == .litWord || wordStartTok s.tok || s.tok == .bckQuote then
      let _ ← getWord n
    else nextTok n
    testTokens n

def letClause (n : Nat) (d : Draft) : ParseM Draft :=
  match n with
  | 0 => outOfFuel
  | n + 1 => do
    let lpos ← tokPos
    let saved ← preNested .arithmExprLet
    nextTok n
    let count ← letExprs n 0
    if count == 0 then followErrExp lpos "let"
    postNested saved
    return { d with cmd := some (.other "*syntax.LetClause") }

def letExprs (n : Nat) (count : Nat) : ParseM Nat :=
  match n with
  | 0 => outOfFuel
  | n + 1 => do
    let t ← curTok
    if stopToken t || isRedirTok t then return count
    match ← arithExpr n true with
    | none => return count
    | some _ => letExprs n (count + 1)

def funcDecl (n : Nat) (d : Draft) (pos : Pos) : ParseM Draft :=
  match n with
  | 0 => outOfFuel
  | n + 1 => do
    let _ ← got n .newl
    if (← getStmt n false false).isNone then followErr pos "foo()" "a statement"
    return { d with cmd := some (.other "*syntax.FuncDecl") }

def bashFuncDecl (n : Nat) (d : Draft) : ParseM Draft :=
  match n with
  | 0 => outOfFuel
  | n + 1 => do
    let fpos ← tokPos
    nextTok n
    let s ← get
    if s.tok != .litWord then followErr fpos "function" "a name"
    nextTok n
    if ← got n .leftParen then
      unless ← got n .rightParen do followErr s.pos "foo(" ")"
    funcDecl n d fpos

def timeClause (n : Nat) (d : Draft) : ParseM Draft :=
  match n with
  | 0 => outOfFuel
  | n + 1 => do
    nextTok n
    let _ ← gotRsrv n "-p"
    let pos ← tokPos
    let _ ← gotStmtPipe n { pos } false
    return { d with cmd := some (.other "*syntax.TimeClause") }

def coprocClause (n : Nat) (d : Draft) : ParseM Draft :=
  match n with
  | 0 => outOfFuel
  | n + 1 => do
    let cpos ← tokPos
    nextTok n
    let pos ← tokPos
    if (← gotStmtPipe n { pos } false).isNone then followErr cpos "coproc" "a command"
    return { d with cmd := some (.other "*syntax.CoprocClause") }

/-- `export`, `local` and their relatives: names, assignments and other words. -/
def declClause (n : Nat) (d : Draft) : ParseM Draft :=
  match n with
  | 0 => outOfFuel
  | n + 1 => do
    let variant ← curVal
    nextTok n
    let args ← declArgs n variant []
    return { d with cmd := some (.decl variant args) }

def declArgs (n : Nat) (variant : String) (acc : List Assign) : ParseM (List Assign) :=
  match n with
  | 0 => outOfFuel
  | n + 1 => do
    let s ← get
    if stopToken s.tok || isRedirTok s.tok then return acc.reverse
    if ← hasValidIdent then
      let a ← getAssign n false
      declArgs n variant (a :: acc)
    else if s.eqlOffs > 0 then
      failHere "invalid var name"
    else if s.tok == .litWord && validName s.val then
      nextTok n
      declArgs n variant ({ name := some s.val, pos := s.pos, naked := true } :: acc)
    else
      match ← getWord n with
      | some w => declArgs n variant ({ name := none, pos := s.pos, value := w, naked := true } :: acc)
      | none => followErr s.pos variant "names or assignments"

end

/-- The fuel for a text: more than any descent into it can use. -/
def fuelFor (cells : Array Cell) : Nat := 16 * (cells.size + 8)

/-- Parses a whole text into its statements. -/
def parse (src : String) : Except ParseError (List Stmt) :=
  let cells := cellsOf src
  let n := fuelFor cells
  (do next n; stmtList n []).run' { cells }

/-- Statements read line by line: each group holds the statements completed on one line
(a statement that spans lines counts for the line it ends on). Reading stops at the
first error, which comes back with the groups read before the line it is on. -/
def parseLines (src : String) : List (List Stmt) × Option ParseError :=
  let cells := cellsOf src
  let n := fuelFor cells
  match (next n).run { cells } with
  | .error e => ([], some e)
  | .ok ((), r) => go n r true [] [] n
where
  go (n : Nat) (r : Reader) (gotEnd : Bool) (cur : List Stmt) (groups : List (List Stmt)) :
      Nat → List (List Stmt) × Option ParseError
    | 0 => (groups.reverse, none)
    | fuel + 1 =>
      let flush (g : List (List Stmt)) : List (List Stmt) :=
        if cur.isEmpty then g else cur.reverse :: g
      let step : ParseM (Option (Option (Stmt × Bool))) := do
        if (← curTok) == .eof then return none
        let newLine ← got n .newl
        let s ← get
        match s.tok with
        | .rightParen | .bckQuote | .litWord => pure ()
        | .dblSemicolon | .semiAnd | .dblSemiAnd | .semiOr =>
          failHere (s.tok.text ++ " can only be used in a case clause")
        | _ => pure ()
        if !newLine && !gotEnd then failHere "statements must be separated by &, ; or a newline"
        if (← curTok) == .eof then return none
        match ← getStmt n true false with
        | none => invalidStmtStart
        | some st => return some (some st)
      match step.run r with
      | .error e => (groups.reverse, some e)
      | .ok (none, _) => ((flush groups).reverse, none)
      | .ok (some none, _) => ((flush groups).reverse, none)
      | .ok (some (some (st, semi)), r') =>
        let lineEnds := r'.tok == .newl || r'.tok == .eof
        let gotEnd := semi || r'.tok == .newl
        if lineEnds then go n r' gotEnd [] ((st :: cur).reverse :: groups) fuel
        else go n r' gotEnd (st :: cur) groups fuel

end JobShell.Script

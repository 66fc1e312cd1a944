import JobShell.Script.Ast

/-!
# Command language: reading tokens

The input is first cut into cells: one per character, except that a backslash directly
before a line feed (and not itself escaped by a backslash before it) makes one cell with
the line feed, a line continuation. Each cell knows its line and byte column; NUL bytes
are skipped.

Tokens are read from the cells in a state that says what is being read (plain words,
double quotes, a parameter expansion, arithmetic, …), since the same character means
different things in each. A parse error carries the position it is reported at and its
text; the first error ends the parse.
-/
namespace JobShell.Script

inductive Rune where
  | ch (c : Char)
  /-- A backslash and a line feed, which join two lines. -/
  | cont
  | eof
  deriving DecidableEq, Repr, Inhabited

structure Cell where
  rune : Rune
  line : Nat
  col : Nat
  deriving Repr, Inhabited

/-- Cuts a text into cells, from line 1, column 1. -/
def cellsOf (s : String) : Array Cell :=
  go s.toList 1 1 false #[]
where
  go : List Char → Nat → Nat → Bool → Array Cell → Array Cell
    | [], _, _, _, acc => acc
    | '\x00' :: rest, line, col, prevSlash, acc => go rest line (col + 1) prevSlash acc
    | '\\' :: '\n' :: rest, line, col, false, acc =>
      go rest (line + 1) 1 false (acc.push ⟨.cont, line, col⟩)
    | '\\' :: '\r' :: '\n' :: rest, line, col, false, acc =>
      go rest (line + 1) 1 false (acc.push ⟨.cont, line, col⟩)
    | c :: rest, line, col, _, acc =>
      let acc := acc.push ⟨.ch c, line, col⟩
      if c == '\n' then go rest (line + 1) 1 false acc
      else go rest line (col + c.utf8Size) (c == '\\') acc

/-- Where the text ends: just after its last cell. -/
def endPos (cells : Array Cell) : Pos :=
  match cells.back? with
  | none => ⟨1, 1⟩
  | some c =>
    match c.rune with
    | .ch '\n' => ⟨c.line + 1, 1⟩
    | .cont => ⟨c.line + 1, 1⟩
    | .ch ch => ⟨c.line, c.col + ch.utf8Size⟩
    | .eof => ⟨c.line, c.col⟩

inductive Tok where
  | illegal | eof | newl | lit | litWord | litRedir
  | sglQuote | dblQuote | bckQuote
  | and | andAnd | orOr | or | orAnd
  | dollar | dollSglQuote | dollDblQuote | dollBrace | dollBrack | dollParen | dollDblParen
  | leftBrack | leftParen | dblLeftParen
  | rightBrace | rightBrack | rightParen | dblRightParen
  | semicolon | dblSemicolon | semiAnd | dblSemiAnd | semiOr
  | exclMark | tilde | addAdd | subSub | star | power | equal | nequal | lequal | gequal
  | addAssgn | subAssgn | mulAssgn | quoAssgn | remAssgn | andAssgn | orAssgn | xorAssgn
  | shlAssgn | shrAssgn
  | rdrOut | appOut | rdrIn | rdrInOut | dplIn | dplOut | clbOut | hdoc | dashHdoc | wordHdoc
  | rdrAll | appAll | cmdIn | cmdOut
  | plus | colPlus | minus | colMinus | quest | colQuest | assgn | colAssgn
  | perc | dblPerc | hash | dblHash | caret | dblCaret | comma | dblComma | at | slash
  | dblSlash | colon
  | globQuest | globStar | globPlus | globAt | globExcl
  deriving DecidableEq, Repr, Inhabited

/-- How a token is named in error messages. -/
def Tok.text : Tok → String
  | .illegal => "illegal" | .eof => "EOF" | .newl => "newline"
  | .lit => "Lit" | .litWord => "LitWord" | .litRedir => "LitRedir"
  | .sglQuote => "'" | .dblQuote => "\"" | .bckQuote => "\x60"
  | .and => "&" | .andAnd => "&&" | .orOr => "||" | .or => "|" | .orAnd => "|&"
  | .dollar => "$" | .dollSglQuote => "$'" | .dollDblQuote => "$\"" | .dollBrace => "$\x7b"
  | .dollBrack => "$[" | .dollParen => "$(" | .dollDblParen => "$(("
  | .leftBrack => "[" | .leftParen => "(" | .dblLeftParen => "(("
  | .rightBrace => "\x7d" | .rightBrack => "]" | .rightParen => ")" | .dblRightParen => "))"
  | .semicolon => ";" | .dblSemicolon => ";;" | .semiAnd => ";&" | .dblSemiAnd => ";;&"
  | .semiOr => ";|"
  | .exclMark => "!" | .tilde => "~" | .addAdd => "++" | .subSub => "--" | .star => "*"
  | .power => "**" | .equal => "==" | .nequal => "!=" | .lequal => "<=" | .gequal => ">="
  | .addAssgn => "+=" | .subAssgn => "-=" | .mulAssgn => "*=" | .quoAssgn => "/="
  | .remAssgn => "%=" | .andAssgn => "&=" | .orAssgn => "|=" | .xorAssgn => "^="
  | .shlAssgn => "<<=" | .shrAssgn => ">>="
  | .rdrOut => ">" | .appOut => ">>" | .rdrIn => "<" | .rdrInOut => "<>" | .dplIn => "<&"
  | .dplOut => ">&" | .clbOut => ">|" | .hdoc => "<<" | .dashHdoc => "<<-" | .wordHdoc => "<<<"
  | .rdrAll => "&>" | .appAll => "&>>" | .cmdIn => "<(" | .cmdOut => ">("
  | .plus => "+" | .colPlus => ":+" | .minus => "-" | .colMinus => ":-" | .quest => "?"
  | .colQuest => ":?" | .assgn => "=" | .colAssgn => ":=" | .perc => "%" | .dblPerc => "%%"
  | .hash => "#" | .dblHash => "##" | .caret => "^" | .dblCaret => "^^" | .comma => ","
  | .dblComma => ",," | .at => "@" | .slash => "/" | .dblSlash => "//" | .colon => ":"
  | .globQuest => "?(" | .globStar => "*(" | .globPlus => "+(" | .globAt => "@("
  | .globExcl => "!("

/-- What the reader is inside of. -/
inductive Quote where
  | plain | subCmd | subCmdBckquo | dblQuotes | hdocWord | hdocBody | hdocBodyTabs
  | arithmExpr | arithmExprLet | arithmExprCmd | arithmExprBrack | testExpr | testExprRegexp
  | switchCase | paramExpName | paramExpSlice | paramExpRepl | paramExpExp | arrayElems
  deriving DecidableEq, Repr, Inhabited

namespace Quote

/-- States where blanks are part of the text. -/
def keepSpaces : Quote → Bool
  | .paramExpRepl | .dblQuotes | .hdocBody | .hdocBodyTabs | .paramExpExp => true
  | _ => false

/-- States where the ordinary command tokens are read. -/
def regTokens : Quote → Bool
  | .plain | .subCmd | .subCmdBckquo | .hdocWord | .switchCase | .arrayElems | .testExpr => true
  | _ => false

def arithm : Quote → Bool
  | .arithmExpr | .arithmExprLet | .arithmExprCmd | .arithmExprBrack | .paramExpSlice => true
  | _ => false

def paramReg : Quote → Bool
  | .paramExpName | .paramExpSlice => true
  | _ => false

def paramExp : Quote → Bool
  | .paramExpName | .paramExpSlice | .paramExpRepl | .paramExpExp | .arithmExprBrack => true
  | _ => false

end Quote

/-- Characters that start a command token. -/
def regOps (c : Char) : Bool := ";\"'()$|&><\x60".contains c

/-- Characters that are operators inside `${…}`. -/
def paramOps (c : Char) : Bool := "\x7d#!:-+=?%[]/^,@*".contains c

/-- Characters after `#` or `!` at the start of `${…}` that make it a length or an
indirection rather than a parameter named `#` or `!`. -/
def paramNameOp (c : Char) : Bool := !"\x7d:+=%[]/^,".contains c

def arithmOps (c : Char) : Bool := "+-!~*/%()^<>:=,?|&[]#".contains c

structure ParseError where
  pos : Pos
  text : String
  deriving Repr, Inhabited

def ParseError.message (e : ParseError) : String := e.pos.render ++ ": " ++ e.text

/-- A here-document waiting for its body: the delimiter and whether leading tabs go. -/
structure PendingDoc where
  delim : String
  tabs : Bool
  deriving Repr, Inhabited

structure Reader where
  cells : Array Cell
  idx : Nat := 0
  tok : Tok := .illegal
  val : String := ""
  pos : Pos := ⟨1, 1⟩
  spaced : Bool := false
  quote : Quote := .plain
  /-- Offset of the first `=` in the last plain word, or -1. -/
  eqlOffs : Int := -1
  docs : List PendingDoc := []
  buriedDocs : Nat := 0
  openBquotes : Nat := 0
  deriving Inhabited

abbrev ParseM := StateT Reader (Except ParseError)

namespace Reader

def cur (s : Reader) : Rune := match s.cells[s.idx]? with
  | some c => c.rune
  | none => .eof

def curPos (s : Reader) : Pos := match s.cells[s.idx]? with
  | some c => ⟨c.line, c.col⟩
  | none => endPos s.cells

/-- The text of the cells from `start` up to the current one; line continuations are
kept as backslash and line feed when `keepCont` holds, and drop out otherwise. -/
def textWith (s : Reader) (keepCont : Bool) (start : Nat) : String :=
  String.ofList ((s.cells.extract start s.idx).toList.flatMap fun c =>
    match c.rune with
    | .ch ch => [ch]
    | .cont => if keepCont then ['\\', '\n'] else []
    | .eof => [])

/-- The text of the cells from `start` up to the current one, line continuations left out. -/
def textFrom (s : Reader) (start : Nat) : String := s.textWith false start

end Reader

def fail {α : Type} (pos : Pos) (text : String) : ParseM α := throw ⟨pos, text⟩

def failHere {α : Type} (text : String) : ParseM α := do fail (← get).pos text

def rune : ParseM Rune := return (← get).cur

/-- Moves to the next cell and returns it. -/
def advance : ParseM Rune := do
  modify fun s => { s with idx := s.idx + 1 }
  rune

def curPos : ParseM Pos := return (← get).curPos

/-- The raw character after the current cell. -/
def peekChar : ParseM (Option Char) := do
  let s ← get
  return match s.cells[s.idx + 1]? with
    | some ⟨.ch c, _, _⟩ => some c
    | some ⟨.cont, _, _⟩ => some '\\'
    | _ => none

def peekTwo : ParseM (Option Char × Option Char) := do
  let s ← get
  let at? (i : Nat) : Option Char := match s.cells[i]? with
    | some ⟨.ch c, _, _⟩ => some c
    | some ⟨.cont, _, _⟩ => some '\\'
    | _ => none
  return (at? (s.idx + 1), at? (s.idx + 2))

def setTok (t : Tok) : ParseM Unit := modify fun s => { s with tok := t }

def isCh (r : Rune) (c : Char) : Bool := r == .ch c

/-- Reads the rest of a command operator that starts with `c`. -/
def regToken (c : Char) : ParseM Tok := do
  match c with
  | '\'' => let _ ← advance; return .sglQuote
  | '"' => let _ ← advance; return .dblQuote
  | '`' => return .bckQuote
  | '&' =>
    match ← advance with
    | .ch '&' => let _ ← advance; return .andAnd
    | .ch '>' =>
      if isCh (← advance) '>' then let _ ← advance; return .appAll
      return .rdrAll
    | _ => return .and
  | '|' =>
    match ← advance with
    | .ch '|' => let _ ← advance; return .orOr
    | .ch '&' => let _ ← advance; return .orAnd
    | _ => return .or
  | '$' =>
    match ← advance with
    | .ch '\'' => let _ ← advance; return .dollSglQuote
    | .ch '"' => let _ ← advance; return .dollDblQuote
    | .ch '{' => let _ ← advance; return .dollBrace
    | .ch '[' =>
      if (← get).quote == .paramExpName then return .dollar
      let _ ← advance; return .dollBrack
    | .ch '(' =>
      if isCh (← advance) '(' then let _ ← advance; return .dollDblParen
      return .dollParen
    | _ => return .dollar
  | '(' =>
    if isCh (← advance) '(' && (← get).quote != .testExpr then
      let _ ← advance; return .dblLeftParen
    return .leftParen
  | ')' => let _ ← advance; return .rightParen
  | ';' =>
    match ← advance with
    | .ch ';' =>
      if isCh (← advance) '&' then let _ ← advance; return .dblSemiAnd
      return .dblSemicolon
    | .ch '&' => let _ ← advance; return .semiAnd
    | _ => return .semicolon
  | '<' =>
    match ← advance with
    | .ch '<' =>
      match ← advance with
      | .ch '-' => let _ ← advance; return .dashHdoc
      | .ch '<' => let _ ← advance; return .wordHdoc
      | _ => return .hdoc
    | .ch '>' => let _ ← advance; return .rdrInOut
    | .ch '&' => let _ ← advance; return .dplIn
    | .ch '(' => let _ ← advance; return .cmdIn
    | _ => return .rdrIn
  | _ =>
    match ← advance with
    | .ch '>' => let _ ← advance; return .appOut
    | .ch '&' => let _ ← advance; return .dplOut
    | .ch '|' => let _ ← advance; return .clbOut
    | .ch '(' => let _ ← advance; return .cmdOut
    | _ => return .rdrOut

/-- Reads an operator inside `${…}`. -/
def paramToken (c : Char) : ParseM Tok := do
  match c with
  | '}' => let _ ← advance; return .rightBrace
  | ':' =>
    match ← advance with
    | .ch '+' => let _ ← advance; return .colPlus
    | .ch '-' => let _ ← advance; return .colMinus
    | .ch '?' => let _ ← advance; return .colQuest
    | .ch '=' => let _ ← advance; return .colAssgn
    | _ => return .colon
  | '+' => let _ ← advance; return .plus
  | '-' => let _ ← advance; return .minus
  | '?' => let _ ← advance; return .quest
  | '=' => let _ ← advance; return .assgn
  | '%' => if isCh (← advance) '%' then let _ ← advance; return .dblPerc else return .perc
  | '#' => if isCh (← advance) '#' then let _ ← advance; return .dblHash else return .hash
  | '!' => let _ ← advance; return .exclMark
  | '[' => let _ ← advance; return .leftBrack
  | ']' => let _ ← advance; return .rightBrack
  | '/' =>
    if isCh (← advance) '/' && (← get).quote != .paramExpRepl then
      let _ ← advance; return .dblSlash
    return .slash
  | '^' => if isCh (← advance) '^' then let _ ← advance; return .dblCaret else return .caret
  | ',' => if isCh (← advance) ',' then let _ ← advance; return .dblComma else return .comma
  | '@' => let _ ← advance; return .at
  | _ => let _ ← advance; return .star

/-- Reads an arithmetic operator. -/
def arithmToken (c : Char) : ParseM Tok := do
  match c with
  | '!' => if isCh (← advance) '=' then let _ ← advance; return .nequal else return .exclMark
  | '=' => if isCh (← advance) '=' then let _ ← advance; return .equal else return .assgn
  | '~' => let _ ← advance; return .tilde
  | '(' => let _ ← advance; return .leftParen
  | ')' => let _ ← advance; return .rightParen
  | '&' =>
    match ← advance with
    | .ch '&' => let _ ← advance; return .andAnd
    | .ch '=' => let _ ← advance; return .andAssgn
    | _ => return .and
  | '|' =>
    match ← advance with
    | .ch '|' => let _ ← advance; return .orOr
    | .ch '=' => let _ ← advance; return .orAssgn
    | _ => return .or
  | '<' =>
    match ← advance with
    | .ch '<' => if isCh (← advance) '=' then let _ ← advance; return .shlAssgn else return .hdoc
    | .ch '=' => let _ ← advance; return .lequal
    | _ => return .rdrIn
  | '>' =>
    match ← advance with
    | .ch '>' => if isCh (← advance) '=' then let _ ← advance; return .shrAssgn else return .appOut
    | .ch '=' => let _ ← advance; return .gequal
    | _ => return .rdrOut
  | '+' =>
    match ← advance with
    | .ch '+' => let _ ← advance; return .addAdd
    | .ch '=' => let _ ← advance; return .addAssgn
    | _ => return .plus
  | '-' =>
    match ← advance with
    | .ch '-' => let _ ← advance; return .subSub
    | .ch '=' => let _ ← advance; return .subAssgn
    | _ => return .minus
  | '%' => if isCh (← advance) '=' then let _ ← advance; return .remAssgn else return .perc
  | '*' =>
    match ← advance with
    | .ch '*' => let _ ← advance; return .power
    | .ch '=' => let _ ← advance; return .mulAssgn
    | _ => return .star
  | '/' => if isCh (← advance) '=' then let _ ← advance; return .quoAssgn else return .slash
  | '^' => if isCh (← advance) '=' then let _ ← advance; return .xorAssgn else return .caret
  | '[' => let _ ← advance; return .leftBrack
  | ']' => let _ ← advance; return .rightBrack
  | ',' => let _ ← advance; return .comma
  | '?' => let _ ← advance; return .quest
  | ':' => let _ ← advance; return .colon
  | _ => let _ ← advance; return .hash

/-- Reads a token that starts with `"`, a backquote or `$` inside double quotes. -/
def dqToken (c : Char) : ParseM Tok := do
  match c with
  | '"' => let _ ← advance; return .dblQuote
  | '`' => return .bckQuote
  | _ =>
    match ← advance with
    | .ch '{' => let _ ← advance; return .dollBrace
    | .ch '[' => let _ ← advance; return .dollBrack
    | .ch '(' =>
      if isCh (← advance) '(' then let _ ← advance; return .dollDblParen
      return .dollParen
    | _ => return .dollar

/-- Whether `?`, `*`, `+`, `@` or `!` here opens an extended glob such as `@(a|b)`. -/
def extendedGlob : ParseM Bool := do
  if (← get).val == "function" then return false
  match ← peekTwo with
  | (some '(', some ')') => return false
  | (some '(', _) => return true
  | _ => return false

def finishLit (start : Nat) (t : Tok) : ParseM Unit :=
  modify fun s => { s with tok := t, val := s.textFrom start }

def allDigits (s : String) : Bool := !s.isEmpty && s.all Char.isDigit

/-- Reads a plain word, up to a blank or an operator. Records where its first `=` is. -/
def litNone (fuel : Nat) : ParseM Unit := do
  modify fun s => { s with eqlOffs := -1 }
  let start := (← get).idx
  go fuel start
where
  go : Nat → Nat → ParseM Unit
    | 0, start => finishLit start .litWord
    | fuel + 1, start => do
      let s ← get
      match s.cur with
      | .eof => finishLit start .litWord
      | .cont => let _ ← advance; go fuel start
      | .ch c =>
        if c == '\\' then
          if (← advance) == .eof then finishLit start .litWord
          else let _ ← advance; go fuel start
        else if " \t\n\r&|;()".contains c then finishLit start .litWord
        else if c == '>' || c == '<' then
          if (← peekChar) == some '(' then finishLit start .lit
          else if allDigits (s.textFrom start) then finishLit start .litRedir
          else finishLit start .litWord
        else if c == '`' then
          finishLit start (if s.quote != .subCmdBckquo then .lit else .litWord)
        else if c == '"' || c == '\'' || c == '$' then finishLit start .lit
        else if "?*+@!".contains c && (← extendedGlob) then finishLit start .lit
        else
          if c == '=' && s.eqlOffs < 0 then
            modify fun s => { s with eqlOffs := (s.textFrom start).length }
          let sofar := s.textFrom start
          if c == '[' && sofar.length ≥ 1 && !sofar.startsWith "[" then finishLit start .lit
          else let _ ← advance; go fuel start

/-- Reads literal text in the other states: names in `${…}`, arithmetic operands, and the
words after an expansion operator. -/
def litOther (fuel : Nat) : ParseM Unit := do
  let start := (← get).idx
  go fuel start
where
  go : Nat → Nat → ParseM Unit
    | 0, start => finishLit start .litWord
    | fuel + 1, start => do
      let s ← get
      let q := s.quote
      let stop : Bool := match s.cur with
        | .eof => true
        | .cont => false
        | .ch c =>
          if c == '}' then q.paramExp
          else if c == '/' then q != .paramExpExp
          else if ":=%^,?!~*".contains c then q.arithm || q == .paramExpName
          else if c == '[' || c == ']' then q.arithm || q.paramReg
          else if c == '#' || c == '@' then q.paramReg
          else if " \t\n\r;&><|()+-".contains c then !q.keepSpaces
          else false
      if stop then finishLit start .litWord
      else match s.cur with
        | .ch '\\' =>
          if (← advance) == .eof then finishLit start .litWord
          else let _ ← advance; go fuel start
        | .ch c =>
          if c == '\'' || c == '"' || c == '`' || c == '$' then finishLit start .lit
          else let _ ← advance; go fuel start
        | _ => let _ ← advance; go fuel start

/-- Reads literal text inside double quotes. -/
def litDquote (fuel : Nat) : ParseM Unit := do
  let start := (← get).idx
  go fuel start
where
  go : Nat → Nat → ParseM Unit
    | 0, start => finishLit start .litWord
    | fuel + 1, start => do
      match (← get).cur with
      | .eof => finishLit start .litWord
      | .cont => finishLit start .lit
      | .ch '"' => finishLit start .litWord
      | .ch '`' => finishLit start .lit
      | .ch '$' => finishLit start .lit
      | .ch '\\' => let _ ← advance; let _ ← advance; go fuel start
      | .ch _ => let _ ← advance; go fuel start

/-- Reads the body lines of the waiting here-documents, after the line feed that ends
their command: each runs up to a line equal to its delimiter, or to the end. -/
def readDocs (fuel : Nat) : ParseM Unit := do
  let s ← get
  let docs := s.docs.drop s.buriedDocs
  if docs.isEmpty then return
  let _ ← advance
  modify fun s => { s with docs := s.docs.take s.buriedDocs }
  for d in docs do
    skipBody d fuel
where
  /-- The text of the current line and moves past its line feed. -/
  line : Nat → String → ParseM String
    | 0, acc => return acc
    | fuel + 1, acc => do
      match (← get).cur with
      | .eof => return acc
      | .ch '\n' => let _ ← advance; return acc
      | .cont => let _ ← advance; line fuel (acc ++ "\\\n")
      | .ch c => let _ ← advance; line fuel (acc.push c)
  skipBody (d : PendingDoc) : Nat → ParseM Unit
    | 0 => return
    | fuel + 1 => do
      if (← get).cur == .eof then return
      let l ← line fuel ""
      let l := if d.tabs then String.ofList (l.toList.dropWhile (· == '\t')) else l
      if l == d.delim then return
      skipBody d fuel

/-- Reads the next token in a state where blanks are text. -/
def nextKeepSpaces (fuel : Nat) : ParseM Unit := do
  let s ← get
  if s.quote != .hdocBody && s.quote != .hdocBodyTabs then
    skipConts fuel
  modify fun s => { s with pos := s.curPos }
  let s ← get
  match s.quote, s.cur with
  | _, .eof => setTok .eof
  | .paramExpRepl, .ch c =>
    if c == '}' || c == '/' then setTok (← paramToken c)
    else if "\x60\"$'".contains c then setTok (← regToken c)
    else litOther fuel
  | .dblQuotes, .ch c =>
    if "\x60\"$".contains c then setTok (← dqToken c) else litDquote fuel
  | _, .ch c =>
    if c == '}' then setTok (← paramToken c)
    else if "\x60\"$'".contains c then setTok (← regToken c)
    else litOther fuel
  | .dblQuotes, _ => litDquote fuel
  | _, _ => litOther fuel
where
  skipConts : Nat → ParseM Unit
    | 0 => return
    | fuel + 1 => do
      if (← get).cur == .cont then
        let _ ← advance
        skipConts fuel

/-- Reads the next token. Blanks and comments are skipped; line feeds become `newline`
tokens, several in a row one token, and a line feed reads the waiting here-documents. -/
def next (fuel : Nat) : ParseM Unit := do
  if (← get).cur == .eof then setTok .eof; return
  modify fun s => { s with spaced := false }
  if (← get).quote.keepSpaces then nextKeepSpaces fuel; return
  skip fuel
where
  skip : Nat → ParseM Unit
    | 0 => setTok .eof
    | fuel + 1 => do
      let s ← get
      match s.cur with
      | .eof => setTok .eof
      | .cont => let _ ← advance; skip fuel
      | .ch ' ' | .ch '\t' | .ch '\r' =>
        modify fun s => { s with spaced := true }
        let _ ← advance
        skip fuel
      | .ch '\n' =>
        if s.tok == .newl then
          let _ ← advance
          skip fuel
        else
          modify fun s => { s with spaced := true, tok := .newl }
          let s ← get
          if s.quote != .hdocWord && s.docs.length > s.buriedDocs then readDocs fuel
      | .ch c =>
        modify fun s => { s with pos := s.curPos }
        if s.quote.regTokens then
          if regOps c then setTok (← regToken c)
          else if c == '#' then
            comment fuel
            skip fuel
          else if (c == '[' || c == '=') && s.quote == .arrayElems then setTok (← paramToken c)
          else if "?*+@!".contains c && (← extendedGlob) then
            let t : Tok := match c with
              | '?' => .globQuest | '*' => .globStar | '+' => .globPlus | '@' => .globAt
              | _ => .globExcl
            let _ ← advance
            let _ ← advance
            setTok t
          else litNone fuel
        else if s.quote.arithm && arithmOps c then setTok (← arithmToken c)
        else if s.quote.paramExp && paramOps c then setTok (← paramToken c)
        else if regOps c then setTok (← regToken c)
        else litOther fuel
  comment : Nat → ParseM Unit
    | 0 => return
    | fuel + 1 => do
      match ← advance with
      | .eof => return
      | .ch '\n' => return
      | _ => comment fuel

end JobShell.Script

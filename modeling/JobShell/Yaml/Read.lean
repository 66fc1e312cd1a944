/-!
# Reading YAML

The part of YAML that configuration files use: block mappings and sequences laid out by
indentation, flow mappings `{…}` and sequences `[…]`, plain, single-quoted and
double-quoted scalars, literal (`|`) and folded (`>`) block scalars, and comments.

A document is read into a tree of nodes; scalars keep their text, whether they were
plain (only plain scalars are typed later as numbers, booleans or null), and the line
they start on, which duplicate keys are reported with.

Errors carry the zero-based line where the problem was found and read as the scanner
reports them: `found character that cannot start any token` (a tab or a reserved
character where a token starts), `found unexpected end of stream` (an unfinished quoted
scalar), `mapping values are not allowed in this context`, `could not find expected ':'`,
and `did not find expected key` or `… '-' indicator` for badly indented lines.
-/
namespace JobShell.Yaml

inductive Node where
  | scalar (text : String) (plain : Bool) (line : Nat)
  | seq (items : List Node) (line : Nat)
  | map (entries : List (Node × Node)) (line : Nat)
  deriving Repr, Inhabited

/-- A null node: an empty plain scalar. -/
def Node.empty (line : Nat) : Node := .scalar "" true line

structure ReadError where
  /-- The zero-based line of the problem. -/
  line : Nat
  problem : String
  /-- Scanner errors name the line after a zero-based count, parser errors before. -/
  scanner : Bool := true
  deriving Repr, Inhabited

/-- The error text: `line N: ` is given unless the problem is on the first line. -/
def ReadError.message (e : ReadError) : String :=
  if e.line == 0 then e.problem
  else "line " ++ toString (if e.scanner then e.line + 1 else e.line) ++ ": " ++ e.problem

/-- The text still to read, and where it is. -/
structure Cursor where
  rest : List Char
  line : Nat := 0
  col : Nat := 0
  deriving Inhabited

abbrev ReadM := StateT Cursor (Except ReadError)

namespace ReadM

def peek : ReadM (Option Char) := return (← get).rest.head?

def peek2 : ReadM (Option Char) := return ((← get).rest.drop 1).head?

def advance : ReadM Unit :=
  modify fun c => match c.rest with
    | '\n' :: r => { rest := r, line := c.line + 1, col := 0 }
    | _ :: r => { c with rest := r, col := c.col + 1 }
    | [] => c

def fail {α : Type} (problem : String) : ReadM α := do
  throw { line := (← get).line, problem }

def failParser {α : Type} (problem : String) : ReadM α := do
  throw { line := (← get).line, problem, scanner := false }

end ReadM

open ReadM

def isBlank (c : Char) : Bool := c == ' ' || c == '\t'

def isBreakOrEnd (c : Option Char) : Bool := c.isNone || c == some '\n' || c == some '\r'

def isSpaceOrEnd (c : Option Char) : Bool := isBreakOrEnd c || c == some ' ' || c == some '\t'

/-- Skips blanks on the line. -/
def skipBlanks : Nat → ReadM Unit
  | 0 => pure ()
  | n + 1 => do
    match ← peek with
    | some c => if isBlank c then advance; skipBlanks n else pure ()
    | none => pure ()

/-- Skips a comment to the end of its line. -/
def skipComment : Nat → ReadM Unit
  | 0 => pure ()
  | n + 1 => do
    match ← peek with
    | some '\n' => pure ()
    | some _ => advance; skipComment n
    | none => pure ()

/-- Skips blanks, comments and line breaks up to the next token. In block context a tab
cannot stand in a line's indentation. -/
def skipToTokenFrom (flow : Bool) : Nat → Bool → ReadM Unit
  | 0, _ => pure ()
  | n + 1, lineStart => do
    let c ← get
    match c.rest with
    | ' ' :: _ => advance; skipToTokenFrom flow n lineStart
    | '\t' :: _ =>
      if lineStart && !flow then fail "found character that cannot start any token"
      else advance; skipToTokenFrom flow n lineStart
    | '\r' :: _ => advance; skipToTokenFrom flow n lineStart
    | '\n' :: _ => advance; skipToTokenFrom flow n true
    | '#' :: _ => skipComment n; skipToTokenFrom flow n lineStart
    | _ => pure ()

def skipToToken (n : Nat) : ReadM Unit := do
  skipToTokenFrom false n ((← get).col == 0)

def skipToFlowToken (n : Nat) : ReadM Unit := skipToTokenFrom true n false

/-- Whether a `:` at the front of the text makes the text before it a key. -/
def isValueIndicator (rest : List Char) (flow : Bool) : Bool :=
  match rest with
  | ':' :: c :: _ => isBlank c || c == '\n' || c == '\r' || (flow && (c == ',' || c == ']' || c == '}'))
  | [':'] => true
  | _ => false

/-- A plain scalar on one line: up to `: `, ` #` or the end of the line, and in a flow
collection also up to `,` and brackets. Trailing blanks are not part of it. -/
def plainRun (flow : Bool) : Nat → List Char → ReadM (List Char)
  | 0, acc => return acc.reverse
  | n + 1, acc => do
    let c ← get
    match c.rest with
    | [] => return trimEnd acc
    | '\n' :: _ | '\r' :: _ => return trimEnd acc
    | ch :: more =>
      if isValueIndicator c.rest flow then return trimEnd acc
      else if ch == '#' && (acc.head?.map isBlank).getD true then return trimEnd acc
      else if flow && (ch == ',' || ch == '[' || ch == ']' || ch == '{' || ch == '}') then
        return trimEnd acc
      else
        let _ := more
        advance
        plainRun flow n (ch :: acc)
where
  trimEnd (acc : List Char) : List Char := (acc.dropWhile isBlank).reverse

/-- The escapes of double-quoted scalars. -/
def escapeOf (c : Char) : Option String :=
  match c with
  | '0' => some "\x00" | 'a' => some "\x07" | 'b' => some "\x08" | 't' => some "\t"
  | '\t' => some "\t" | 'n' => some "\n" | 'v' => some "\x0b" | 'f' => some "\x0c"
  | 'r' => some "\r" | 'e' => some "\x1b" | ' ' => some " " | '"' => some "\""
  | '/' => some "/" | '\\' => some "\\" | 'N' => some "\u0085" | '_' => some " "
  | 'L' => some "\u2028" | 'P' => some "\u2029"
  | _ => none

def hexVal (c : Char) : Option Nat :=
  if '0' ≤ c && c ≤ '9' then some (c.toNat - '0'.toNat)
  else if 'a' ≤ c && c ≤ 'f' then some (c.toNat - 'a'.toNat + 10)
  else if 'A' ≤ c && c ≤ 'F' then some (c.toNat - 'A'.toNat + 10)
  else none

/-- Folds the line breaks of a quoted scalar: a single break becomes a space, more
breaks keep all but one; blanks around breaks go. -/
def foldBreak (acc : List Char) : Nat → ReadM (List Char)
  | fuel => do
    -- drop trailing blanks of the line already read
    let acc := acc.dropWhile isBlank
    let mut breaks := 0
    for _ in List.range fuel do
      match ← peek with
      | some '\n' => advance; breaks := breaks + 1; skipBlanks fuel
      | some '\r' => advance
      | _ => break
    if breaks ≤ 1 then return ' ' :: acc
    else return (List.replicate (breaks - 1) '\n') ++ acc

/-- A single-quoted scalar, after its opening quote. -/
def singleQuoted : Nat → List Char → ReadM String
  | 0, _ => fail "found unexpected end of stream"
  | n + 1, acc => do
    match (← get).rest with
    | [] => fail "found unexpected end of stream"
    | '\'' :: '\'' :: _ => advance; advance; singleQuoted n ('\'' :: acc)
    | '\'' :: _ => advance; return String.ofList acc.reverse
    | '\n' :: _ => let acc ← foldBreak acc n; singleQuoted n acc
    | c :: _ => advance; singleQuoted n (c :: acc)

/-- A double-quoted scalar, after its opening quote. -/
def doubleQuoted : Nat → List Char → ReadM String
  | 0, _ => fail "found unexpected end of stream"
  | n + 1, acc => do
    match (← get).rest with
    | [] => fail "found unexpected end of stream"
    | '"' :: _ => advance; return String.ofList acc.reverse
    | '\\' :: '\n' :: _ =>
      advance; advance; skipBlanks n; doubleQuoted n acc
    | '\\' :: c :: _ =>
      advance; advance
      match escapeOf c with
      | some s => doubleQuoted n (s.toList.reverse ++ acc)
      | none =>
        let width := if c == 'x' then 2 else if c == 'u' then 4 else if c == 'U' then 8 else 0
        if width == 0 then fail "found unknown escape character while parsing a quoted scalar"
        else
          let ds := (← get).rest.take width
          let vals := ds.filterMap hexVal
          if vals.length != width then fail "did not find expected hexdecimal number"
          else
            for _ in List.range width do advance
            let v := vals.foldl (fun a d => a * 16 + d) 0
            doubleQuoted n (Char.ofNat v :: acc)
    | '\n' :: _ => let acc ← foldBreak acc n; doubleQuoted n acc
    | c :: _ => advance; doubleQuoted n (c :: acc)

/-- The lines of a block scalar (`|` or `>`), after its indicator: the lines indented
more than the parent, with the common indentation removed. Literal blocks keep line
breaks, folded ones join lines with spaces; a final break is kept unless `-` strips
it, and `+` keeps all final breaks. -/
def blockScalar (parent : Int) (literal : Bool) (fuel : Nat) : ReadM String := do
  let mut chomp : Char := ' '
  let mut explicit : Option Nat := none
  for _ in List.range 2 do
    match ← peek with
    | some '-' => chomp := '-'; advance
    | some '+' => chomp := '+'; advance
    | some c =>
      if '1' ≤ c && c ≤ '9' then explicit := some (c.toNat - '0'.toNat); advance
    | none => pure ()
  skipBlanks fuel
  if (← peek) == some '#' then skipComment fuel
  match ← peek with
  | some '\n' => advance
  | none => pure ()
  | _ => fail "did not find expected comment or line break"
  -- the lines of the block
  let mut lines : Array String := #[]
  let mut indent : Option Nat := explicit.map fun e => (max parent 0).toNat + e
  for _ in List.range fuel do
    let c ← get
    if c.rest.isEmpty then break
    let spaces := (c.rest.takeWhile (· == ' ')).length
    let after := c.rest.drop spaces
    let blankLine := match after with
      | '\n' :: _ => true
      | [] => true
      | _ => false
    if blankLine then
      for _ in List.range spaces do advance
      lines := lines.push ""
      if after.isEmpty then break
      advance
      continue
    let ind := match indent with
      | some i => i
      | none => spaces
    if (spaces : Int) ≤ parent || spaces < ind then break
    indent := some ind
    for _ in List.range ind do advance
    let text := (← get).rest.takeWhile (· != '\n')
    for _ in List.range text.length do advance
    lines := lines.push (String.ofList text)
    if (← peek) == some '\n' then advance
  -- trailing empty lines
  let body := lines.toList
  let trailing := (body.reverse.takeWhile (·.isEmpty)).length
  let content := body.take (body.length - trailing)
  let joined :=
    if literal then "\n".intercalate content
    else
      content.foldl (fun (acc : String) l =>
        if acc.isEmpty then l
        else if l.isEmpty || l.startsWith " " then acc ++ "\n" ++ l
        else acc ++ " " ++ l) ""
  let text := if content.isEmpty then ""
    else match chomp with
      | '-' => joined
      | '+' => joined ++ String.ofList (List.replicate (trailing + 1) '\n')
      | _ => joined ++ "\n"
  return text

mutual

/-- A node in a flow collection. -/
def flowNode : Nat → ReadM Node
  | 0 => fail "exceeded max depth"
  | n + 1 => do
    skipToFlowToken n
    let line := (← get).line
    match ← peek with
    | some '[' => advance; flowSeq n line []
    | some '{' => advance; flowMap n line []
    | some '"' => advance; return .scalar (← doubleQuoted n []) false line
    | some '\'' => advance; return .scalar (← singleQuoted n []) false line
    | some c =>
      if c == '@' || c == '\x60' then fail "found character that cannot start any token"
      else return .scalar (String.ofList (← plainRun true n [])) true line
    | none => fail "did not find expected node content"

/-- The items of a flow sequence, after `[`. -/
def flowSeq : Nat → Nat → List Node → ReadM Node
  | 0, _, _ => fail "exceeded max depth"
  | n + 1, line, acc => do
    skipToFlowToken n
    match ← peek with
    | some ']' => advance; return .seq acc.reverse line
    | none => fail "did not find expected ',' or ']'"
    | _ =>
      let item ← flowNode n
      skipToFlowToken n
      match ← peek with
      | some ',' => advance; flowSeq n line (item :: acc)
      | some ']' => advance; return .seq (item :: acc).reverse line
      | _ => failParser "did not find expected ',' or ']'"

/-- The entries of a flow mapping, after `{`. -/
def flowMap : Nat → Nat → List (Node × Node) → ReadM Node
  | 0, _, _ => fail "exceeded max depth"
  | n + 1, line, acc => do
    skipToFlowToken n
    match ← peek with
    | some '}' => advance; return .map acc.reverse line
    | none => fail "did not find expected ',' or '\x7d'"
    | _ =>
      let key ← flowNode n
      skipToFlowToken n
      let value ← if (← peek) == some ':' then do advance; flowValue n
        else pure (Node.empty (← get).line)
      skipToFlowToken n
      match ← peek with
      | some ',' => advance; flowMap n line ((key, value) :: acc)
      | some '}' => advance; return .map ((key, value) :: acc).reverse line
      | _ => failParser "did not find expected ',' or '\x7d'"

/-- The value after `:` in a flow mapping, empty before `,` or `}`. -/
def flowValue : Nat → ReadM Node
  | 0 => fail "exceeded max depth"
  | n + 1 => do
    skipToFlowToken n
    match ← peek with
    | some ',' | some '}' => return Node.empty (← get).line
    | _ => flowNode n

end

/-- A plain scalar in block context, with its continuation lines (indented more than
the parent) folded in with spaces. -/
def blockPlain (parent : Int) (fuel : Nat) : ReadM String := do
  let first ← plainRun false fuel []
  let mut text := String.ofList first
  for _ in List.range fuel do
    let save ← get
    -- look at the next non-empty line
    skipBlanks fuel
    if (← peek) == some '#' then set save; break
    if (← peek) != some '\n' then set save; break
    let mut breaks := 0
    for _ in List.range fuel do
      match ← peek with
      | some '\n' => advance; breaks := breaks + 1; skipBlanks fuel
      | _ => break
    let c ← get
    let nextCh := c.rest.head?
    if c.rest.isEmpty || (c.col : Int) ≤ parent || nextCh == some '#' ||
        (nextCh == some '-' && isSpaceOrEnd (c.rest.drop 1).head?) then
      set save; break
    let more ← plainRun false fuel []
    if more.isEmpty then set save; break
    text := text ++ (if breaks ≤ 1 then " " else String.ofList (List.replicate (breaks - 1) '\n'))
      ++ String.ofList more
    if isValueIndicator (← get).rest false then
      fail "mapping values are not allowed in this context"
  return text

/-- A node that starts on the current line in block context: a flow collection, a
quoted or block scalar, or a plain scalar. -/
def inlineNode (parent : Int) (fuel : Nat) : ReadM Node := do
  let line := (← get).line
  match ← peek with
  | some '[' | some '{' => flowNode fuel
  | some '"' => advance; return .scalar (← doubleQuoted fuel []) false line
  | some '\'' => advance; return .scalar (← singleQuoted fuel []) false line
  | some '|' => advance; return .scalar (← blockScalar parent true fuel) false line
  | some '>' => advance; return .scalar (← blockScalar parent false fuel) false line
  | some c =>
    if c == '@' || c == '\x60' || c == '\t' then fail "found character that cannot start any token"
    else return .scalar (← blockPlain parent fuel) true line
  | none => return Node.empty line

/-- Whether a key stands at the cursor: after the key's text comes `:` and a blank. -/
def atKey : ReadM Bool := do
  let c ← get
  let rest := c.rest.takeWhile (· != '\n')
  match rest with
  | '"' :: _ | '\'' :: _ =>
    let save ← get
    let r ← tryCatch (do let _ ← inlineNode (-1) rest.length; skipBlanks rest.length
                         pure (isValueIndicator (← get).rest false)) (fun _ => pure false)
    set save
    return r
  | '[' :: _ | '{' :: _ | '-' :: ' ' :: _ | ['-'] => return false
  | _ => return go rest false
where
  go : List Char → Bool → Bool
    | [], _ => false
    | ':' :: r, _ => isValueIndicator (':' :: r) false
    | '#' :: r, prevBlank => if prevBlank then false else go r false
    | c :: r, _ => go r (isBlank c)

mutual

/-- A node in block context whose content must be indented more than `parent`; with
`seqAtParent` a sequence may start right at the parent's column (as the value of a
mapping key). Gives an empty node when nothing is indented enough. -/
def blockNode : Nat → Int → Bool → ReadM Node
  | 0, _, _ => fail "exceeded max depth"
  | n + 1, parent, seqAtParent => do
    skipToToken n
    let c ← get
    let line := c.line
    match c.rest with
    | [] => return Node.empty line
    | ch :: more =>
      let col : Int := c.col
      let isSeq := ch == '-' && isSpaceOrEnd more.head?
      if col > parent || (seqAtParent && isSeq && col == parent) then
        if isSeq then blockSeq n c.col line []
        else if ← atKey then blockMap n c.col line []
        else
          let node ← inlineNode parent n
          skipBlanks n
          if isValueIndicator (← get).rest false then
            fail "mapping values are not allowed in this context"
          return node
      else return Node.empty line

/-- The items of a block sequence whose `-` stand at column `col`. -/
def blockSeq : Nat → Nat → Nat → List Node → ReadM Node
  | 0, _, _, _ => fail "exceeded max depth"
  | n + 1, col, line, acc => do
    skipToToken n
    let c ← get
    match c.rest with
    | '-' :: more =>
      if c.col == col && isSpaceOrEnd more.head? then
        advance
        let item ← blockNode n col false
        blockSeq n col line (item :: acc)
      else finish c col line acc
    | _ => finish c col line acc
where
  finish (c : Cursor) (col line : Nat) (acc : List Node) : ReadM Node :=
    if c.rest.isEmpty || c.col < col then return .seq acc.reverse line
    else throw { line := c.line, problem := "did not find expected '-' indicator", scanner := false }

/-- The entries of a block mapping whose keys stand at column `col`. -/
def blockMap : Nat → Nat → Nat → List (Node × Node) → ReadM Node
  | 0, _, _, _ => fail "exceeded max depth"
  | n + 1, col, line, acc => do
    skipToToken n
    let c ← get
    if c.rest.isEmpty || c.col < col then return .map acc.reverse line
    if c.col > col then
      throw { line := c.line, problem := "did not find expected key", scanner := false }
    if !(← atKey) then
      if c.rest.head? == some '-' then
        throw { line := c.line, problem := "did not find expected key", scanner := false }
      -- a line that is not a key: the scanner looks for its ':' on the next line
      throw { line := c.line + 1, problem := "could not find expected ':'" }
    let key ← inlineNode col n
    skipBlanks n
    advance -- the ':'
    skipBlanks n
    let here := (← get).line
    let value ← match ← peek with
      | some '#' | some '\n' | some '\r' | none => do
        -- an empty value stands where its key does
        match ← blockNode n col true with
        | .scalar "" true _ => pure (Node.empty here)
        | v => pure v
      | some '-' =>
        if isSpaceOrEnd (← peek2) then fail "block sequence entries are not allowed in this context"
        else inlineNode col n
      | _ =>
        let v ← inlineNode col n
        skipBlanks n
        if isValueIndicator (← get).rest false then
          fail "mapping values are not allowed in this context"
        pure v
    blockMap n col line ((key, value) :: acc)

end

/-- Reads a document: one node, or an empty node when there is nothing but comments. -/
def read (text : String) : Except ReadError Node :=
  let fuel := text.length + 16
  let doc : ReadM Node := do
    skipToToken fuel
    let c ← get
    -- a document start marker
    if c.col == 0 && c.rest.take 3 == ['-', '-', '-'] && isSpaceOrEnd (c.rest.drop 3).head? then
      for _ in List.range 3 do advance
      skipToToken fuel
    let node ← blockNode fuel (-1) false
    skipToToken fuel
    let e ← get
    if e.rest.isEmpty then return node
    if e.rest.take 3 == ['.', '.', '.'] then return node
    throw { line := e.line, problem := "did not find expected <document start>", scanner := false }
  (doc.run { rest := text.toList }).map (·.1)

end JobShell.Yaml

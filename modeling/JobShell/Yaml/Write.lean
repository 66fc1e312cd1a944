import JobShell.Json.Value
import JobShell.Yaml.Scalar

/-!
# Writing YAML

`Yaml.write` writes a JSON document as block YAML, the way a YAML 1.1 emitter does:

* mappings list their keys in natural order: runs of digits compare as numbers, other
  characters compare as characters, and a letter sorts after any other character;
* a sequence that is the value of a mapping key has its `-` at the key's indentation;
  nested collections are indented by two more;
* empty collections are written `{}` and `[]`, null as `null`;
* a text is written plain when that reads back as the same text. Otherwise it is single
  quoted, or double quoted with escapes when it holds characters a single-quoted text
  cannot show. A text with a line break is a literal block (`|`), unless it is a key or
  has spaces around its breaks;
* a plain or quoted text is folded at a space once its line is past 80 columns.

A key longer than 128 bytes, or one with a line break, is written as a complex key
(`? key` then `: value` on the next line).
-/
namespace JobShell.Yaml

/-- The line width past which texts are folded. -/
def bestWidth : Nat := 80

/-- The indentation step. -/
def bestIndent : Nat := 2

/-- The writer's state: the text so far, the column, and whether the last thing written
was blank (`whitespace`) or only indentation (`indention`). -/
structure Emitter where
  out : String := ""
  column : Nat := 0
  whitespace : Bool := true
  indention : Bool := true

namespace Emitter

def put (e : Emitter) (c : Char) : Emitter := { e with out := e.out.push c, column := e.column + 1 }

def putStr (e : Emitter) (s : String) : Emitter := s.toList.foldl put e

def putBreak (e : Emitter) : Emitter := { e with out := e.out.push '\n', column := 0 }

/-- Starts a line at `indent`, unless the cursor already stands there at the start of
the line's content. -/
def writeIndent (e : Emitter) (indent : Nat) : Emitter :=
  let e := if !e.indention || e.column > indent || (e.column == indent && !e.whitespace) then
    e.putBreak else e
  let e := e.putStr (String.ofList (List.replicate (indent - e.column) ' '))
  { e with whitespace := true, indention := true }

/-- Writes an indicator, after a space when one is needed and the last thing written
was not blank. -/
def writeIndicator (e : Emitter) (ind : String) (needWhitespace isWhitespace isIndention : Bool) :
    Emitter :=
  let e := if needWhitespace && !e.whitespace then e.put ' ' else e
  let e := e.putStr ind
  { e with whitespace := isWhitespace, indention := e.indention && isIndention }

/-- Writes a line break found in a text. -/
def writeBreak (e : Emitter) (c : Char) : Emitter :=
  if c == '\n' then e.putBreak else { e.put c with column := 0 }

end Emitter

/-- Characters as the emitter classes them. -/
def isBreakChar (c : Char) : Bool :=
  c == '\r' || c == '\n' || c.toNat == 0x85 || c.toNat == 0x2028 || c.toNat == 0x2029

def isPrintableChar (c : Char) : Bool :=
  let n := c.toNat
  n == 0x0A || (0x20 ≤ n && n ≤ 0x7E) || (0xA0 ≤ n && n ≤ 0xD7FF) ||
    (0xE000 ≤ n && n ≤ 0xFFFD && n != 0xFEFF)

def isBlankChar (c : Char) : Bool := c == ' ' || c == '\t'

def isBlankzChar (c : Char) : Bool := isBlankChar c || isBreakChar c || c.toNat == 0

/-- Which ways of writing a text are open to it. -/
structure Analysis where
  multiline : Bool
  flowPlain : Bool
  blockPlain : Bool
  singleQuoted : Bool
  block : Bool

/-- Looks at a text's characters: indicators that would be misread, leading and trailing
blanks and breaks, and characters that only double quotes can show. -/
def analyze (s : String) : Analysis :=
  let cs := s.toList
  if cs.isEmpty then
    { multiline := false, flowPlain := false, blockPlain := true, singleQuoted := true, block := false }
  else
    let startMarker := cs.take 3 == ['-', '-', '-'] || cs.take 3 == ['.', '.', '.']
    let n := cs.length
    -- (blockInd, flowInd, lineBreaks, special, leadSp, leadBr, trailSp, trailBr,
    --  breakSpace, spaceBreak, precededByWs, prevSpace, prevBreak)
    let init := (startMarker, startMarker, false, false, false, false, false, false, false, false,
      true, false, false)
    let step := fun (acc : Bool × Bool × Bool × Bool × Bool × Bool × Bool × Bool × Bool × Bool ×
        Bool × Bool × Bool) (p : Char × Nat) =>
      let (blockInd, flowInd, lineBreaks, special, leadSp, leadBr, trailSp, trailBr, breakSpace,
        spaceBreak, preceded, prevSpace, prevBreak) := acc
      let (c, i) := p
      let followed := i + 1 ≥ n || isBlankChar (cs.getD (i + 1) ' ')
      let (flowInd, blockInd) :=
        if i == 0 then
          if "#,[]\x7b\x7d&*!|>'\"%@\x60".toList.contains c then (true, true)
          else if c == '?' || c == ':' then (true, blockInd || followed)
          else if c == '-' && followed then (true, true)
          else (flowInd, blockInd)
        else
          if ",?[]\x7b\x7d".toList.contains c then (true, blockInd)
          else if c == ':' then (true, blockInd || followed)
          else if c == '#' && preceded then (true, true)
          else (flowInd, blockInd)
      let special := special || !isPrintableChar c
      let last := i + 1 == n
      let (lineBreaks, leadSp, leadBr, trailSp, trailBr, breakSpace, spaceBreak, prevSpace, prevBreak) :=
        if c == ' ' then
          (lineBreaks, leadSp || i == 0, leadBr, trailSp || last, trailBr, breakSpace || prevBreak,
            spaceBreak, true, false)
        else if isBreakChar c then
          (true, leadSp, leadBr || i == 0, trailSp, trailBr || last, breakSpace,
            spaceBreak || prevSpace, false, true)
        else (lineBreaks, leadSp, leadBr, trailSp, trailBr, breakSpace, spaceBreak, false, false)
      (blockInd, flowInd, lineBreaks, special, leadSp, leadBr, trailSp, trailBr, breakSpace,
        spaceBreak, isBlankzChar c, prevSpace, prevBreak)
    let (blockInd, flowInd, lineBreaks, special, leadSp, leadBr, trailSp, trailBr, breakSpace,
      spaceBreak, _, _, _) := (cs.zipIdx).foldl step init
    let edges := leadSp || leadBr || trailSp || trailBr
    { multiline := lineBreaks
      flowPlain := !(edges || breakSpace || spaceBreak || special || lineBreaks || flowInd)
      blockPlain := !(edges || breakSpace || spaceBreak || special || lineBreaks || blockInd)
      singleQuoted := !(breakSpace || spaceBreak || special)
      block := !(trailSp || spaceBreak || special) }

/-- How a text is written. -/
inductive Style where
  | plain
  | single
  | double
  | literal
  deriving DecidableEq, Repr

/-- Whether a text written plain would read back as that text. -/
def plainReadsBack (s : String) : Bool :=
  (match resolve s with
   | .str _ => true
   | _ => false) && !isBase60Float s

/-- The style of a text: the requested one (literal for a text with a line feed, plain
when it reads back, else double quotes), narrowed by what the text allows. -/
def chooseStyle (s : String) (simpleKey : Bool) : Style :=
  let a := analyze s
  let requested : Style :=
    if s.toList.contains '\n' then .literal else if plainReadsBack s then .plain else .double
  let style := if simpleKey && a.multiline then .double else requested
  let style := if style == .plain && (!a.blockPlain || (s.isEmpty && simpleKey)) then .single else style
  let style := if style == .single && !a.singleQuoted then .double else style
  if style == .literal && (!a.block || simpleKey) then .double else style

/-- The hex digits of a code, upper case, `width` of them. -/
def hexUpper (n width : Nat) : String :=
  let ds := (Nat.toDigits 16 n).map Char.toUpper
  String.ofList (List.replicate (width - ds.length) '0' ++ ds)

/-- The escape of a character in double quotes, without its backslash. -/
def escapeCode (c : Char) : String :=
  match c.toNat with
  | 0x00 => "0"
  | 0x07 => "a"
  | 0x08 => "b"
  | 0x09 => "t"
  | 0x0A => "n"
  | 0x0B => "v"
  | 0x0C => "f"
  | 0x0D => "r"
  | 0x1B => "e"
  | 0x22 => "\""
  | 0x5C => "\\"
  | 0x85 => "N"
  | 0xA0 => "_"
  | 0x2028 => "L"
  | 0x2029 => "P"
  | n =>
    if n ≤ 0xFF then "x" ++ hexUpper n 2
    else if n ≤ 0xFFFF then "u" ++ hexUpper n 4
    else "U" ++ hexUpper n 8

/-- Writes a plain text. -/
def writePlain (e : Emitter) (s : String) (allowBreaks : Bool) (indent : Nat) : Emitter :=
  let e := if !e.whitespace then e.put ' ' else e
  let cs := s.toList
  let (e, _, _) := cs.zipIdx.foldl (fun (acc : Emitter × Bool × Bool) (c, i) =>
    let (e, spaces, breaks) := acc
    if c == ' ' then
      if allowBreaks && !spaces && e.column > bestWidth && cs.getD (i + 1) 'x' != ' ' then
        (e.writeIndent indent, true, breaks)
      else (e.put c, true, breaks)
    else if isBreakChar c then
      let e := if !breaks && c == '\n' then e.putBreak else e
      ({ e.writeBreak c with indention := true }, spaces, true)
    else
      let e := if breaks then e.writeIndent indent else e
      ({ e.put c with indention := false }, false, false)) (e, false, false)
  { e with whitespace := false, indention := false }

/-- Writes a single-quoted text. -/
def writeSingle (e : Emitter) (s : String) (allowBreaks : Bool) (indent : Nat) : Emitter :=
  let e := e.writeIndicator "'" true false false
  let cs := s.toList
  let n := cs.length
  let (e, _, _) := cs.zipIdx.foldl (fun (acc : Emitter × Bool × Bool) (c, i) =>
    let (e, spaces, breaks) := acc
    if c == ' ' then
      if allowBreaks && !spaces && e.column > bestWidth && i > 0 && i + 1 < n &&
          cs.getD (i + 1) 'x' != ' ' then
        (e.writeIndent indent, true, breaks)
      else (e.put c, true, breaks)
    else if isBreakChar c then
      let e := if !breaks && c == '\n' then e.putBreak else e
      ({ e.writeBreak c with indention := true }, spaces, true)
    else
      let e := if breaks then e.writeIndent indent else e
      let e := if c == '\'' then e.put '\'' else e
      ({ e.put c with indention := false }, false, false)) (e, false, false)
  let e := e.writeIndicator "'" false false false
  { e with whitespace := false, indention := false }

/-- Writes a double-quoted text. -/
def writeDouble (e : Emitter) (s : String) (allowBreaks : Bool) (indent : Nat) : Emitter :=
  let e := e.writeIndicator "\"" true false false
  let cs := s.toList
  let n := cs.length
  let (e, _) := cs.zipIdx.foldl (fun (acc : Emitter × Bool) (c, i) =>
    let (e, spaces) := acc
    if !isPrintableChar c || c.toNat == 0xFEFF || isBreakChar c || c == '"' || c == '\\' then
      ((e.put '\\').putStr (escapeCode c), false)
    else if c == ' ' then
      if allowBreaks && !spaces && e.column > bestWidth && i > 0 && i + 1 < n then
        let e := e.writeIndent indent
        (if cs.getD (i + 1) 'x' == ' ' then e.put '\\' else e, true)
      else (e.put c, true)
    else (e.put c, false)) (e, false)
  let e := e.writeIndicator "\"" false false false
  { e with whitespace := false, indention := false }

/-- Writes a literal block: the indicator with its hints, then the lines. -/
def writeLiteral (e : Emitter) (s : String) (indent : Nat) : Emitter :=
  let e := e.writeIndicator "|" true false false
  let cs := s.toList
  let e := match cs.head? with
    | some c => if c == ' ' || isBreakChar c then e.writeIndicator (toString bestIndent) false false false else e
    | none => e
  let rev := cs.reverse
  let chomp : Option String := match rev with
    | [] => some "-"
    | [c] => if isBreakChar c then some "+" else some "-"
    | c :: d :: _ => if !isBreakChar c then some "-" else if isBreakChar d then some "+" else none
  let e := match chomp with
    | some h => e.writeIndicator h false false false
    | none => e
  let e := { e.putBreak with indention := true, whitespace := true }
  let (e, _) := cs.foldl (fun (acc : Emitter × Bool) c =>
    let (e, breaks) := acc
    if isBreakChar c then ({ e.writeBreak c with indention := true }, true)
    else
      let e := if breaks then e.writeIndent indent else e
      ({ e.put c with indention := false }, false)) (e, true)
  e

/-- The indentation of what a collection at `indent` holds. -/
def deeper (indent : Int) : Nat := if indent < 0 then 0 else indent.toNat + bestIndent

/-- Writes a text at a collection's indentation `indent`. -/
def writeText (e : Emitter) (s : String) (indent : Int) (simpleKey : Bool) : Emitter :=
  let inner := if indent < 0 then bestIndent else indent.toNat + bestIndent
  match chooseStyle s simpleKey with
  | .plain => writePlain e s (!simpleKey) inner
  | .single => writeSingle e s (!simpleKey) inner
  | .double => writeDouble e s (!simpleKey) inner
  | .literal => writeLiteral e s inner

/-- The text of a number: an integer as it is, a float in its shortest form. -/
def numberWord (lit : String) : String :=
  match resolve lit with
  | .int n => toString n
  | .float v =>
    match Num.formatShortest Num.double v with
    | "+Inf" => ".inf"
    | "-Inf" => "-.inf"
    | "NaN" => ".nan"
    | t => t
  | _ => lit

/-- Whether a character is a letter. -/
def isLetterChar (c : Char) : Bool :=
  let n := c.toNat
  c.isAlpha || n == 0xAA || n == 0xB5 || n == 0xBA ||
    (0xC0 ≤ n && n ≤ 0x2C1 && n != 0xD7 && n != 0xF7) || (0x370 ≤ n && n ≤ 0x3FF && n != 0x37E) ||
    (0x400 ≤ n && n ≤ 0x52F && !(0x482 ≤ n && n ≤ 0x489)) || (0x531 ≤ n && n ≤ 0x587) ||
    (0x5D0 ≤ n && n ≤ 0x5EA) || (0x620 ≤ n && n ≤ 0x64A) || (0x3041 ≤ n && n ≤ 0x30FF) ||
    (0x4E00 ≤ n && n ≤ 0x9FFF) || (0xAC00 ≤ n && n ≤ 0xD7A3)

/-- A signed 64-bit wrap of an integer. -/
def wrap64 (n : Int) : Int := (n + 9223372036854775808) % 18446744073709551616 - 9223372036854775808

/-- The natural order of keys: at the first difference, two letters compare as
characters, a letter sorts after anything else, and otherwise the runs of digits that
start there compare as numbers, then by length, then as characters. A key that is a
prefix of another sorts first. -/
def keyLess (a b : String) : Bool :=
  go [] a.toList b.toList
where
  go (prefixRev : List Char) : List Char → List Char → Bool
    | [], [] => false
    | [], _ :: _ => true
    | _ :: _, [] => false
    | x :: xs, y :: ys =>
      if x == y then go (x :: prefixRev) xs ys
      else
        let al := isLetterChar x
        let bl := isLetterChar y
        if al && bl then x < y
        else if al || bl then bl
        else
          let start : Int :=
            if (x == '0' || y == '0') && (prefixRev.takeWhile Char.isDigit).any (· != '0') then 1 else 0
          let ad := (x :: xs).takeWhile Char.isDigit
          let bd := (y :: ys).takeWhile Char.isDigit
          let num (ds : List Char) : Int :=
            ds.foldl (fun n c => wrap64 (n * 10 + (c.toNat - '0'.toNat : Nat))) start
          let an := num ad
          let bn := num bd
          if an != bn then an < bn
          else if ad.length != bd.length then ad.length < bd.length
          else x < y

/-- Sorts the members of a mapping in the natural order of their keys. -/
def sortMembers (ms : List (String × JsonValue)) : List (String × JsonValue) :=
  ms.mergeSort fun a b => !keyLess b.1 a.1

/-- The bytes of a text in UTF-8. -/
def byteLength (s : String) : Nat := s.utf8ByteSize

/-- Whether a key is written as a simple key `key: value`. -/
def isSimpleKey (k : String) : Bool := !(analyze k).multiline && byteLength k ≤ 128

mutual

/-- Writes a node whose enclosing collection is at `indent` (`-1` at the top);
`inMapping` tells a mapping value from a sequence item or the document. The fuel bounds
the nesting depth. -/
def writeNode : Nat → Emitter → Int → Bool → JsonValue → Emitter
  | 0, e, _, _, _ => e
  | _ + 1, e, indent, _, .null => writePlain e "null" true (deeper indent)
  | _ + 1, e, indent, _, .bool b => writePlain e (if b then "true" else "false") true (deeper indent)
  | _ + 1, e, indent, _, .number lit => writePlain e (numberWord lit) true (deeper indent)
  | _ + 1, e, indent, _, .string s => writeText e s indent false
  | _ + 1, e, _, _, .object [] =>
    (e.writeIndicator "\x7b" true true false).writeIndicator "\x7d" false false false
  | _ + 1, e, _, _, .array [] => (e.writeIndicator "[" true true false).writeIndicator "]" false false false
  | n + 1, e, indent, _, .object ms => writeMembers n e (deeper indent) (sortMembers ms)
  | n + 1, e, indent, inMapping, .array items =>
    let inner : Nat :=
      if indent < 0 then 0 else if inMapping && !e.indention then indent.toNat else indent.toNat + bestIndent
    writeItems n e inner items

/-- Writes the members of a block mapping whose keys stand at `indent`. -/
def writeMembers : Nat → Emitter → Nat → List (String × JsonValue) → Emitter
  | 0, e, _, _ => e
  | _ + 1, e, _, [] => e
  | n + 1, e, indent, (k, v) :: rest =>
    let e := e.writeIndent indent
    let e :=
      if isSimpleKey k then
        (writeText e k indent true).writeIndicator ":" false false false
      else
        let e := writeText (e.writeIndicator "?" true false true) k indent false
        (e.writeIndent indent).writeIndicator ":" true false true
    writeMembers n (writeNode n e indent true v) indent rest

/-- Writes the items of a block sequence whose dashes stand at `indent`. -/
def writeItems : Nat → Emitter → Nat → List JsonValue → Emitter
  | 0, e, _, _ => e
  | _ + 1, e, _, [] => e
  | n + 1, e, indent, v :: rest =>
    let e := (e.writeIndent indent).writeIndicator "-" true false true
    writeItems n (writeNode n e indent false v) indent rest

end

/-- Writes a document: its node, then the end of its last line. The fuel is the length
of the document's JSON text, more than its nesting and its widest collection. -/
def write (v : JsonValue) : String :=
  let e := writeNode ((v.compact false).length + 2) {} (-1) false v
  (e.writeIndent 0).out

end JobShell.Yaml

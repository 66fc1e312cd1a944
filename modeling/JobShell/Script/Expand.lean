import JobShell.Script.Ast
import JobShell.Script.Pattern
import JobShell.Env
import JobShell.Fs.Tree

/-!
# Word expansion

Turning parsed words into texts. `literal` gives the one text of a word (assignment
values, redirection targets): quotes go, parameters and arithmetic are put in, a leading
`~` becomes a home directory, and backslashes outside quotes stay. `fields` gives the
arguments of a command: braces are expanded first, then each word is expanded with
unquoted parameter values split at the characters of `IFS`, unquoted backslashes
dropped, and every field with an unquoted pattern character matched against the file
tree (a pattern that matches nothing stays as written).

Parameter values come from a `Scope`: the shell's variables, the assignments made so
far on the same command line, and the special parameters `$?`, `$$`, `$0` and `$!`.
Expansion never changes the variables: the forms that would assign fail with
"environment is read-only". Command substitution is refused.

Arithmetic is on 64-bit integers that wrap around. An operand word is expanded, then
followed through variables while it is a name with a non-empty value, and finally read
as a decimal number (anything else is 0).

Expansion recurses into nested words with a fuel count; the entry points give more fuel
than any parsed word can nest.
-/
namespace JobShell.Script

/-- What expansion reads. -/
structure Scope where
  vars : Env
  /-- Assignments made earlier on the same command line, the latest first. -/
  overlay : List (String × String) := []
  status : Int := 0
  pid : Nat := 0
  currentJobPid : Option Int := none
  tree : Fs.Tree := {}
  /-- The working directory of the process, which relative paths start from when `PWD`
  is not set. -/
  cwd : List String := []
  /-- The name of the shell, `$0`. -/
  zero : String := "ushell"

namespace Scope

def lookup (sc : Scope) (name : String) : Option String :=
  match sc.overlay.lookup name with
  | some v => some v
  | none =>
    match name with
    | "?" => some (toString (sc.status % 256))
    | "$" => some (toString sc.pid)
    | "0" => some sc.zero
    | "!" => sc.currentJobPid.map toString
    | _ => sc.vars.lookup name

def get (sc : Scope) (name : String) : String := (sc.lookup name).getD ""

/-- The field separators: `IFS` when set, else blank, tab and line feed. -/
def ifs (sc : Scope) : String := (sc.lookup "IFS").getD " \t\n"

end Scope

abbrev ExpandM := Except String

/-- Home directories of the system's accounts, for `~name`. -/
def accountHomes : List (String × String) :=
  [("root", "/root"), ("daemon", "/usr/sbin"), ("bin", "/bin"), ("sys", "/dev"),
   ("sync", "/bin"), ("games", "/usr/games"), ("man", "/var/cache/man"),
   ("lp", "/var/spool/lpd"), ("mail", "/var/mail"), ("news", "/var/spool/news"),
   ("uucp", "/var/spool/uucp"), ("proxy", "/bin"), ("www-data", "/var/www"),
   ("backup", "/var/backups"), ("list", "/var/list"), ("irc", "/run/ircd"),
   ("_apt", "/nonexistent"), ("nobody", "/nonexistent")]

/-- `~` and `~name` at the start of a text, up to the first `/`. -/
def expandTilde (sc : Scope) (s : String) : String :=
  match s.toList with
  | '~' :: rest =>
    let name := String.ofList (rest.takeWhile (· != '/'))
    let tail := String.ofList (rest.dropWhile (· != '/'))
    if name.isEmpty then
      match sc.lookup "HOME" with
      | some home => home ++ tail
      | none => s
    else
      match accountHomes.lookup name with
      | some home => home ++ tail
      | none => s
  | _ => s

/-- Drops every unquoted backslash, keeping the character after it. -/
def dropBackslashes (s : String) : String :=
  String.ofList (go s.toList)
where
  go : List Char → List Char
    | '\\' :: c :: rest => c :: go rest
    | ['\\'] => []
    | c :: rest => c :: go rest
    | [] => []

/-- Inside double quotes a backslash only escapes `"`, `\`, `$` and the backquote. -/
def unescapeDouble (s : String) : String :=
  String.ofList (go s.toList)
where
  go : List Char → List Char
    | '\\' :: c :: rest =>
      if c == '"' || c == '\\' || c == '$' || c == '\x60' then c :: go rest
      else '\\' :: go (c :: rest)
    | c :: rest => c :: go rest
    | [] => []

def hexValue (c : Char) : Option Nat :=
  if '0' ≤ c && c ≤ '9' then some (c.toNat - '0'.toNat)
  else if 'a' ≤ c && c ≤ 'f' then some (c.toNat - 'a'.toNat + 10)
  else if 'A' ≤ c && c ≤ 'F' then some (c.toNat - 'A'.toNat + 10)
  else none

def octValue (c : Char) : Option Nat :=
  if '0' ≤ c && c ≤ '7' then some (c.toNat - '0'.toNat) else none

/-- Up to `max` digits of the given kind at the front, with their value. -/
def takeDigits (digit : Char → Option Nat) (base : Nat) : Nat → List Char → Nat → Nat → Nat × Nat × List Char
  | 0, cs, count, v => (count, v, cs)
  | max + 1, c :: rest, count, v =>
    match digit c with
    | some d => takeDigits digit base max rest (count + 1) (v * base + d)
    | none => (count, v, c :: rest)
  | _ + 1, [], count, v => (count, v, [])

/-- Decodes the escapes of `$'…'`. A character of code 0 ends the text there. -/
def decodeEscapes (s : String) : String :=
  String.ofList (go s.toList s.length)
where
  go : List Char → Nat → List Char
    | [], _ => []
    | _, 0 => []
    | '\\' :: c :: rest, fuel + 1 =>
      let simple : Option Char := match c with
        | 'n' => some '\n' | 'r' => some '\r' | 't' => some '\t' | 'f' => some '\x0c'
        | 'v' => some '\x0b' | 'a' => some '\x07' | 'b' => some '\x08' | 'e' => some '\x1b'
        | 'E' => some '\x1b' | '\\' => some '\\'
        | _ => none
      match simple with
      | some ch => ch :: go rest fuel
      | none =>
        if c == 'x' || c == 'u' || c == 'U' then
          let max := if c == 'u' then 4 else if c == 'U' then 8 else 2
          let (count, v, after) := takeDigits hexValue 16 max rest 0 0
          if count == 0 then '\\' :: c :: go rest fuel
          else if v == 0 then []
          else Char.ofNat v :: go after fuel
        else if (octValue c).isSome then
          let (_, v, after) := takeDigits octValue 8 3 (c :: rest) 0 0
          let v := if v > 255 then 255 else v
          if v == 0 then [] else Char.ofNat v :: go after fuel
        else '\\' :: c :: go rest fuel
    | ['\\'], _ => []
    | c :: rest, fuel + 1 => c :: go rest fuel

/-- The reserved words, which `@Q` quotes. -/
def reservedWords : List String :=
  ["!", "\x7b", "\x7d", "[[", "]]", "case", "do", "done", "elif", "else", "esac", "fi", "for",
   "function", "if", "in", "select", "then", "time", "until", "while"]

def isPrintableChar (c : Char) : Bool :=
  let n := c.toNat
  !(n < 32 || n == 127 || (128 ≤ n && n < 160))

def hexByte (n : Nat) : String :=
  let d (k : Nat) : Char := if k < 10 then Char.ofNat (48 + k) else Char.ofNat (87 + k)
  String.ofList [d (n / 16 % 16), d (n % 16)]

/-- `${x@Q}`: the value quoted so that the shell reads it back as one word. -/
def quoteForShell (s : String) : String :=
  if s.isEmpty then "''"
  else
    let cs := s.toList
    let special (i : Nat) (c : Char) : Bool :=
      ";\"'()$|&><\x60 \t\r\n\\\x7b*?[=".contains c || (i == 0 && (c == '#' || c == '~'))
    let shellChars := cs.zipIdx.any fun (c, i) => special i c
    let unprintable := cs.any fun c => !isPrintableChar c
    if !shellChars && !unprintable && !reservedWords.contains s then s
    else if unprintable then
      "$'" ++ String.join (cs.map fun c =>
        if c == '\\' || c == '\'' then "\\" ++ c.toString
        else if isPrintableChar c then c.toString
        else match c with
          | '\x07' => "\\a" | '\x08' => "\\b" | '\x0c' => "\\f" | '\n' => "\\n"
          | '\r' => "\\r" | '\t' => "\\t" | '\x0b' => "\\v"
          | _ => "\\x" ++ hexByte c.toNat) ++ "'"
    else if !cs.contains '\'' then "'" ++ s ++ "'"
    else
      "\"" ++ String.join (cs.map fun c =>
        if c == '"' || c == '\\' || c == '\x60' || c == '$' then "\\" ++ c.toString
        else c.toString) ++ "\""

/-- `${x@E}`: decodes escapes the way a quoted literal of the implementation language
does; an escape it does not know ends the text with a character of code 0. -/
def expandEscapes (s : String) : String :=
  String.ofList (go s.toList s.length)
where
  go : List Char → Nat → List Char
    | [], _ => []
    | _, 0 => []
    | '\\' :: c :: rest, fuel + 1 =>
      let simple : Option Char := match c with
        | 'a' => some '\x07' | 'b' => some '\x08' | 'f' => some '\x0c' | 'n' => some '\n'
        | 'r' => some '\r' | 't' => some '\t' | 'v' => some '\x0b' | '\\' => some '\\'
        | _ => none
      match simple with
      | some ch => ch :: go rest fuel
      | none =>
        if c == 'x' || c == 'u' || c == 'U' then
          let width := if c == 'u' then 4 else if c == 'U' then 8 else 2
          let (count, v, after) := takeDigits hexValue 16 width rest 0 0
          if count < width then ['\x00']
          else if c != 'x' && (v > 0x10FFFF || (0xD800 ≤ v && v ≤ 0xDFFF)) then ['\x00']
          else Char.ofNat v :: go after fuel
        else if (octValue c).isSome then
          let (count, v, after) := takeDigits octValue 8 3 (c :: rest) 0 0
          if count < 3 || v > 255 then ['\x00'] else Char.ofNat v :: go after fuel
        else ['\x00']
    | ['\\'], _ => ['\x00']
    | c :: rest, fuel + 1 => c :: go rest fuel

/-! ## Integers -/

/-- Wraps an integer to the 64-bit range. -/
def wrap64 (x : Int) : Int := (Int64.ofInt x).toInt

def minInt64 : Int := -9223372036854775808
def maxInt64 : Int := 9223372036854775808 - 1

/-- A decimal number with an optional sign, clamped to the 64-bit range. -/
def parseDecimal? (s : String) : Option Int :=
  let (neg, digits) := match s.toList with
    | '-' :: r => (true, r)
    | '+' :: r => (false, r)
    | r => (false, r)
  if digits.isEmpty || !digits.all Char.isDigit then none
  else
    let v : Int := digits.foldl (fun acc c => acc * 10 + (c.toNat - '0'.toNat)) 0
    let v := if neg then -v else v
    some (if v < minInt64 then minInt64 else if v > maxInt64 then maxInt64 else v)

def isBlank (c : Char) : Bool := c == ' ' || c == '\t' || c == '\n' || c == '\r' || c == '\x0b' || c == '\x0c'

def trimBlanks (s : String) : String :=
  String.ofList ((s.toList.dropWhile isBlank).reverse.dropWhile isBlank).reverse

/-- An arithmetic operand's text as a number: 0 unless it is decimal. -/
def arithNumber (s : String) : Int := (parseDecimal? (trimBlanks s)).getD 0

/-- `a ** b`, wrapping; a negative exponent gives 1. -/
def powWrap (a : Int) (b : Int) : Int :=
  go 64 (wrap64 a) b.toNat 1
where
  go : Nat → Int → Nat → Int → Int
    | 0, _, _, p => p
    | fuel + 1, a, b, p =>
      if b == 0 then p
      else go fuel (wrap64 (a * a)) (b / 2) (if b % 2 == 1 then wrap64 (p * a) else p)

def oneIf (b : Bool) : Int := if b then 1 else 0

def shiftLeft (x y : Int) : Int :=
  if y < 0 || y ≥ 64 then 0 else wrap64 (x * Int.pow 2 y.toNat)

def shiftRight (x y : Int) : Int :=
  if y < 0 || y ≥ 64 then (if x < 0 then -1 else 0) else x >>> y.toNat

def bitwise (f : Int64 → Int64 → Int64) (x y : Int) : Int := (f (Int64.ofInt x) (Int64.ofInt y)).toInt

/-- A binary operator applied to two values. -/
def binArith (op : ArithOp) (x y : Int) : ExpandM Int :=
  match op with
  | .add => pure (wrap64 (x + y))
  | .sub => pure (wrap64 (x - y))
  | .mul => pure (wrap64 (x * y))
  | .quo => if y == 0 then throw "division by zero" else pure (wrap64 (x.tdiv y))
  | .rem => if y == 0 then throw "division by zero" else pure (wrap64 (x.tmod y))
  | .pow => pure (powWrap x y)
  | .eql => pure (oneIf (x == y))
  | .gtr => pure (oneIf (x > y))
  | .lss => pure (oneIf (x < y))
  | .neq => pure (oneIf (x != y))
  | .leq => pure (oneIf (x ≤ y))
  | .geq => pure (oneIf (x ≥ y))
  | .band => pure (bitwise (· &&& ·) x y)
  | .bor => pure (bitwise (· ||| ·) x y)
  | .bxor => pure (bitwise (· ^^^ ·) x y)
  | .shl => pure (shiftLeft x y)
  | .shr => pure (shiftRight x y)
  | .land => pure (oneIf (x != 0 && y != 0))
  | .lor => pure (oneIf (x != 0 || y != 0))
  | _ => pure y

def isAssignOp : ArithOp → Bool
  | .assign | .addAssign | .subAssign | .mulAssign | .quoAssign | .remAssign | .andAssign
  | .orAssign | .xorAssign | .shlAssign | .shrAssign => true
  | _ => false

/-- The literal text of an index or operand word, when it is one. -/
def Arith.literal? : Arith → Option String
  | .word w => Word.literal? w
  | _ => none

/-! ## Expansion -/

inductive Quoting where
  | none | single | double
  deriving DecidableEq, Repr

/-- A piece of a field and how it was quoted. -/
structure Piece where
  text : String
  quoting : Quoting
  deriving Repr

def joinPieces (ps : List Piece) : String := String.join (ps.map (·.text))

/-- The names of all variables that start with a prefix, sorted. -/
def namesWithPrefix (sc : Scope) (pre : String) : List String :=
  (sc.vars.all.map fun e => (splitPair e).1).filter (·.startsWith pre)

/-- Follows an operand through variables: while it is a name whose value is not empty,
it stands for that value (at most a hundred times). -/
def followNames (sc : Scope) (s : String) : String :=
  go 100 s
where
  go : Nat → String → String
    | 0, s => s
    | fuel + 1, s =>
      if validName s then
        let v := sc.get s
        if v.isEmpty then s else if fuel == 0 then s else go fuel v
      else s

/-- Cuts a text as `${x:offset:length}` does: a negative position counts from the end. -/
def slicePos (len : Nat) (k : Int) : Nat :=
  if k < 0 then
    let m := (len : Int) + k
    if m < 0 then len else m.toNat
  else if k > len then len else k.toNat

def tooDeep {α : Type} : ExpandM α := throw "expansion nests too deeply"

mutual

/-- The value of a parameter expansion. -/
def paramValue (n : Nat) (sc : Scope) (p : Param) : ExpandM String :=
  match n with
  | 0 => tooDeep
  | n + 1 => do
    let .mk name pos length excl names index sliced offset count action := p
    let v : Option String := if name == "LINENO" then some (toString pos.line) else sc.lookup name
    let isSet := v.isSome
    let off ← if sliced then offset.mapM (arith n sc) else pure none
    let cnt ← if sliced then count.mapM (arith n sc) else pure none
    let index := if name == "@" || name == "*" then some (Arith.word [.lit name]) else index
    let idxLit := index.bind Arith.literal?
    let allIndex := idxLit == some "@" || idxLit == some "*"
    let str ← match index, v with
      | none, _ => pure (v.getD "")
      | some _, none => pure ""
      | some ix, some value => do
        let k ← arith n sc ix
        pure (if k == 0 then value else "")
    let elems : List String := if allIndex && !isSet then [] else [str]
    if length then
      return toString (if allIndex then elems.length else str.length)
    if excl then
      if names then return " ".intercalate (namesWithPrefix sc name)
      if !validName str then throw "invalid indirect expansion"
      return sc.get str
    if sliced then
      let s1 := match off with
        | some o => String.ofList (str.toList.drop (slicePos str.length o))
        | none => str
      return match cnt with
        | some c => String.ofList (s1.toList.take (slicePos s1.length c))
        | none => s1
    match action with
    | .none => return str
    | .replace pat rep all =>
      let orig ← patternText n sc pat
      if orig.isEmpty then return str
      let w ← literal n sc rep
      return replaceMatches orig str w all
    | .apply op word =>
      let arg ← literal n sc word
      let unsetErr : ExpandM String := throw (name ++ ": " ++ arg)
      let readOnly : ExpandM String := throw "environment is read-only"
      match op with
      | .altUnsetOrNull => return if str.isEmpty then str else if isSet then arg else str
      | .altUnset => return if isSet then arg else str
      | .defaultUnset => return if isSet then str else if str.isEmpty then arg else str
      | .defaultUnsetOrNull => return if str.isEmpty then arg else str
      | .errorUnset => if isSet then return str else if str.isEmpty then unsetErr else return str
      | .errorUnsetOrNull => if str.isEmpty then unsetErr else return str
      | .assignUnset => if isSet then return str else if str.isEmpty then readOnly else return str
      | .assignUnsetOrNull => if str.isEmpty then readOnly else return str
      | .removeSmallPrefix => return " ".intercalate (elems.map (removePrefix arg · false))
      | .removeLargePrefix => return " ".intercalate (elems.map (removePrefix arg · true))
      | .removeSmallSuffix => return " ".intercalate (elems.map (removeSuffix arg · false))
      | .removeLargeSuffix => return " ".intercalate (elems.map (removeSuffix arg · true))
      | .upperFirst => return " ".intercalate (elems.map (changeCase arg · true false))
      | .upperAll => return " ".intercalate (elems.map (changeCase arg · true true))
      | .lowerFirst => return " ".intercalate (elems.map (changeCase arg · false false))
      | .lowerAll => return " ".intercalate (elems.map (changeCase arg · false true))
      | .transform =>
        return if arg == "Q" then quoteForShell str
          else if arg == "E" then expandEscapes str
          else str

/-- The value of an arithmetic expression. -/
def arith (n : Nat) (sc : Scope) (e : Arith) : ExpandM Int :=
  match n with
  | 0 => tooDeep
  | n + 1 =>
    match e with
    | .word w => do
      let s ← literal n sc w
      return arithNumber (followNames sc s)
    | .paren x => arith n sc x
    | .unary op _ x =>
      match op with
      | .inc | .dec => throw "environment is read-only"
      | _ => do
        let v ← arith n sc x
        return match op with
          | .not => oneIf (v == 0)
          | .bitNot => wrap64 (-v - 1)
          | .minus => wrap64 (-v)
          | _ => v
    | .binary op x y =>
      if isAssignOp op then do
        let arg ← arith n sc y
        if (op == .quoAssign || op == .remAssign) && arg == 0 then throw "division by zero"
        throw "environment is read-only"
      else if op == .ternary then do
        let c ← arith n sc x
        match y with
        | .binary .choice a b => if c == 1 then arith n sc a else arith n sc b
        | other => arith n sc other
      else do
        let a ← arith n sc x
        let b ← arith n sc y
        binArith op a b

/-- The pieces of a word taken as one field; `dq` says it is inside double quotes. -/
def wordField (n : Nat) (sc : Scope) (dq : Bool) (w : Word) : ExpandM (List Piece) :=
  match n with
  | 0 => tooDeep
  | n + 1 => do
    let pieces ← w.zipIdx.mapM fun (p, i) => partField n sc dq (i == 0) p
    return pieces.flatten

def partField (n : Nat) (sc : Scope) (dq first : Bool) (p : WordPart) : ExpandM (List Piece) :=
  match n with
  | 0 => tooDeep
  | n + 1 =>
    match p with
    | .lit s =>
      let s := if first && !dq then expandTilde sc s else s
      return [⟨if dq then unescapeDouble s else s, .none⟩]
    | .single s dollar => return [⟨if dollar then decodeEscapes s else s, .single⟩]
    | .double parts _ => do
      let ps ← wordField n sc true parts
      return ps.map fun pc => { pc with quoting := .double }
    | .param prm => do return [⟨← paramValue n sc prm, .none⟩]
    | .command pos => throw ("unexpected command substitution at " ++ pos.render)
    | .process _ => throw "process substitution is not supported"
    | .arith e => do return [⟨toString (← arith n sc e), .none⟩]
    | .extGlob _ _ => throw "extended globbing is not supported"

/-- The one text of a word. -/
def literal (n : Nat) (sc : Scope) (w : Word) : ExpandM String :=
  match n with
  | 0 => tooDeep
  | n + 1 => joinPieces <$> wordField n sc false w

/-- A word as a pattern: quoted pieces match themselves. -/
def patternText (n : Nat) (sc : Scope) (w : Word) : ExpandM String :=
  match n with
  | 0 => tooDeep
  | n + 1 => do
    let ps ← wordField n sc false w
    return String.join (ps.map fun pc => if pc.quoting == .none then pc.text else quoteMeta pc.text)

end

/-! ## Braces -/

/-- A word with its brace expressions found: literal text, other parts, and braces with
their alternatives (or the two or three ends of a sequence). -/
inductive BracePart where
  | part (p : WordPart)
  | brace (sequence : Bool) (elems : List (List BracePart))
  deriving Repr, Inhabited

/-- The text of brace parts made only of literal text. -/
def braceLiteral? (ps : List BracePart) : Option String :=
  ps.foldr (fun p acc => match p, acc with
    | .part (.lit s), some rest => some (s ++ rest)
    | _, _ => none) (some "")

/-- An open brace while scanning: the alternatives so far, the current one, and whether
it is a sequence. -/
structure OpenBrace where
  elems : List (List BracePart) := []
  acc : List BracePart := []
  sequence : Bool := false

/-- The scanner's state: the top-level parts read so far and the open braces, innermost
first. Parts are kept in reading order. -/
structure BraceScan where
  top : List BracePart := []
  opens : List OpenBrace := []
  found : Bool := false

namespace BraceScan

def add (st : BraceScan) (ps : List BracePart) : BraceScan :=
  match st.opens with
  | [] => { st with top := st.top ++ ps }
  | o :: rest => { st with opens := { o with acc := o.acc ++ ps } :: rest }

def addText (st : BraceScan) (s : String) : BraceScan :=
  if s.isEmpty then st else st.add [.part (.lit s)]

def isLetter (s : String) : Bool :=
  match s.toList with
  | [c] => ('a' ≤ c && c ≤ 'z') || ('A' ≤ c && c ≤ 'Z')
  | _ => false

/-- Closes the innermost brace at a `}`. One alternative is plain text again; a sequence
whose ends are not both numbers or both letters, or whose step is not a number, is plain
text again. -/
def close (st : BraceScan) : BraceScan :=
  match st.opens with
  | [] => st
  | o :: rest =>
    let st := { st with opens := rest, found := true }
    let elems := o.elems ++ [o.acc]
    match elems with
    | [only] => (st.addText "\x7b").add only |>.addText "\x7d"
    | _ =>
      if !o.sequence then st.add [.brace false elems]
      else
        let kinds := (elems.take 2).map fun e =>
          match braceLiteral? e with
          | some s => if (parseDecimal? s).isSome then some false else if isLetter s then some true else none
          | none => none
        let stepOk := match elems with
          | [_, _, e] => match braceLiteral? e with
            | some s => (parseDecimal? s).isSome
            | none => false
          | _ => true
        let broken := kinds.any (·.isNone) || !stepOk || kinds[0]? != kinds[1]?
        if !broken then st.add [.brace true elems]
        else
          let st := st.addText "\x7b"
          let st := elems.zipIdx.foldl (fun st (e, i) =>
            (if i > 0 then st.addText ".." else st).add e) st
          st.addText "\x7d"

/-- Scans one literal part for braces. -/
def scanText (st : BraceScan) (cs : List Char) (pending : List Char) : BraceScan :=
  match cs with
  | [] => st.addText (String.ofList pending.reverse)
  | '\x7b' :: rest =>
    let st := st.addText (String.ofList pending.reverse)
    scanText { st with opens := {} :: st.opens } rest []
  | ',' :: rest =>
    match st.opens with
    | [] => scanText st rest (',' :: pending)
    | _ =>
      let st := st.addText (String.ofList pending.reverse)
      match st.opens with
      | o :: more => scanText { st with opens := { o with elems := o.elems ++ [o.acc], acc := [] } :: more } rest []
      | [] => scanText st rest []
  | '.' :: '.' :: rest =>
    match st.opens with
    | [] => scanText st ('.' :: rest) ('.' :: pending)
    | _ =>
      let st := st.addText (String.ofList pending.reverse)
      match st.opens with
      | o :: more =>
        scanText { st with opens := { o with elems := o.elems ++ [o.acc], acc := [], sequence := true } :: more } rest []
      | [] => scanText st rest []
  | '\x7d' :: rest =>
    match st.opens with
    | [] => scanText st rest ('\x7d' :: pending)
    | _ =>
      let st := st.addText (String.ofList pending.reverse)
      scanText st.close rest []
  | c :: rest => scanText st rest (c :: pending)
termination_by cs.length

/-- Braces never closed become plain text again. -/
def finish (st : BraceScan) : List BracePart :=
  go st st.opens.length
where
  go : BraceScan → Nat → List BracePart
    | st, 0 => st.top
    | st, fuel + 1 =>
      match st.opens with
      | [] => st.top
      | o :: rest =>
        let elems := o.elems ++ [o.acc]
        let st : BraceScan := { st with opens := rest }
        let st := st.addText "\x7b"
        let st := elems.zipIdx.foldl (fun st (e, i) =>
          (if i > 0 then st.addText (if o.sequence then ".." else ",") else st).add e) st
        go st fuel

end BraceScan

/-- Finds the brace expressions of a word; `none` when it has none. -/
def splitBraces (w : Word) : Option (List BracePart) :=
  let st := w.foldl (fun st p =>
    match p with
    | .lit s => st.scanText s.toList []
    | other => st.add [.part other]) ({} : BraceScan)
  if st.found then some st.finish else none

/-- Leading zeros of a sequence start beyond the first digit: `05` has one. -/
def extraZeros (s : String) : Nat :=
  let cs := s.toList
  match cs.findIdx? (· != '0') with
  | some i => i
  | none => 0

def zeroPad (width : Nat) (v : Int) : String :=
  let digits := toString v.natAbs
  let body := String.ofList (List.replicate (width - (digits.length + (if v < 0 then 1 else 0))) '0') ++ digits
  if v < 0 then "-" ++ body else body

/-- The texts of a sequence `{a..b}` or `{a..b..step}`. -/
def sequenceTexts (elems : List (List BracePart)) : List String :=
  let fromLit := (elems[0]?.bind braceLiteral?).getD ""
  let toLit := (elems[1]?.bind braceLiteral?).getD ""
  let zeros := extraZeros fromLit
  let (chars, lo, hi) : Bool × Int × Int :=
    match parseDecimal? fromLit, parseDecimal? toLit with
    | some a, some b => (false, a, b)
    | _, _ => (true, ((fromLit.toList.headD ' ').toNat : Int), ((toLit.toList.headD ' ').toNat : Int))
  let upward := lo ≤ hi
  let step : Int := match elems[2]? with
    | some e =>
      let k := ((braceLiteral? e).bind parseDecimal?).getD 0
      if k != 0 && (k > 0) == upward then k else 1
    | none => 1
  let step := if upward then step else -step
  let count := ((hi - lo).natAbs / (step.natAbs.max 1)) + 1
  let values : List Int := (List.range count).map fun (i : Nat) => lo + step * Int.ofNat i
  let values := values.filter fun v => if upward then v ≤ hi else v ≥ hi
  values.map fun v => if chars then (Char.ofNat v.toNat).toString else zeroPad (zeros + 1) v

/-- The words a word with braces stands for, in order. -/
def expandBraces : Nat → List BracePart → List Word
  | 0, _ => []
  | _ + 1, [] => [[]]
  | n + 1, .part p :: rest => (expandBraces n rest).map (p :: ·)
  | n + 1, .brace true elems :: rest =>
    (sequenceTexts elems).flatMap fun t => (expandBraces n rest).map (.lit t :: ·)
  | n + 1, .brace false elems :: rest =>
    elems.flatMap fun e => expandBraces n (e ++ rest)

def braceSize : List BracePart → Nat
  | [] => 1
  | .part _ :: rest => 1 + braceSize rest
  | .brace _ elems :: rest => 1 + elemsSize elems + braceSize rest
where
  elemsSize : List (List BracePart) → Nat
    | [] => 0
    | e :: es => braceSize e + elemsSize es

/-! ## Fields and globbing -/

/-- Adds a value split at the separator characters to the fields: runs of separators
make no empty fields. Gives the finished fields and the field still open. -/
def splitInto (seps : String) : List Char → List (List Piece) → List Piece → List Char →
    List (List Piece) × List Piece
  | [], fs, cur, piece =>
    (fs, if piece.isEmpty then cur else cur ++ [⟨String.ofList piece.reverse, .none⟩])
  | c :: rest, fs, cur, piece =>
    if seps.contains c then
      let cur := if piece.isEmpty then cur else cur ++ [⟨String.ofList piece.reverse, .none⟩]
      let fs := if cur.isEmpty then fs else fs ++ [cur]
      splitInto seps rest fs [] []
    else splitInto seps rest fs cur (c :: piece)

/-- The fields of one word (after braces): quoted parts stay whole, unquoted parameter
values are split. Each field is a list of pieces. -/
def wordFields (n : Nat) (sc : Scope) (w : Word) : ExpandM (List (List Piece)) := do
  let seps := sc.ifs
  let step (st : List (List Piece) × List Piece × Bool) (pi : WordPart × Nat) :
      ExpandM (List (List Piece) × List Piece × Bool) := do
    let (fields, cur, allowEmpty) := st
    let (p, i) := pi
    match p with
    | .lit s =>
      let s := if i == 0 then expandTilde sc s else s
      return (fields, cur ++ [⟨dropBackslashes s, .none⟩], allowEmpty)
    | .single s dollar =>
      return (fields, cur ++ [⟨if dollar then decodeEscapes s else s, .single⟩], true)
    | .double parts _ =>
      match parts with
      | [.param (.mk "@" _ false _ _ _ _ _ _ _)] =>
        return (fields, cur, allowEmpty)
      | _ =>
        let ps ← wordField n sc true parts
        return (fields, cur ++ ps.map (fun pc => { pc with quoting := .double }), true)
    | .param prm =>
      let v ← paramValue n sc prm
      let (fs, c) := splitInto seps v.toList fields cur []
      return (fs, c, allowEmpty)
    | .command pos => throw ("unexpected command substitution at " ++ pos.render)
    | .process _ => throw "process substitution is not supported"
    | .arith e =>
      let v ← arith n sc e
      return (fields, cur ++ [⟨toString v, .none⟩], allowEmpty)
    | .extGlob _ _ => throw "extended globbing is not supported"
  let (fields, cur, allowEmpty) ← w.zipIdx.foldlM step ([], [], false)
  let fields := if cur.isEmpty then fields else fields ++ [cur]
  return if allowEmpty && fields.isEmpty then [cur] else fields

/-- `a/b` joined as globbing joins path pieces. -/
def joinTwo (a b : String) : String :=
  if a.isEmpty then b else if a.endsWith "/" then a ++ b else a ++ "/" ++ b

/-- A path relative to the globbing base, joined and cleaned. -/
def underBase (base dir : String) : String :=
  if Fs.isAbsolute dir then dir
  else if base.isEmpty && dir.isEmpty then ""
  else Fs.joinPath base dir

/-- Matches a pattern against the file tree, one path name at a time: names without
pattern characters must exist (as directories when more follow), and a name with them
is matched against the entries of each directory found so far, skipping hidden ones
unless the name starts with a dot. -/
def glob (sc : Scope) (base : String) (pat : String) : ExpandM (List String) := do
  let parts := pat.splitOn "/"
  let (start, parts) := if Fs.isAbsolute pat then (["/"], parts.drop 1) else ([""], parts)
  let last := parts.length
  parts.zipIdx.foldlM (fun sofar (part, i) => do
    let wantDir := i + 1 < last
    if part.isEmpty || part == "." || part == ".." then
      return sofar.map (joinTwo · part)
    else if !hasMeta part then
      return sofar.filter fun dir =>
        match sc.tree.readDir sc.cwd (joinTwo (underBase base dir) part) with
        | .ok _ => true
        | .error .noent => false
        | .error _ => !wantDir
    else
      match parsePattern part with
      | none => return []
      | some ps =>
        let hidden := part.startsWith "."
        sofar.foldlM (fun acc dir => do
          let full := underBase base dir
          match sc.tree.readDir sc.cwd full with
          | .error e => throw ("open " ++ full ++ ": " ++ e.message)
          | .ok names =>
            let dirPath := match sc.tree.locate sc.cwd full with
              | .ok pl => pl.path
              | .error _ => []
            let found := names.filter fun name =>
              (!wantDir || (sc.tree.node? (dirPath ++ [name])).any Fs.Node.isDir) &&
              (hidden || !name.startsWith ".") &&
              fullMatch ps name.toList
            return acc ++ found.map (joinTwo dir ·)) []) start

/-- A field as a glob pattern: quoted pieces are made plain. Gives the pattern and
whether any unquoted piece has pattern characters. -/
def globPattern (ps : List Piece) : String × Bool :=
  (String.join (ps.map fun pc => if pc.quoting == .none then pc.text else quoteMeta pc.text),
   ps.any fun pc => pc.quoting == .none && hasMeta pc.text)

/-- The fuel expansion gets: more than any parsed word nests. -/
def expandFuel : Nat := 100000

/-- The arguments that a list of words expands to. -/
def fields (sc : Scope) (ws : List Word) : ExpandM (List String) := do
  let base := sc.get "PWD"
  let out ← ws.mapM fun w => do
    let words := match splitBraces w with
      | some bs => expandBraces (braceSize bs + 1) bs
      | none => [w]
    let perWord ← words.mapM fun w2 => do
      let fs ← wordFields expandFuel sc w2
      fs.mapM fun f => do
        let (pat, isGlob) := globPattern f
        if isGlob then
          -- an invalid pattern anywhere in the path means no globbing
          let valid := (pat.splitOn "/").all fun part => !hasMeta part || (parsePattern part).isSome
          if valid then
            let ms ← glob sc base pat
            if !ms.isEmpty then return ms
        return [joinPieces f]
    return perWord.flatten.flatten
  return out.flatten

/-- The one text a word expands to. -/
def literalText (sc : Scope) (w : Word) : ExpandM String := literal expandFuel sc w

end JobShell.Script

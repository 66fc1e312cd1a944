import JobShell.Awk.Number
import JobShell.Awk.Syntax
import JobShell.Text.Printf
import JobShell.Text.Escaped
import JobShell.Regex.Match

/-!
# The awk language: values, fields and records

A value is uninitialized, a number, a text, or a text read from input that counts as a
number when it looks like one (an input field, a `getline` variable, an element made by
`split`, an `ARGV` or `ENVIRON` entry, a command-line assignment).

* As a number, a text is its numeric prefix (`"3x"` is 3).
* As a text, a number that is an integer of 64 bits is written in full; any other number
  through the format `CONVFMT` (`OFMT` when printed), `%.6g` by default; NaN and the
  infinities are `nan`, `+inf` and `-inf`.
* Two values compare as numbers when neither is a text (an input text counts as a number
  when the whole of it, blanks around it apart, is one), and else as texts.
* A value is true when it is a non-zero number, or a non-empty text; an input text that
  looks like a number is true when that number is not zero.

Lengths, positions and cuts of texts count bytes of UTF-8.

Records are read by the record separator: a line break (a carriage return before it is
dropped), an empty separator for paragraphs separated by blank lines, one character, or
else a regular expression. Fields are split by the field separator: a single blank for runs
of white space (leading and trailing ones ignored), one character literally, or else a
regular expression.
-/
namespace JobShell.Awk

open JobShell.Num

/-- A value. -/
inductive Value where
  | null
  | num (n : Float)
  | str (s : String)
  /-- a text from input, a number if it looks like one -/
  | strnum (s : String)
  deriving Repr, Inhabited

def Value.ofBool (b : Bool) : Value := .num (if b then 1 else 0)

/-- Whether a character is white space of Unicode. -/
def isSpaceChar (c : Char) : Bool :=
  let n := c.toNat
  n == 32 || (9 ≤ n && n ≤ 13) || n == 0x85 || n == 0xa0 || n == 0x1680 ||
    (0x2000 ≤ n && n ≤ 0x200a) || n == 0x2028 || n == 0x2029 || n == 0x202f ||
    n == 0x205f || n == 0x3000

/-- A text without the white space at its ends. -/
def trimSpace (s : String) : String :=
  String.ofList ((s.toList.dropWhile isSpaceChar).reverse.dropWhile isSpaceChar).reverse

/-- The number of a hexadecimal text `0x...`, with an optional point and binary exponent. -/
def hexNumber? (cs : List Char) : Option Float :=
  let digit (c : Char) : Option Nat := Regex.hexValue c
  let intPart := cs.takeWhile fun c => (digit c).isSome
  let rest := cs.drop intPart.length
  let (frac, rest) := match rest with
    | '.' :: r => let f := r.takeWhile fun c => (digit c).isSome; (f, r.drop f.length)
    | r => ([], r)
  if intPart.isEmpty && frac.isEmpty then none
  else
    let expo : Option Int := match rest with
      | [] => some 0
      | p :: r =>
        if p == 'p' || p == 'P' then
          let (neg, r) := match r with
            | '-' :: t => (true, t)
            | '+' :: t => (false, t)
            | t => (false, t)
          if !r.isEmpty && r.all Char.isDigit then
            let v : Int := (String.ofList r).toNat!
            some (if neg then -v else v)
          else none
        else none
    expo.map fun e =>
      let mant := (intPart ++ frac).foldl (fun n c => n * 16 + (digit c).getD 0) 0
      (ofNat mant).scaleB (e - 4 * frac.length)

/-- The number a whole text stands for, blanks around it apart: a decimal number, a
hexadecimal one, or an infinity or NaN by name. A decimal number too large for a double is
not one. -/
def numericText? (s : String) : Option Float :=
  let t := trimSpace s
  let cs := t.toList
  let (neg, body) := match cs with
    | '-' :: r => (true, r)
    | '+' :: r => (false, r)
    | r => (false, r)
  let signed (f : Float) : Float := if neg then -f else f
  let lower := String.ofList (body.map Char.toLower)
  if lower == "inf" || lower == "infinity" then some (signed infinity)
  else if lower == "nan" then some nan
  else
    match body with
    | '0' :: x :: hex =>
      if x == 'x' || x == 'X' then (hexNumber? hex).map signed
      else if looksNumeric t then decimal t else none
    | _ => if looksNumeric t then decimal t else none
where
  decimal (t : String) : Option Float :=
    match Num.Value.ofText? t with
    | some (.finite neg m) => some (ofExact (.finite neg m))
    | _ => none

/-- The text of a number, with a format for those that are not 64-bit integers. -/
def numberText (format : String) (n : Float) : String :=
  if n.isNaN then "nan"
  else if n.isInf then (if n > 0 then "+inf" else "-inf")
  else if isIntegral n then toString (toInt64 n)
  else if format == "%.6g" then formatG (toExact n) 6
  else Printf.format format [.float (toExact n)]

namespace Value

/-- The number of a value. -/
def toNum : Value → Float
  | .null => 0
  | .num n => n
  | .str s => numberPrefix s
  | .strnum s => numberPrefix s

/-- The text of a value, numbers written with the given format. -/
def toStr (format : String) : Value → String
  | .null => ""
  | .num n => numberText format n
  | .str s => s
  | .strnum s => s

/-- The number of a value when it counts as a number, or `none` when it is a text. -/
def numeric? : Value → Option Float
  | .null => some 0
  | .num n => some n
  | .str _ => none
  | .strnum s => numericText? s

/-- Whether a value is true. -/
def truth : Value → Bool
  | .null => false
  | .num n => n != 0
  | .str s => !s.isEmpty
  | .strnum s =>
    match numericText? s with
    | some n => n != 0
    | none => !s.isEmpty

end Value

/-- Compares two values, as numbers or as texts; `lt` and `eq` tell which order holds. -/
def compareValues (format : String) (op : BinOp) (l r : Value) : Bool :=
  match l.numeric?, r.numeric? with
  | some a, some b =>
    match op with
    | .lt => a < b
    | .le => a ≤ b
    | .gt => a > b
    | .ge => a ≥ b
    | .eq => a == b
    | _ => a != b
  | _, _ =>
    let a := l.toStr format
    let b := r.toStr format
    match op with
    | .lt => decide (a < b)
    | .le => decide (a ≤ b)
    | .gt => decide (b < a)
    | .ge => decide (b ≤ a)
    | .eq => a == b
    | _ => a != b

/-! ## Bytes of texts -/

/-- The number of bytes of a text in UTF-8. -/
def byteLength (s : String) : Nat := s.utf8ByteSize

/-- Decodes bytes of UTF-8, each malformed sequence read as U+FFFD. -/
def decodeLossy (bs : List UInt8) : String :=
  go bs.length bs []
where
  cont (b : UInt8) : Bool := b &&& 0xc0 == 0x80
  go : Nat → List UInt8 → List Char → String
    | 0, _, acc => String.ofList acc.reverse
    | _ + 1, [], acc => String.ofList acc.reverse
    | k + 1, b :: rest, acc =>
      if b < 0x80 then go k rest (Char.ofNat b.toNat :: acc)
      else
        let need := if b &&& 0xe0 == 0xc0 then 1 else if b &&& 0xf0 == 0xe0 then 2
          else if b &&& 0xf8 == 0xf0 then 3 else 0
        let tail := rest.take need
        if need > 0 && tail.length == need && tail.all cont then
          let init := if need == 1 then (b &&& 0x1f).toNat else if need == 2 then (b &&& 0x0f).toNat
            else (b &&& 0x07).toNat
          let code := tail.foldl (fun v t => v * 64 + (t &&& 0x3f).toNat) init
          let ok := (need == 1 && code ≥ 0x80) || (need == 2 && code ≥ 0x800 && !(0xd800 ≤ code && code < 0xe000)) ||
            (need == 3 && code ≥ 0x10000 && code ≤ 0x10ffff)
          if ok then go k (rest.drop need) (Char.ofNat code :: acc)
          else go k rest ((Char.ofNat 0xfffd) :: acc)
        else go k rest ((Char.ofNat 0xfffd) :: acc)

/-- The bytes of a text from `start` (from 0), `len` of them. -/
def byteSlice (s : String) (start len : Nat) : String :=
  let bs := s.toUTF8.toList
  decodeLossy ((bs.drop start).take len)

/-- Where a text first holds another, in bytes from 0. -/
def byteIndexOf (s t : String) : Option Nat :=
  let hs := s.toUTF8.toList
  go t.toUTF8.toList hs.length hs 0
where
  go (ns : List UInt8) : Nat → List UInt8 → Nat → Option Nat
    | 0, hs, i => if ns.isPrefixOf hs then some i else none
    | k + 1, hs, i =>
      if ns.isPrefixOf hs then some i
      else match hs with
        | [] => none
        | _ :: rest => go ns k rest (i + 1)

/-- The number of bytes of the first `n` characters of a list. -/
def bytesOfChars (cs : Array Char) (n : Nat) : Nat :=
  ((cs.toList.take n).map fun c => c.utf8Size).foldl (· + ·) 0

/-! ## Fields -/

/-- A text cut at white space, the runs of it at the ends ignored. -/
def splitBlank (s : String) : List String :=
  go s.toList [] []
where
  flush (cur : List Char) (acc : List String) : List String :=
    if cur.isEmpty then acc else String.ofList cur.reverse :: acc
  go : List Char → List Char → List String → List String
    | [], cur, acc => (flush cur acc).reverse
    | c :: cs, cur, acc => if isSpaceChar c then go cs [] (flush cur acc) else go cs (c :: cur) acc

/-- A text cut at each occurrence of a separator of at most one character; the empty
separator cuts between every two characters. -/
def splitLiteral (s sep : String) : List String :=
  if sep.isEmpty then s.toList.map Char.toString else s.splitOn sep

/-- The way a field separator splits a record. -/
inductive FieldSep where
  | blank
  | literal (sep : String)
  | pattern (re : Regex.Regex)
  deriving Inhabited

/-- Compiles a regular expression of the language: `.` matches a line break too. -/
def compileRegex (text : String) : Except String Regex.Regex :=
  (Regex.Regex.compile ("(?s)" ++ text)).mapError fun e =>
    "invalid regex " ++ Text.quoted text ++ ": " ++ e.message

/-- The splitting of a field separator, or the error of a bad expression. -/
def FieldSep.ofText (fs : String) : Except String FieldSep :=
  if fs == " " then .ok .blank
  else if fs.length ≤ 1 then .ok (.literal fs)
  else (compileRegex fs).map .pattern

/-- The fields of a record. -/
def FieldSep.split (sep : FieldSep) (line : String) : List String :=
  match sep with
  | .blank => splitBlank line
  | .literal fs => if line.isEmpty then [] else splitLiteral line fs
  | .pattern re => if line.isEmpty then [] else re.split line

/-! ## Records -/

/-- How records are cut from input. -/
inductive RecordSep where
  | lines
  | paragraphs
  | char (c : Char)
  | pattern (re : Regex.Regex)
  deriving Inhabited

/-- The cutting of a record separator, or the error of a bad expression. -/
def RecordSep.ofText (rs : String) : Except String RecordSep :=
  match rs.toList with
  | ['\n'] => .ok .lines
  | [] => .ok .paragraphs
  | [c] => if c.toNat < 0x80 then .ok (.char c) else (compileRegex rs).map .pattern
  | _ => (compileRegex rs).map .pattern

/-- Drops one carriage return at the end. -/
def dropCR (cs : List Char) : List Char :=
  match cs.getLast? with
  | some '\r' => cs.dropLast
  | _ => cs

/-- Where the first blank line is: the end of the record before it and the start of what
follows the run of line breaks. -/
def paragraphEnd (cs : List Char) : Option (Nat × Nat) :=
  go cs.length cs 0
where
  breaks (cs : List Char) : Nat := (cs.takeWhile fun c => c == '\n' || c == '\r').length
  go : Nat → List Char → Nat → Option (Nat × Nat)
    | 0, _, _ => none
    | k + 1, cs, i =>
      match cs with
      | '\n' :: '\n' :: rest => some (i, i + 2 + breaks rest)
      | '\n' :: '\r' :: '\n' :: rest => some (i, i + 3 + breaks rest)
      | _ :: rest => go k rest (i + 1)
      | [] => none

/-- Cuts the next record from input: the record and what is left, or `none` at the end. -/
def RecordSep.next (sep : RecordSep) (data : List Char) : Option (String × List Char) :=
  match sep with
  | .lines =>
    if data.isEmpty then none
    else
      let line := data.takeWhile (· != '\n')
      some (String.ofList (dropCR line), data.drop (line.length + 1))
  | .char c =>
    if data.isEmpty then none
    else
      let rec_ := data.takeWhile (· != c)
      some (String.ofList rec_, data.drop (rec_.length + 1))
  | .paragraphs =>
    let start := (data.takeWhile fun c => c == '\n' || c == '\r').length
    let body := data.drop start
    if body.isEmpty then none
    else
      match paragraphEnd body with
      | some (e, next) => some (String.ofList (body.take e), body.drop next)
      | none =>
        let last := match body.getLast? with
          | some '\n' => body.dropLast
          | _ => body
        some (String.ofList last, [])
  | .pattern re =>
    if data.isEmpty then none
    else
      let input := data.toArray
      match nonEmptyMatch re input with
      | some (a, b) => some (String.ofList (data.take a), data.drop b)
      | none => some (String.ofList data, [])
where
  /-- The first match, unless it is empty. -/
  nonEmptyMatch (re : Regex.Regex) (input : Array Char) : Option (Nat × Nat) :=
    match re.searchFrom input 0 with
    | some (a, b) => if a == b then none else some (a, b)
    | none => none

end JobShell.Awk

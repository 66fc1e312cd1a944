import JobShell.Json.Value
import JobShell.Text.Escaped

/-!
# Reading JSON text

`JsonValue.read` accepts exactly the JSON grammar: one value, blanks (space, tab, line
feed, carriage return) around tokens, nothing after. A syntax error names the first
character that cannot continue the text and what was expected at that point, or says
that the text ended early; the wording is fixed by `JsonSyntaxError.message`.
-/
namespace JobShell

/-- Where the reader stood when it met a character it could not take. -/
inductive JsonContext where
  | valueStart
  | keyStart
  | afterKey
  | afterMember
  | afterItem
  | afterTop
  | inString
  | inEscape
  | inUnicodeEscape
  | inNumber
  | afterDecimalPoint
  | inExponent
  | inLiteral (word : String) (expected : Char)
  deriving DecidableEq, Repr

inductive JsonSyntaxError where
  | unexpectedEnd
  | invalidChar (c : Char) (ctx : JsonContext)
  deriving DecidableEq, Repr

namespace JsonSyntaxError

/-- The first byte of a character's UTF-8 encoding. -/
def leadByte (c : Char) : Nat :=
  let n := c.toNat
  if n < 0x80 then n
  else if n < 0x800 then 0xC0 + n / 64
  else if n < 0x10000 then 0xE0 + n / 4096
  else 0xF0 + n / 262144

/-- A character in single quotes, as messages show it: its first encoded byte read as a
code point, escaped like quoted text, with the single quote itself escaped. -/
def showChar (c : Char) : String :=
  let b := Char.ofNat (leadByte c)
  if b == '\'' then "'\\''"
  else if b == '"' then "'\"'"
  else "'" ++ Text.escapeChar b ++ "'"

def contextText : JsonContext → String
  | .valueStart => "looking for beginning of value"
  | .keyStart => "looking for beginning of object key string"
  | .afterKey => "after object key"
  | .afterMember => "after object key:value pair"
  | .afterItem => "after array element"
  | .afterTop => "after top-level value"
  | .inString => "in string literal"
  | .inEscape => "in string escape code"
  | .inUnicodeEscape => "in \\u hexadecimal character escape"
  | .inNumber => "in numeric literal"
  | .afterDecimalPoint => "after decimal point in numeric literal"
  | .inExponent => "in exponent of numeric literal"
  | .inLiteral word expected => "in literal " ++ word ++ " (expecting " ++ showChar expected ++ ")"

def message : JsonSyntaxError → String
  | .unexpectedEnd => "unexpected end of JSON input"
  | .invalidChar c ctx => "invalid character " ++ showChar c ++ " " ++ contextText ctx

end JsonSyntaxError

namespace JsonRead

abbrev Result (α : Type) := Except JsonSyntaxError (α × List Char)

def isBlank (c : Char) : Bool := c == ' ' || c == '\t' || c == '\n' || c == '\r'

def skipBlanks : List Char → List Char
  | [] => []
  | c :: cs => if isBlank c then skipBlanks cs else c :: cs

def fail {α : Type} (c : Char) (ctx : JsonContext) : Result α := .error (.invalidChar c ctx)

/-- Matches the rest of a literal word after its first letter. -/
def literal (word : String) : List Char → List Char → Except JsonSyntaxError (List Char)
  | [], rest => .ok rest
  | _ :: _, [] => .error .unexpectedEnd
  | w :: ws, c :: cs => if c == w then literal word ws cs else .error (.invalidChar c (.inLiteral word w))

def hexValue (c : Char) : Option Nat :=
  if '0' ≤ c && c ≤ '9' then some (c.toNat - '0'.toNat)
  else if 'a' ≤ c && c ≤ 'f' then some (c.toNat - 'a'.toNat + 10)
  else if 'A' ≤ c && c ≤ 'F' then some (c.toNat - 'A'.toNat + 10)
  else none

/-- The value of four hex digits. -/
def hex4? (a b c d : Char) : Option Nat := do
  let x ← hexValue a
  let y ← hexValue b
  let z ← hexValue c
  let w ← hexValue d
  pure (((x * 16 + y) * 16 + z) * 16 + w)

/-- The error for a `\u` escape that lacks four hex digits: the first character that is
none, else the early end. -/
def hexError : List Char → Nat → JsonSyntaxError
  | _, 0 => .unexpectedEnd
  | [], _ => .unexpectedEnd
  | c :: cs, n + 1 => if (hexValue c).isSome then hexError cs n else .invalidChar c .inUnicodeEscape

/-- The character a single-letter escape stands for. -/
def simpleEscape : Char → Option Char
  | '"' => some '"'
  | '\\' => some '\\'
  | '/' => some '/'
  | 'b' => some '\x08'
  | 'f' => some '\x0c'
  | 'n' => some '\n'
  | 'r' => some '\r'
  | 't' => some '\t'
  | _ => none

def replacement : Char := Char.ofNat 0xFFFD

/-- The body of a string after its opening quote, up to and without the closing quote.
A high and a low surrogate escape in a row make one character; any other surrogate
becomes U+FFFD. -/
def stringBody (acc : List Char) : List Char → Result String
  | [] => .error .unexpectedEnd
  | '"' :: rest => .ok (String.ofList acc.reverse, rest)
  | '\\' :: 'u' :: a :: b :: c :: d :: rest =>
    match hex4? a b c d with
    | none => .error (hexError [a, b, c, d] 4)
    | some n =>
      if 0xD800 ≤ n && n < 0xE000 then
        match _hr : rest with
        | '\\' :: 'u' :: e :: f :: g :: h :: more =>
          match hex4? e f g h with
          | some m =>
            if 0xD800 ≤ n && n < 0xDC00 && 0xDC00 ≤ m && m < 0xE000 then
              stringBody (Char.ofNat (0x10000 + (n - 0xD800) * 1024 + (m - 0xDC00)) :: acc) more
            else stringBody (replacement :: acc) rest
          | none => stringBody (replacement :: acc) rest
        | _ => stringBody (replacement :: acc) rest
      else stringBody (Char.ofNat n :: acc) rest
  | '\\' :: 'u' :: rest => .error (hexError rest 4)
  | '\\' :: e :: rest =>
    match simpleEscape e with
    | some ch => stringBody (ch :: acc) rest
    | none => fail e .inEscape
  | '\\' :: [] => .error .unexpectedEnd
  | c :: rest =>
    if c.toNat < 0x20 then fail c .inString else stringBody (c :: acc) rest
termination_by cs => cs.length
decreasing_by all_goals (simp_all; try omega)

def isDigit (c : Char) : Bool := '0' ≤ c && c ≤ '9'

/-- The digits that continue a number. -/
def digitRun : List Char → List Char × List Char
  | c :: cs => if isDigit c then let (d, r) := digitRun cs; (c :: d, r) else ([], c :: cs)
  | [] => ([], [])

/-- The exponent part after `e` or `E`: an optional sign and at least one digit. -/
def exponent (cs : List Char) : Result (List Char) :=
  let (sign, cs) := match cs with
    | '+' :: r => (['+'], r)
    | '-' :: r => (['-'], r)
    | r => ([], r)
  match cs with
  | [] => .error .unexpectedEnd
  | c :: _ =>
    if isDigit c then let (d, r) := digitRun cs; .ok (sign ++ d, r)
    else fail c .inExponent

/-- The part after the integer digits: an optional fraction, then an optional exponent. -/
def numberTail (cs : List Char) : Result (List Char) :=
  let afterFraction : Result (List Char) := match cs with
    | '.' :: r =>
      match r with
      | [] => .error .unexpectedEnd
      | c :: _ =>
        if isDigit c then let (d, r) := digitRun r; .ok ('.' :: d, r)
        else fail c .afterDecimalPoint
    | r => .ok ([], r)
  match afterFraction with
  | .error e => .error e
  | .ok (frac, r) =>
    match r with
    | e :: r' =>
      if e == 'e' || e == 'E' then
        match exponent r' with
        | .ok (x, r'') => .ok (frac ++ e :: x, r'')
        | .error err => .error err
      else .ok (frac, r)
    | [] => .ok (frac, [])

/-- A number literal: optional minus, `0` or a digit run not starting with `0`, then the
tail. -/
def number (cs : List Char) : Result String :=
  let (neg, cs) := match cs with
    | '-' :: r => (['-'], r)
    | r => ([], r)
  match cs with
  | [] => .error .unexpectedEnd
  | c :: r =>
    let intPart : Option (List Char × List Char) :=
      if c == '0' then some (['0'], r)
      else if isDigit c then some (digitRun (c :: r))
      else none
    match intPart with
    | none => fail c .inNumber
    | some (digits, r) =>
      match numberTail r with
      | .ok (tail, rest) => .ok (String.ofList (neg ++ digits ++ tail), rest)
      | .error e => .error e

mutual

/-- One value after optional blanks. The fuel bounds the nesting depth. -/
def value : Nat → List Char → Result JsonValue
  | 0, _ => .error .unexpectedEnd
  | fuel + 1, cs =>
    match skipBlanks cs with
    | [] => .error .unexpectedEnd
    | '{' :: rest => members fuel [] true rest
    | '[' :: rest => items fuel [] true rest
    | '"' :: rest => (stringBody [] rest).map fun (s, r) => (.string s, r)
    | 't' :: rest => (literal "true" "rue".toList rest).map fun r => (.bool true, r)
    | 'f' :: rest => (literal "false" "alse".toList rest).map fun r => (.bool false, r)
    | 'n' :: rest => (literal "null" "ull".toList rest).map fun r => (.null, r)
    | c :: rest =>
      if c == '-' || isDigit c then (number (c :: rest)).map fun (n, r) => (.number n, r)
      else fail c .valueStart

/-- The members of an object after `{`, or after a comma when `first` is false. -/
def members : Nat → List (String × JsonValue) → Bool → List Char → Result JsonValue
  | 0, _, _, _ => .error .unexpectedEnd
  | fuel + 1, acc, first, cs =>
    match skipBlanks cs with
    | [] => .error .unexpectedEnd
    | '}' :: rest => if first then .ok (.object [], rest) else fail '}' .keyStart
    | '"' :: rest =>
      match stringBody [] rest with
      | .error e => .error e
      | .ok (key, rest) =>
        match skipBlanks rest with
        | [] => .error .unexpectedEnd
        | ':' :: rest =>
          match value fuel rest with
          | .error e => .error e
          | .ok (v, rest) =>
            let acc := (key, v) :: acc
            match skipBlanks rest with
            | [] => .error .unexpectedEnd
            | ',' :: rest => members fuel acc false rest
            | '}' :: rest => .ok (.object acc.reverse, rest)
            | c :: _ => fail c .afterMember
        | c :: _ => fail c .afterKey
    | c :: _ => fail c .keyStart

/-- The items of an array after `[`, or after a comma when `first` is false. -/
def items : Nat → List JsonValue → Bool → List Char → Result JsonValue
  | 0, _, _, _ => .error .unexpectedEnd
  | fuel + 1, acc, first, cs =>
    match skipBlanks cs with
    | [] => .error .unexpectedEnd
    | ']' :: rest => if first then .ok (.array [], rest) else fail ']' .valueStart
    | _ =>
      match value fuel cs with
      | .error e => .error e
      | .ok (v, rest) =>
        let acc := v :: acc
        match skipBlanks rest with
        | [] => .error .unexpectedEnd
        | ',' :: rest => items fuel acc false rest
        | ']' :: rest => .ok (.array acc.reverse, rest)
        | c :: _ => fail c .afterItem

end

end JsonRead

namespace JsonValue

/-- Reads one JSON value that fills the whole text. -/
def read (text : String) : Except JsonSyntaxError JsonValue :=
  let cs := text.toList
  match JsonRead.value (cs.length + 1) cs with
  | .error e => .error e
  | .ok (v, rest) =>
    match JsonRead.skipBlanks rest with
    | [] => .ok v
    | c :: _ => .error (.invalidChar c .afterTop)

end JsonValue

end JobShell

import JobShell.Num.Binary64

/-!
# Plain scalars

A plain (unquoted) YAML scalar is typed by the YAML 1.1 rules, and its first character
decides what it may be:

* the words `~`, `null`, `Null`, `NULL` and the empty text are null;
* `y`, `yes`, `on`, `true` and `n`, `no`, `off`, `false`, each also capitalised or in
  capitals, are booleans;
* `.inf`, `-.inf`, `.nan` and their capitalised forms are the special floats;
* a text starting with a digit or a sign is a date (`2001-12-14`), an integer (with
  `_` ignored, and `0x`, `0o`, `0b` or a leading `0` choosing the base; it must fit 64
  bits), or a float in decimal notation that does not overflow;
* a text starting with `.` may be a float;
* anything else is text.

A date read into an untyped value stays its text; it is told apart only so that a
writer knows to quote it.
-/
namespace JobShell.Yaml

open JobShell.Num

/-- A YAML scalar after typing. -/
inductive Scalar where
  | null
  | bool (b : Bool)
  | int (n : Int)
  | float (v : Num.Value)
  /-- A date, kept as its text. -/
  | time (text : String)
  | str (s : String)
  deriving Repr, Inhabited

def nullWords : List String := ["", "~", "null", "Null", "NULL"]
def trueWords : List String := ["y", "Y", "yes", "Yes", "YES", "true", "True", "TRUE", "on", "On", "ON"]
def falseWords : List String := ["n", "N", "no", "No", "NO", "false", "False", "FALSE", "off", "Off", "OFF"]

/-- The value of a digit in bases up to 36. -/
def digitValue (c : Char) : Nat :=
  if '0' ≤ c && c ≤ '9' then c.toNat - '0'.toNat
  else if 'a' ≤ c && c ≤ 'z' then c.toNat - 'a'.toNat + 10
  else if 'A' ≤ c && c ≤ 'Z' then c.toNat - 'A'.toNat + 10
  else 99

/-- The number the digits spell in a base, when they all are digits of it. -/
def digitsIn (base : Nat) (cs : List Char) : Option Nat :=
  if cs.isEmpty then none
  else cs.foldlM (fun acc c =>
    let d := digitValue c
    if d < base then some (acc * base + d) else none) 0

/-- The magnitude of an integer literal whose base is told by its prefix: `0x`, `0o`,
`0b`, a leading `0` for octal, or else decimal. -/
def prefixedMagnitude (cs : List Char) : Option Nat :=
  match cs with
  | '0' :: 'x' :: r | '0' :: 'X' :: r => digitsIn 16 r
  | '0' :: 'o' :: r | '0' :: 'O' :: r => digitsIn 8 r
  | '0' :: 'b' :: r | '0' :: 'B' :: r => digitsIn 2 r
  | '0' :: r@(_ :: _) => digitsIn 8 r
  | r => digitsIn 10 r

def minInt64 : Int := -9223372036854775808
def maxInt64 : Int := 9223372036854775808 - 1
def maxUInt64 : Int := 18446744073709551616 - 1

/-- An integer literal: with a sign it must fit in 64 signed bits, without one in 64
unsigned bits. -/
def parseInteger (s : String) : Option Int :=
  match s.toList with
  | '-' :: r => (prefixedMagnitude r).bind fun m =>
      let v := -(m : Int); if v ≥ minInt64 then some v else none
  | '+' :: r => (prefixedMagnitude r).bind fun m =>
      if (m : Int) ≤ maxInt64 then some m else none
  | r => (prefixedMagnitude r).bind fun m => if (m : Int) ≤ maxUInt64 then some m else none

/-- YAML's float syntax: an optional sign, digits with an optional point (or a point and
digits), and an optional exponent. -/
def isYamlFloat (s : String) : Bool :=
  let cs := match s.toList with
    | '-' :: r | '+' :: r => r
    | r => r
  let intPart := cs.takeWhile Char.isDigit
  let rest := cs.drop intPart.length
  let (mantissa, rest) := match rest with
    | '.' :: r =>
      let f := r.takeWhile Char.isDigit
      (!intPart.isEmpty || !f.isEmpty, r.drop f.length)
    | r => (!intPart.isEmpty, r)
  mantissa && match rest with
    | [] => true
    | e :: r =>
      (e == 'e' || e == 'E') &&
        (let r := match r with
          | '-' :: t | '+' :: t => t
          | t => t
         !r.isEmpty && r.all Char.isDigit)

/-- A finite double read from decimal text; text that overflows is not a number. -/
def finiteFloat? (s : String) : Option Num.Value :=
  match Value.ofText? s with
  | some (.finite neg m) => some (.finite neg m)
  | _ => none

/-- Whether a year is a leap year. -/
def isLeap (y : Nat) : Bool := (y % 4 == 0 && y % 100 != 0) || y % 400 == 0

/-- The days of a month. -/
def monthDays (y m : Nat) : Nat :=
  if m == 2 then (if isLeap y then 29 else 28)
  else if m == 4 || m == 6 || m == 9 || m == 11 then 30 else 31

/-- Two digits. -/
def pad2 (n : Nat) : String := if n < 10 then "0" ++ toString n else toString n

/-- Whether a text is a date `YYYY-M-D`, with a month and a day of one or two digits
that name a day of the calendar. -/
def isDate (s : String) : Bool :=
  match s.splitOn "-" with
  | [y, m, d] =>
    let okNum (t : String) (lo hi : Nat) := lo ≤ t.length && t.length ≤ hi && t.all Char.isDigit
    if okNum y 4 4 && okNum m 1 2 && okNum d 1 2 then
      let (yv, mv, dv) := (y.toNat!, m.toNat!, d.toNat!)
      1 ≤ mv && mv ≤ 12 && 1 ≤ dv && dv ≤ monthDays yv mv
    else false
  | _ => false

/-- Whether a text is a sexagesimal number such as `1:20` or `-3:25:45.5`, which YAML
1.1 readers take for a float. -/
def isBase60Float (s : String) : Bool :=
  let cs := match s.toList with
    | '-' :: r | '+' :: r => r
    | r => r
  match cs with
  | c :: _ =>
    c.isDigit &&
      (let head := cs.takeWhile fun x => x.isDigit || x == '_'
       let rest := cs.drop head.length
       let (mantissa, frac) := match rest.findIdx? (· == '.') with
         | some i => (rest.take i, some (rest.drop (i + 1)))
         | none => (rest, none)
       let groups := (String.ofList mantissa).splitOn ":"
       let okFrac := match frac with
         | some f => f.all fun x => x.isDigit || x == '_'
         | none => true
       match groups with
       | "" :: g :: gs =>
         (g :: gs).all (fun grp =>
           let t := grp.toList
           (t.length == 1 && t.all Char.isDigit) ||
             (match t with
              | [a, b] => '0' ≤ a && a ≤ '5' && b.isDigit
              | _ => false)) && okFrac
       | _ => false)
  | [] => false

/-- Types a plain scalar. The first character decides what it may be: a word from the
tables, a number, a date, or else text. -/
def resolve (s : String) : Scalar :=
  if nullWords.contains s then .null
  else if trueWords.contains s then .bool true
  else if falseWords.contains s then .bool false
  else if [".inf", ".Inf", ".INF", "+.inf", "+.Inf", "+.INF"].contains s then .float (.inf false)
  else if ["-.inf", "-.Inf", "-.INF"].contains s then .float (.inf true)
  else if [".nan", ".NaN", ".NAN"].contains s then .float .nan
  else
    match s.toList.head? with
    | some '.' =>
      match finiteFloat? s with
      | some v => .float v
      | none => .str s
    | some c =>
      if c.isDigit || c == '-' || c == '+' then
        if isDate s then .time s
        else
          let plain := String.ofList (s.toList.filter (· != '_'))
          match parseInteger plain with
          | some n => .int n
          | none =>
            if isYamlFloat plain then
              match finiteFloat? plain with
              | some v => .float v
              | none => .str s
            else .str s
      else .str s
    | none => .null

end JobShell.Yaml

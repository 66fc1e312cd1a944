import JobShell.Num.Binary64

/-!
# Numbers of the awk language

An awk number is a double. This module joins the machine doubles (`Float`) to the exact
model of doubles in `Num` (through their bits), so that reading and writing numbers is
exact and correctly rounded, and gives the operations that need care:

* reading the numeric prefix of a text (`3x` is 3, `  1e3` is 1000, `.` is 0);
* telling whether a text is a number as a whole (for comparing input fields);
* the remainder, which is exact;
* the power, by the classic split into an integer part done by repeated squaring and a
  fractional part done by `exp` and `log`;
* the cut to a 64-bit integer, where values out of range give the lowest integer;
* writing a number as text: integers in full, other values with a format.
-/
namespace JobShell.Awk

open JobShell.Num

/-- The exact value of a double. -/
def toExact (f : Float) : Num.Value := Num.Value.ofBits f.toBits

/-- The double of an exact value. -/
def ofExact (v : Num.Value) : Float := Float.ofBits v.bits

/-- The double nearest a decimal text, when it is one. -/
def floatOfText? (s : String) : Option Float := (Num.Value.ofText? s).map ofExact

/-- 2^63, the size of each half of the 64-bit integers. -/
def halfRange64 : Nat := 9223372036854775808

/-- 2^64, the number of 64-bit words. -/
def range64 : Nat := 18446744073709551616

def lowest64 : Int := -(halfRange64 : Int)

/-- The integer part of the magnitude `s · 2^-shift` of a double. -/
def wholePart (s : Nat) : Nat := s / Nat.pow 2 double.shift

/-- A double cut toward zero to a 64-bit integer; NaN and values out of range give the
lowest integer. -/
def toInt64 (f : Float) : Int :=
  match toExact f with
  | .finite neg s =>
    let m := wholePart s
    if m ≥ halfRange64 then lowest64
    else if neg then -(m : Int) else m
  | _ => lowest64

/-- A double cut toward zero to an unsigned 64-bit integer: a negative value wraps around,
and NaN or a value out of range gives 2^63. -/
def toUInt64 (f : Float) : Nat :=
  match toExact f with
  | .finite neg s =>
    let m := wholePart s
    if neg then (if m < halfRange64 then (range64 - m) % range64 else halfRange64)
    else if m < range64 then m else halfRange64
  | _ => halfRange64

/-- Whether a double is an integer that converts to a 64-bit integer and back unchanged. -/
def isIntegral (f : Float) : Bool :=
  match toExact f with
  | .finite neg s =>
    s % Nat.pow 2 double.shift == 0 &&
      (let m := wholePart s
       m < halfRange64 || (neg && m == halfRange64))
  | _ => false

/-- The double of an integer. -/
def ofInt (n : Int) : Float := ofExact (Num.Value.ofInt n)

def ofNat (n : Nat) : Float := ofInt n

/-- The blanks that may surround a number. -/
def isNumberBlank (c : Char) : Bool :=
  c == ' ' || c == '\t' || c == '\n' || c == '\r' || c == '\x0c' || c == '\x0b'

/-- The length of a run of decimal digits. -/
def digitRun (cs : List Char) : Nat := (cs.takeWhile Char.isDigit).length

/-- The number at the start of a text: blanks, a sign, digits with a point, and an
exponent when digits follow it. No number reads as 0; a number too large reads as an
infinity. -/
def numberPrefix (s : String) : Float :=
  let cs := s.toList.dropWhile isNumberBlank
  let (sign, rest) := match cs with
    | '+' :: r => (['+'], r)
    | '-' :: r => (['-'], r)
    | r => ([], r)
  let lower := (rest.take 3).map Char.toLower
  if lower == ['i', 'n', 'f'] then
    if sign == ['-'] then -(1.0 / 0.0) else 1.0 / 0.0
  else if lower == ['n', 'a', 'n'] then 0.0 / 0.0
  else
    let intLen := digitRun rest
    let afterInt := rest.drop intLen
    let (fracLen, afterFrac) := match afterInt with
      | '.' :: r => (1 + digitRun r, r.drop (digitRun r))
      | r => (0, r)
    if intLen == 0 && fracLen ≤ 1 then 0.0
    else
      let mantissa := rest.take (intLen + fracLen)
      let expPart := match afterFrac with
        | e :: r =>
          if e == 'e' || e == 'E' then
            let (esign, r') := match r with
              | '+' :: t => (['+'], t)
              | '-' :: t => (['-'], t)
              | t => ([], t)
            let n := digitRun r'
            if n == 0 then [] else e :: esign ++ r'.take n
          else []
        | [] => []
      (floatOfText? (String.ofList (sign ++ mantissa ++ expPart))).getD 0.0

/-- Whether a whole text, blanks around it apart, is a decimal number. -/
def looksNumeric (s : String) : Bool :=
  let cs := (s.toList.dropWhile isNumberBlank).reverse.dropWhile isNumberBlank |>.reverse
  let rest := match cs with
    | '+' :: r | '-' :: r => r
    | r => r
  let intLen := digitRun rest
  let afterInt := rest.drop intLen
  let (fracDigits, afterFrac, hasPoint) := match afterInt with
    | '.' :: r => (digitRun r, r.drop (digitRun r), true)
    | r => (0, r, false)
  let _ := hasPoint
  (intLen > 0 || fracDigits > 0) &&
    match afterFrac with
    | [] => true
    | e :: r =>
      (e == 'e' || e == 'E') &&
        (let r := match r with
          | '+' :: t | '-' :: t => t
          | t => t
         !r.isEmpty && r.all Char.isDigit)

/-- The remainder of `x / y` with the sign of `x`, exactly. -/
def fmod (x y : Float) : Float :=
  match toExact x, toExact y with
  | .finite neg a, .finite _ b => if b == 0 then 0.0 / 0.0 else ofExact (.finite neg (a % b))
  | .finite _ _, .inf _ => x
  | _, _ => 0.0 / 0.0

/-- The integer part of a double, toward zero. -/
def trunc (f : Float) : Float := if f ≥ 0 then f.floor else f.ceil

def isOddInt (y : Float) : Bool :=
  if y.abs ≥ 9007199254740992.0 then false
  else trunc y == y && (toInt64 y) % 2 != 0

def infinity : Float := 1.0 / 0.0
def nan : Float := 0.0 / 0.0

/-- Whether a double has its sign bit set. -/
def signBit (f : Float) : Bool := f.toBits ≥ 0x8000000000000000

/-- `x` to the power `y`. Special cases first; then the integer part of `y` by repeated
squaring of the mantissa of `x` with the powers of two kept apart, and the fractional
part by `exp (yf * log x)`. -/
def pow (x y : Float) : Float :=
  if y == 0 || x == 1 then 1
  else if y == 1 then x
  else if x.isNaN || y.isNaN then nan
  else if x == 0 then
    if y < 0 then (if signBit x && isOddInt y then -infinity else infinity)
    else (if signBit x && isOddInt y then x else 0)
  else if y.isInf then
    if x == -1 then 1
    else if (x.abs < 1) == (y > 0) then 0
    else infinity
  else if x.isInf then
    if x < 0 then
      -- the power of -inf is the power of -0 with the exponent negated
      let y' := -y
      if y' < 0 then (if isOddInt y' then -infinity else infinity)
      else (if isOddInt y' then -0.0 else 0)
    else if y < 0 then 0 else infinity
  else if y == 0.5 then x.sqrt
  else if y == -0.5 then 1 / x.sqrt
  else
    let ay := y.abs
    let yi0 := trunc ay
    let yf0 := ay - yi0
    if yf0 != 0 && x < 0 then nan
    else if yi0 ≥ 9223372036854775808.0 then
      if x == -1 then 1 else if (x.abs < 1) == (y > 0) then 0 else infinity
    else
      let (yi, yf) := if yf0 > 0.5 then (yi0 + 1, yf0 - 1) else (yi0, yf0)
      let a1 : Float := if yf != 0 then (yf * x.log).exp else 1
      let (x1, xe) := x.frExp
      let rec loop : Nat → Nat → Float → Int → Float → Int → Float × Int
        | 0, _, a1, ae, _, _ => (a1, ae)
        | fuel + 1, i, a1, ae, x1, xe =>
          if i == 0 then (a1, ae)
          else if xe < -4096 || 4096 < xe then (a1, ae + xe)
          else
            let (a1, ae) := if i % 2 == 1 then (a1 * x1, ae + xe) else (a1, ae)
            let x1 := x1 * x1
            let xe := xe * 2
            let (x1, xe) := if x1 < 0.5 then (x1 + x1, xe - 1) else (x1, xe)
            loop fuel (i / 2) a1 ae x1 xe
      let (a1, ae) := loop 64 (toInt64 yi).toNat a1 0 x1 xe
      let (a1, ae) := if y < 0 then (1 / a1, -ae) else (a1, ae)
      a1.scaleB ae

end JobShell.Awk

/-!
# Binary floating-point numbers and their decimal text

A finite binary floating-point number is kept as its sign and its magnitude counted in
units of the smallest subnormal, `2^-shift`: every finite value of the format is such an
integer, and comparing or rounding values becomes integer arithmetic. A format is fixed by
its significand width, that shift and its largest exponent; `double` is IEEE 754
binary64 and `single` binary32.

`round` gives the value of the format nearest an exact rational, ties to the even
significand, or nothing when the value overflows. Decimal text converts through it, so
reading is correctly rounded. Writing looks for the shortest digit string that reads
back as the same value (as the usual shortest formatting does), or rounds the exact value
to a number of significant digits, ties to even.

The text forms follow the common conventions: `%e` (`d.ddde±XX`), `%f`, `%g` (the shorter
of the two by the exponent rule), and the JSON form (plain digits unless the value is
below `1e-6` or from `1e21` on).
-/
namespace JobShell.Num

/-- A binary floating-point format. -/
structure Format where
  /-- Significand bits, the hidden one included. -/
  mant : Nat
  /-- The smallest subnormal is `2^-shift`. -/
  shift : Nat
  /-- The largest unit exponent of a finite value. -/
  maxUnit : Nat
  /-- Bits of the biased exponent field. -/
  expBits : Nat

def double : Format := { mant := 53, shift := 1074, maxUnit := 2045, expBits := 11 }
def single : Format := { mant := 24, shift := 149, maxUnit := 253, expBits := 8 }

/-- A value of a format. -/
inductive Value where
  /-- `scaled · 2^-shift`. -/
  | finite (neg : Bool) (scaled : Nat)
  | inf (neg : Bool)
  | nan
  deriving DecidableEq, Repr, Inhabited

def bitLength (n : Nat) : Nat := if n == 0 then 0 else n.log2 + 1

/-- `a / b` rounded to the nearest integer, ties to even. -/
def divRoundEven (a b : Nat) : Nat :=
  if b == 0 then 0
  else
    let q := a / b
    let r := a % b
    if 2 * r > b || (2 * r == b && q % 2 == 1) then q + 1 else q

/-- The magnitude of the format nearest `num / den`, in units of `2^-shift`; `none` when it
overflows. -/
def Format.round (f : Format) (num den : Nat) : Option Nat :=
  let num := num * Nat.pow 2 f.shift
  let len := bitLength (num / den)
  let p := if len > f.mant then len - f.mant else 0
  let m := divRoundEven num (den * Nat.pow 2 p)
  let (m, p) := if m == Nat.pow 2 f.mant then (Nat.pow 2 (f.mant - 1), p + 1) else (m, p)
  if p > f.maxUnit then none else some (m * Nat.pow 2 p)

/-- The bits of a value of the double format. -/
def Value.bits : Value → UInt64
  | .nan => 0x7FF8000000000000
  | .inf neg => if neg then 0xFFF0000000000000 else 0x7FF0000000000000
  | .finite neg scaled =>
    let len := bitLength scaled
    let p := if len > 53 then len - 53 else 0
    let m := scaled / Nat.pow 2 p
    let body := if m < 4503599627370496 then m else (p + 1) * 4503599627370496 + (m - 4503599627370496)
    UInt64.ofNat ((if neg then 9223372036854775808 else 0) + body)

/-- The value of the bits of a double. -/
def Value.ofBits (b : UInt64) : Value :=
  let n := b.toNat
  let neg := n ≥ 9223372036854775808
  let be := (n / 4503599627370496) % 2048
  let frac := n % 4503599627370496
  if be == 2047 then (if frac == 0 then .inf neg else .nan)
  else if be == 0 then .finite neg frac
  else .finite neg ((frac + 4503599627370496) * Nat.pow 2 (be - 1))

/-- A decimal number `digits · 10^exp`, correctly rounded to the format. -/
def Format.ofDecimal (f : Format) (neg : Bool) (digits : Nat) (exp : Int) : Value :=
  let width : Int := (toString digits).length
  -- far outside the range of every format: infinite, or zero
  if digits == 0 || width + exp < -400 then .finite neg 0
  else if width + exp > 400 then .inf neg
  else
    let (num, den) := if exp ≥ 0 then (digits * Nat.pow 10 exp.toNat, 1) else (digits, Nat.pow 10 (-exp).toNat)
    match f.round num den with
    | some s => .finite neg s
    | none => .inf neg

/-- Whether `scaled · 2^-shift ≥ 10^t`. -/
def atLeastPow10 (f : Format) (scaled : Nat) (t : Int) : Bool :=
  if t ≥ 0 then scaled ≥ Nat.pow 10 t.toNat * Nat.pow 2 f.shift
  else scaled * Nat.pow 10 (-t).toNat ≥ Nat.pow 2 f.shift

/-- The decimal exponent of a positive value: `10^e ≤ v < 10^(e+1)`. -/
def decimalExponent (f : Format) (scaled : Nat) : Int :=
  let b : Int := (bitLength scaled : Int) - 1 - f.shift
  let est := Int.fdiv (b * 30103) 100000
  adjust 8 est
where
  adjust : Nat → Int → Int
    | 0, e => e
    | n + 1, e =>
      if atLeastPow10 f scaled (e + 1) then adjust n (e + 1)
      else if !atLeastPow10 f scaled e then adjust n (e - 1)
      else e

/-- A positive value rounded to `n ≥ 1` significant digits, ties to even: the digits
and the exponent of the last one. -/
def roundDigits (f : Format) (scaled : Nat) (n : Nat) : Nat × Int :=
  let e := decimalExponent f scaled
  let q : Int := (n : Int) - 1 - e
  let d := if q ≥ 0 then divRoundEven (scaled * Nat.pow 10 q.toNat) (Nat.pow 2 f.shift)
    else divRoundEven scaled (Nat.pow 2 f.shift * Nat.pow 10 (-q).toNat)
  if d == Nat.pow 10 n then (Nat.pow 10 (n - 1), -q + 1) else (d, -q)

/-- The shortest digits that read back as the value, and the exponent of the last one. -/
def shortest (f : Format) (scaled : Nat) : Nat × Int :=
  go 17 1
where
  go : Nat → Nat → Nat × Int
    | 0, n => roundDigits f scaled n
    | fuel + 1, n =>
      let (d, e) := roundDigits f scaled n
      if f.round (if e ≥ 0 then d * Nat.pow 10 e.toNat else d) (if e ≥ 0 then 1 else Nat.pow 10 (-e).toNat)
          == some scaled then (d, e)
      else go fuel (n + 1)

/-- Digits without their trailing zeros, as text, with the position of the decimal point
counted from the first digit. Zero has no digits. -/
structure Digits where
  text : String
  point : Int
  deriving Repr, Inhabited

def Digits.ofParts (d : Nat) (e : Int) : Digits :=
  if d == 0 then { text := "", point := 0 }
  else
    let s := (toString d).toList
    let trailing := (s.reverse.takeWhile (· == '0')).length
    { text := String.ofList (s.take (s.length - trailing)), point := (s.length : Int) + e }

/-- Digit `i` of the text, `0` past its end. -/
def Digits.at (ds : Digits) (i : Nat) : Char := (ds.text.toList[i]?).getD '0'

/-- The exponent part of `%e`: a sign and at least two digits. -/
def expText (x : Int) : String :=
  let a := toString x.natAbs
  (if x < 0 then "e-" else "e+") ++ (if a.length < 2 then "0" ++ a else a)

/-- `%e` with `prec` digits after the point. -/
def Digits.formE (ds : Digits) (prec : Nat) : String :=
  let first := ds.at 0
  let rest := String.ofList ((List.range prec).map fun i => ds.at (i + 1))
  let x := if ds.text.isEmpty then 0 else ds.point - 1
  first.toString ++ (if prec > 0 then "." ++ rest else "") ++ expText x

/-- `%f` with `prec` digits after the point. -/
def Digits.formF (ds : Digits) (prec : Nat) : String :=
  let intPart :=
    if ds.point > 0 then String.ofList ((List.range ds.point.toNat).map ds.at) else "0"
  let frac := String.ofList ((List.range prec).map fun (i : Nat) =>
    let pos : Int := ds.point + (i : Int)
    if pos < 0 then '0' else ds.at pos.toNat)
  intPart ++ (if prec > 0 then "." ++ frac else "")

/-- The number of digits. -/
def Digits.count (ds : Digits) : Nat := ds.text.length

/-- `%g` of digits already rounded to `prec` significant digits (0 for the shortest
form, which decides the exponent rule as if the precision were 6). -/
def Digits.formG (ds : Digits) (prec : Nat) (shortestForm : Bool) : String :=
  let nd := ds.count
  let dp := ds.point
  let eprec : Int := if shortestForm then 6
    else if (prec : Int) > nd && (nd : Int) ≥ dp then nd else prec
  let x := dp - 1
  if nd == 0 then "0"
  else if x < -4 || x ≥ eprec then ds.formE (nd - 1)
  else
    let p : Int := if shortestForm then nd else if (prec : Int) > dp then nd else prec
    ds.formF (p - dp).toNat

/-- The text of a value: the sign and the text of the magnitude, or the words for the
special values. -/
def render (v : Value) (magnitude : Nat → String) (posInf negInf nanText : String) : String :=
  match v with
  | .nan => nanText
  | .inf neg => if neg then negInf else posInf
  | .finite neg s => (if neg then "-" else "") ++ magnitude s

/-- The shortest `%g` form: `1.5`, `1e+20`, `1.234567e+06`. -/
def formatShortest (f : Format) (v : Value) : String :=
  render v (fun s =>
    if s == 0 then "0"
    else let (d, e) := shortest f s; (Digits.ofParts d e).formG 0 true) "+Inf" "-Inf" "NaN"

/-- `%.Pg`: `prec` significant digits (at least one), trailing zeros dropped. -/
def formatG (v : Value) (prec : Nat) : String :=
  let prec := max prec 1
  render v (fun s =>
    if s == 0 then "0"
    else let (d, e) := roundDigits double s prec; (Digits.ofParts d e).formG prec false) "+Inf" "-Inf" "NaN"

/-- `%.Pe`. -/
def formatE (v : Value) (prec : Nat) : String :=
  render v (fun s =>
    if s == 0 then (Digits.ofParts 0 0).formE prec
    else let (d, e) := roundDigits double s (prec + 1); (Digits.ofParts d e).formE prec) "+Inf" "-Inf" "NaN"

/-- `%.Pf`. -/
def formatF (v : Value) (prec : Nat) : String :=
  render v (fun s =>
    if s == 0 then (Digits.ofParts 0 0).formF prec
    else
      let e := decimalExponent double s
      let n : Int := e + 1 + prec
      if n ≤ 0 then
        -- rounds to zero or to one unit of the last place
        let unit : Int := -(prec : Int)
        let big := atLeastPow10 double (2 * s) unit
        (Digits.ofParts (if big && !(s * 2 * Nat.pow 10 prec == Nat.pow 2 double.shift) then 1 else 0) unit).formF prec
      else
        let (d, e) := roundDigits double s n.toNat
        (Digits.ofParts d e).formF prec) "+Inf" "-Inf" "NaN"

/-- The JSON text of a finite double: shortest digits, plain unless below `1e-6` or from
`1e21` on, where the exponent form is used with no padding of the exponent. -/
def formatJson (v : Value) : String :=
  render v (fun s =>
    if s == 0 then "0"
    else
      let (d, e) := shortest double s
      let ds := Digits.ofParts d e
      if atLeastPow10 double s 21 || !atLeastPow10 double s (-6) then
        let t := ds.formE (ds.count - 1)
        -- exponents are written without a leading zero
        t.replace "e-0" "e-" |>.replace "e+0" "e+"
      else ds.formF (max 0 (ds.count - ds.point)).toNat) "Infinity" "-Infinity" "NaN"

/-- Reads decimal number text: an optional sign, digits with an optional point, and an
optional exponent. Gives the sign, the digits and the exponent of the last digit. -/
def parseDecimal (s : String) : Option (Bool × Nat × Int) :=
  let cs := s.toList
  let (neg, cs) := match cs with
    | '-' :: r => (true, r)
    | '+' :: r => (false, r)
    | r => (false, r)
  let intDigits := cs.takeWhile Char.isDigit
  let cs := cs.drop intDigits.length
  let (fracDigits, cs) := match cs with
    | '.' :: r => let f := r.takeWhile Char.isDigit; (f, r.drop f.length)
    | r => ([], r)
  if intDigits.isEmpty && fracDigits.isEmpty then none
  else
    let expPart : Option Int := match cs with
      | [] => some 0
      | c :: r =>
        if c == 'e' || c == 'E' then
          let (eneg, r) := match r with
            | '-' :: t => (true, t)
            | '+' :: t => (false, t)
            | t => (false, t)
          if !r.isEmpty && r.all Char.isDigit then
            let v : Int := (String.ofList r).toNat!
            some (if eneg then -v else v)
          else none
        else none
    match expPart with
    | none => none
    | some x =>
      let all := intDigits ++ fracDigits
      let d := all.foldl (fun n c => n * 10 + (c.toNat - '0'.toNat)) 0
      some (neg, d, x - fracDigits.length)

/-- The double nearest a decimal text, when it is one. -/
def Value.ofText? (s : String) : Option Value :=
  (parseDecimal s).map fun (neg, d, e) => double.ofDecimal neg d e

/-- The double nearest an integer. -/
def Value.ofInt (n : Int) : Value := double.ofDecimal (n < 0) n.natAbs 0

end JobShell.Num

import JobShell.Num.Binary64

/-!
# Formatted output

`format spec args` fills a format text with arguments, each conversion being `%`, flags
(`#`, `0`, `+`, `-`, space), a width, a precision after a point, and a verb. A width or a
precision written `*` is taken from the next argument, an integer; a negative width means
padding on the right.

Each argument is already of the kind its conversion wants: an integer (`d`, `o`, `x`,
`X`), an unsigned integer, a double (`e`, `E`, `f`, `g`, `G`), a text or a run of bytes
(`s`). The rules of the conversions:

* an integer shows at least `precision` digits, and a `0` flag pads with zeros up to the
  width after the sign; with both, the zeros of the precision win and the padding is blanks;
  `#` puts `0x` before hexadecimal digits and `0` before octal ones;
* a double is written by `Num` (`%e`, `%f`, `%g`, with 6 places by default and the shortest
  digits for `%g` with no precision); infinities and NaN are never padded with zeros, an
  infinity always shows its sign, and NaN has none unless `+` or a space asks for one; `#` keeps the point and, for `%g`,
  the trailing zeros;
* a text is cut to `precision` characters and padded to the width, counted in characters.

A verb that does not fit its argument is written `%!v(type=value)`, a missing argument
`%!v(MISSING)`, and arguments left over are listed after `%!(EXTRA `.
-/
namespace JobShell.Printf

open JobShell.Num

/-- An argument of a conversion. -/
inductive Arg where
  | int (n : Int)
  | uint (n : Nat)
  | float (v : Num.Value)
  | str (s : String)
  | bytes (s : String)
  deriving Repr, Inhabited

/-- The name of an argument's type in messages about a bad verb. -/
def Arg.typeName : Arg → String
  | .int _ => "int"
  | .uint _ => "uint"
  | .float _ => "float64"
  | .str _ => "string"
  | .bytes _ => "[]uint8"

/-- The flags, width and precision of one conversion. -/
structure Spec where
  sharp : Bool := false
  zero : Bool := false
  plus : Bool := false
  minus : Bool := false
  space : Bool := false
  width : Option Nat := none
  prec : Option Nat := none
  deriving Repr, Inhabited

/-- `n` copies of a character. -/
def fill (n : Nat) (c : Char) : String := String.ofList (List.replicate n c)

/-- Pads a text to the width with blanks, or with zeros when `zeros` is set, on the left
unless `-` is given. -/
def Spec.padWith (sp : Spec) (zeros : Bool) (s : String) : String :=
  match sp.width with
  | none => s
  | some w =>
    let n := w - s.length
    if sp.minus then s ++ fill n ' '
    else fill n (if zeros && sp.zero then '0' else ' ') ++ s

/-- Pads a text to the width, with zeros if the `0` flag is given. -/
def Spec.pad (sp : Spec) (s : String) : String := sp.padWith true s

/-- The digits of a number in a base, most significant first. -/
def digitsIn (base : Nat) (upper : Bool) (n : Nat) : String :=
  let ds := Nat.toDigits base n
  String.ofList (if upper then ds.map Char.toUpper else ds)

/-- An integer conversion of a magnitude with a sign. -/
def Spec.integer (sp : Spec) (negative : Bool) (mag : Nat) (base : Nat) (upper : Bool) :
    String :=
  match sp.prec with
  | some 0 =>
    if mag == 0 then
      -- zero with no digits: only the padding
      fill (sp.width.getD 0) ' '
    else integerDigits negative mag base upper
  | _ => integerDigits negative mag base upper
where
  integerDigits (negative : Bool) (mag : Nat) (base : Nat) (upper : Bool) : String :=
    let minDigits : Nat := match sp.prec with
      | some p => p
      | none =>
        if sp.zero && !sp.minus then
          match sp.width with
          | some w => if negative || sp.plus || sp.space then w - 1 else w
          | none => 0
        else 0
    let ds := digitsIn base upper mag
    let ds := fill (minDigits - ds.length) '0' ++ ds
    let ds := if sp.sharp then
        if base == 16 then (if upper then "0X" else "0x") ++ ds
        else if base == 8 && !ds.startsWith "0" then "0" ++ ds
        else ds
      else ds
    let signed := if negative then "-" ++ ds else if sp.plus then "+" ++ ds
      else if sp.space then " " ++ ds else ds
    sp.padWith false signed

/-- The digits of a double for a verb and a precision (`none` for the shortest), with a
leading sign character always present: `+` for a value that has none. -/
def floatBody (v : Num.Value) (verb : Char) (prec : Option Nat) : String :=
  let text := match verb, prec with
    | 'e', p => formatE v (p.getD 6)
    | 'E', p => (formatE v (p.getD 6)).map fun c => if c == 'e' then 'E' else c
    | 'f', p => formatF v (p.getD 6)
    | 'g', some p => formatG v p
    | 'G', some p => (formatG v p).map fun c => if c == 'e' then 'E' else c
    | 'G', none => (formatShortest double v).map fun c => if c == 'e' then 'E' else c
    | _, _ => formatShortest double v
  if text.startsWith "-" || text.startsWith "+" then text else "+" ++ text

/-- With `#`: keeps the point, and for `%g` pads the significant digits to the precision. -/
def sharpen (verb : Char) (prec : Option Nat) (num : String) : String :=
  let body := (num.toList.drop 1)
  let sign := num.toList.take 1
  let (mant, tail) := body.span fun c => c != 'e' && c != 'E'
  let want : Int := if verb == 'g' || verb == 'G' then (prec.getD 6 : Nat) else 0
  let (_, seen) := mant.foldl (fun (acc : Bool × Int) c =>
    let (nonzero, count) := acc
    if c == '.' then acc
    else
      let nonzero := nonzero || c != '0'
      (nonzero, if nonzero then count + 1 else count)) (false, 0)
  let hasPoint := mant.contains '.'
  let lonelyZero := !hasPoint && mant == ['0']
  let left := want - seen - (if lonelyZero then 1 else 0)
  let mant := if hasPoint then mant else mant ++ ['.']
  String.ofList (sign ++ mant ++ List.replicate left.toNat '0' ++ tail)

/-- A double conversion; `prec` is the precision asked for, or the verb's default. -/
def Spec.float (sp : Spec) (v : Num.Value) (verb : Char) (prec : Option Nat) : String :=
  let num := floatBody v verb (sp.prec.orElse fun _ => prec)
  let num := if sp.space && num.startsWith "+" && !sp.plus then " " ++ (num.drop 1).toString
    else num
  let special := match v with
    | .finite _ _ => false
    | _ => true
  if special then
    -- an infinity keeps its sign, NaN shows one only when asked
    let num := match v with
      | .nan => if !sp.space && !sp.plus then (num.drop 1).toString else num
      | _ => num
    sp.padWith false num
  else
    let num := if sp.sharp then sharpen verb (sp.prec.orElse fun _ => prec) num else num
    if sp.plus || !num.startsWith "+" then
      match sp.width with
      | some w =>
        if sp.zero && !sp.minus && w > num.length then
          let sign := (num.take 1).toString
          sign ++ fill (w - num.length) '0' ++ (num.drop 1).toString
        else sp.padWith false num
      | none => num
    else sp.padWith false (num.drop 1).toString

/-- A text conversion: cut to the precision, then padded. -/
def Spec.text (sp : Spec) (s : String) : String :=
  let s := match sp.prec with
    | some p => String.ofList (s.toList.take p)
    | none => s
  sp.pad s

/-- The value of an argument as the `v` verb writes it. -/
def Spec.plain (sp : Spec) : Arg → String
  | .int n => sp.integer (n < 0) n.natAbs 10 false
  | .uint n => sp.integer false n 10 false
  | .float v => sp.float v 'g' none
  | .str s => sp.text s
  | .bytes s => sp.pad ("[" ++ " ".intercalate (s.toUTF8.toList.map fun b => toString b.toNat) ++ "]")

/-- A conversion whose verb does not fit its argument. -/
def Spec.badVerb (sp : Spec) (verb : Char) (a : Arg) : String :=
  "%!" ++ verb.toString ++ "(" ++ a.typeName ++ "=" ++ sp.plain a ++ ")"

/-- One conversion of an argument. -/
def Spec.convert (sp : Spec) (verb : Char) (a : Arg) : String :=
  match a with
  | .int n =>
    match verb with
    | 'd' | 'v' => sp.integer (n < 0) n.natAbs 10 false
    | 'o' => sp.integer (n < 0) n.natAbs 8 false
    | 'x' => sp.integer (n < 0) n.natAbs 16 false
    | 'X' => sp.integer (n < 0) n.natAbs 16 true
    | _ => sp.badVerb verb a
  | .uint n =>
    match verb with
    | 'd' | 'v' => sp.integer false n 10 false
    | 'o' => sp.integer false n 8 false
    | 'x' => sp.integer false n 16 false
    | 'X' => sp.integer false n 16 true
    | _ => sp.badVerb verb a
  | .float v =>
    match verb with
    | 'v' => sp.float v 'g' none
    | 'g' | 'G' => sp.float v verb none
    | 'e' | 'E' | 'f' => sp.float v verb (some 6)
    | 'F' => sp.float v 'f' (some 6)
    | _ => sp.badVerb verb a
  | .str s =>
    match verb with
    | 's' | 'v' => sp.text s
    | _ => sp.badVerb verb a
  | .bytes s =>
    match verb with
    | 's' => sp.text s
    | 'v' => sp.plain a
    | _ => sp.badVerb verb a

/-- A width or precision written as digits: the number and what follows, or `none` when no
digit is there or the number passes a million. -/
def readNumber (cs : List Char) : Option Nat × List Char :=
  let ds := cs.takeWhile Char.isDigit
  if ds.isEmpty then (none, cs)
  else
    let n := ds.foldl (fun n c => n * 10 + (c.toNat - '0'.toNat)) 0
    if ds.length > 7 || n > 1000000 then (none, []) else (some n, cs.drop ds.length)

/-- An integer argument for a `*`: its value if it is an integer of at most a million in
size. -/
def starValue : Option Arg → Option Int
  | some (.int n) => if n.natAbs > 1000000 then none else some n
  | some (.uint n) => if n > 1000000 then none else some n
  | _ => none

/-- Reads the flags of a conversion. -/
def readFlags (sp : Spec) : List Char → Spec × List Char
  | '#' :: rest => readFlags { sp with sharp := true } rest
  | '0' :: rest => readFlags { sp with zero := !sp.minus } rest
  | '+' :: rest => readFlags { sp with plus := true } rest
  | '-' :: rest => readFlags { sp with minus := true, zero := false } rest
  | ' ' :: rest => readFlags { sp with space := true } rest
  | rest => (sp, rest)

/-- Fills a format with arguments. -/
def format (spec : String) (args : List Arg) : String :=
  go (spec.length + 1) spec.toList args ""
where
  /-- Every step takes at least one character of the format, so the length of the format
  bounds the steps. -/
  go : Nat → List Char → List Arg → String → String
    | 0, _, _, out => out
    | _ + 1, [], rest, out =>
      if rest.isEmpty then out
      else out ++ "%!(EXTRA " ++ ", ".intercalate (rest.map fun a => a.typeName ++ "=" ++ Spec.plain default a) ++ ")"
    | n + 1, '%' :: cs, args, out =>
      let (sp, cs) := readFlags {} cs
      -- the width
      let (sp, args, cs, out) : Spec × List Arg × List Char × String :=
        match cs with
        | '*' :: rest =>
          match starValue args.head? with
          | some w =>
            if w < 0 then ({ sp with width := some w.natAbs, minus := true, zero := false }, args.drop 1, rest, out)
            else ({ sp with width := some w.toNat }, args.drop 1, rest, out)
          | none => (sp, args.drop 1, rest, out ++ "%!(BADWIDTH)")
        | _ =>
          let (w, rest) := readNumber cs
          ({ sp with width := w }, args, rest, out)
      -- the precision
      let (sp, args, cs, out) : Spec × List Arg × List Char × String :=
        match cs with
        | '.' :: '*' :: rest =>
          match starValue args.head? with
          | some p =>
            if p < 0 then (sp, args.drop 1, rest, out)
            else ({ sp with prec := some p.toNat }, args.drop 1, rest, out)
          | none => (sp, args.drop 1, rest, out ++ "%!(BADPREC)")
        | '.' :: rest@(_ :: _) =>
          let (p, rest) := readNumber rest
          ({ sp with prec := some (p.getD 0) }, args, rest, out)
        | _ => (sp, args, cs, out)
      match cs with
      | [] => out ++ "%!(NOVERB)"
      | verb :: rest =>
        if verb == '%' then go n rest args (out ++ "%")
        else
          match args with
          | [] => go n rest [] (out ++ "%!" ++ verb.toString ++ "(MISSING)")
          | a :: more => go n rest more (out ++ sp.convert verb a)
    | n + 1, c :: cs, args, out => go n cs args (out.push c)

end JobShell.Printf

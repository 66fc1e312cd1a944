import JobShell.Text.CaseMap

/-!
# Regular expressions: syntax

The regular expressions of this library have the usual syntax of the RE2 family:
alternation `|`, grouping `( )`, `(?:` `)` and named groups, the repetitions `*`, `+`,
`?` and `{n,m}` (each also in a lazy form with a trailing `?`), `.`, the anchors `^`, `$`,
`\A`, `\z`, `\b`, `\B`, bracket classes with ranges and `[:name:]` classes, the class
escapes `\d \s \w` and their negations, `\pN` and `\p{Name}`, character escapes (`\n`,
octal, `\x41`, `\x{263a}`), `\Q...\E`, and the flags `i`, `m`, `s`, `U` set by `(?flags)`
or for one group by `(?flags:...)`.

A text that is not such an expression is refused with the first fault met reading left to
right, named by a code and the piece of text at fault. Faults that concern the whole
expression (a parenthesis without its mate) quote it whole; a bracket class left open
quotes it from its `[` to the end.

A character set is a list of ranges of code points. Case folding adds to a set the other
case of every letter in it.
-/
namespace JobShell.Regex

/-- A set of code points as inclusive ranges. -/
abbrev CharSet := List (Nat × Nat)

/-- The largest code point. -/
def maxCode : Nat := 0x10ffff

namespace CharSet

def contains (s : CharSet) (n : Nat) : Bool := s.any fun (lo, hi) => lo ≤ n && n ≤ hi

/-- The ranges sorted and merged, so that no two of them touch. -/
def normalize (s : CharSet) : CharSet :=
  let sorted := s.mergeSort fun a b => a.1 < b.1 || (a.1 == b.1 && a.2 ≤ b.2)
  (sorted.foldl (fun (acc : CharSet) (lo, hi) =>
    match acc with
    | (plo, phi) :: rest => if lo ≤ phi + 1 then (plo, max phi hi) :: rest else (lo, hi) :: acc
    | [] => [(lo, hi)]) []).reverse

/-- The code points not in a set. -/
def negate (s : CharSet) : CharSet :=
  let (acc, next) := (normalize s).foldl (fun (acc : CharSet × Nat) (lo, hi) =>
    let (out, from_) := acc
    ((if from_ < lo then (from_, lo - 1) :: out else out), hi + 1)) ([], 0)
  (if next ≤ maxCode then (next, maxCode) :: acc else acc).reverse

/-- The code points of letters that have another case, with those of their other case:
folding only ever adds code points of these ranges. -/
def cased : CharSet :=
  normalize (Text.lowerRows.flatMap fun r =>
    match r.shift with
    | .by d =>
      let lo' := (r.lo : Int) + d
      let hi' := (r.hi : Int) + d
      [(r.lo, r.hi), (lo'.toNat, hi'.toNat)]
    | .pairs _ => [(r.lo, r.hi)] ++
      (Text.upperExtras.flatMap fun (a, b) => [(a, a), (b, b)]))

/-- The other cases of one code point. -/
def variants (n : Nat) : List Nat :=
  let c := Char.ofNat n
  [(Text.toLowerChar c).toNat, (Text.toUpperChar c).toNat,
   (Text.toLowerChar (Text.toUpperChar c)).toNat] ++
  (Text.upperExtras.filterMap fun (a, b) => if b == n then some a else none)

/-- A set with the other case of each of its letters added. -/
def fold (s : CharSet) : CharSet :=
  let extra := s.flatMap fun (lo, hi) =>
    cased.flatMap fun (clo, chi) =>
      let a := max lo clo
      let b := min hi chi
      if a ≤ b then
        ((List.range (b + 1 - a)).map (· + a)).flatMap fun n => (variants n).map fun m => (m, m)
      else []
  normalize (s ++ extra)

end CharSet

/-- Places that an anchor asks for. -/
inductive Anchor where
  /-- the start of the text or of a line -/
  | lineStart
  /-- the end of the text or of a line -/
  | lineEnd
  | textStart
  | textEnd
  | wordBoundary
  | notWordBoundary
  deriving Repr, DecidableEq, Inhabited

/-- A regular expression. -/
inductive Node where
  /-- the empty text -/
  | empty
  /-- one character of a set -/
  | chars (set : CharSet)
  /-- any character, or any but a newline -/
  | any (newline : Bool)
  | anchor (a : Anchor)
  | cat (a b : Node)
  /-- `a`, or else `b` -/
  | alt (a b : Node)
  /-- from `min` to `max` (no bound when `none`) copies, as many as can be when `greedy`,
  else as few -/
  | rep (x : Node) (min : Nat) (max : Option Nat) (greedy : Bool)
  deriving Repr, Inhabited

/-- Whether an expression matches the empty text somewhere. -/
def Node.nullable : Node → Bool
  | .empty => true
  | .chars _ => false
  | .any _ => false
  | .anchor _ => true
  | .cat a b => a.nullable && b.nullable
  | .alt a b => a.nullable || b.nullable
  | .rep x min _ _ => min == 0 || x.nullable

/-- The flags that change how the text of an expression is read. -/
structure Flags where
  /-- letters match either case -/
  fold : Bool := false
  /-- `^` and `$` match at line breaks too -/
  multiLine : Bool := false
  /-- `.` matches a newline -/
  dotNewline : Bool := false
  /-- repetitions are lazy unless marked with `?` -/
  lazy : Bool := false
  deriving Repr, Inhabited

/-- Why a text is not a regular expression, with the piece of text at fault. -/
inductive SyntaxError where
  | missingBracket (expr : String)
  | missingParen (expr : String)
  | unexpectedParen (expr : String)
  | missingRepeatArgument (expr : String)
  | invalidRepeatOp (expr : String)
  | invalidRepeatSize (expr : String)
  | invalidEscape (expr : String)
  | invalidCharRange (expr : String)
  | trailingBackslash
  | invalidPerlOp (expr : String)
  | invalidNamedCapture (expr : String)
  deriving Repr, DecidableEq

def SyntaxError.code : SyntaxError → String × String
  | .missingBracket e => ("missing closing ]", e)
  | .missingParen e => ("missing closing )", e)
  | .unexpectedParen e => ("unexpected )", e)
  | .missingRepeatArgument e => ("missing argument to repetition operator", e)
  | .invalidRepeatOp e => ("invalid nested repetition operator", e)
  | .invalidRepeatSize e => ("invalid repeat count", e)
  | .invalidEscape e => ("invalid escape sequence", e)
  | .invalidCharRange e => ("invalid character class range", e)
  | .trailingBackslash => ("trailing backslash at end of expression", "")
  | .invalidPerlOp e => ("invalid or unsupported Perl syntax", e)
  | .invalidNamedCapture e => ("invalid named capture", e)

def SyntaxError.message (e : SyntaxError) : String :=
  let (code, expr) := e.code
  "error parsing regexp: " ++ code ++ ": \x60" ++ expr ++ "\x60"

/-- The text read between two points of the input: `before` less its tail `after`. -/
def between (before after : List Char) : String :=
  String.ofList (before.take (before.length - after.length))

/-- The value of a hexadecimal digit. -/
def hexValue (c : Char) : Option Nat :=
  if '0' ≤ c && c ≤ '9' then some (c.toNat - '0'.toNat)
  else if 'a' ≤ c && c ≤ 'f' then some (c.toNat - 'a'.toNat + 10)
  else if 'A' ≤ c && c ≤ 'F' then some (c.toNat - 'A'.toNat + 10)
  else none

def isOctal (c : Char) : Bool := '0' ≤ c && c ≤ '7'

/-- Up to `n` more octal digits after a value. -/
def octalMore : Nat → Nat → List Char → Nat × List Char
  | 0, v, cs => (v, cs)
  | n + 1, v, c :: cs => if isOctal c then octalMore n (v * 8 + (c.toNat - '0'.toNat)) cs else (v, c :: cs)
  | _, v, [] => (v, [])

/-- Hexadecimal digits up to a closing brace: the value when there is at least one digit
and it is a code point, else the text after the character at fault. -/
def hexBraced (v : Nat) (count : Nat) : List Char → Except (List Char) (Nat × List Char)
  | [] => .error []
  | '}' :: rest => if count == 0 then .error rest else .ok (v, rest)
  | c :: rest =>
    match hexValue c with
    | some d => if v * 16 + d > maxCode then .error rest else hexBraced (v * 16 + d) (count + 1) rest
    | none => .error rest

/-- Reads an escape that stands for one character; `cs` starts at the backslash. -/
def escape (cs : List Char) : Except SyntaxError (Nat × List Char) :=
  match cs with
  | [] | [_] => .error .trailingBackslash
  | _ :: c :: t =>
    let bad (rest : List Char) : Except SyntaxError (Nat × List Char) :=
      .error (.invalidEscape (between cs rest))
    if c.toNat < 0x80 && !c.isAlphanum then .ok (c.toNat, t)
    else if '1' ≤ c && c ≤ '7' then
      match t with
      | d :: _ => if isOctal d then .ok (octalMore 2 (c.toNat - '0'.toNat) t) else bad t
      | [] => bad t
    else if c == '0' then .ok (octalMore 2 0 t)
    else if c == 'x' then
      match t with
      | [] => bad t
      | '{' :: more =>
        match hexBraced 0 0 more with
        | .ok r => .ok r
        | .error stop => bad stop
      | a :: more =>
        match more with
        | b :: rest =>
          match hexValue a, hexValue b with
          | some x, some y => .ok (x * 16 + y, rest)
          | _, _ => bad rest
        | [] => bad []
    else if c == 'a' then .ok (7, t)
    else if c == 'f' then .ok (12, t)
    else if c == 'n' then .ok (10, t)
    else if c == 'r' then .ok (13, t)
    else if c == 't' then .ok (9, t)
    else if c == 'v' then .ok (11, t)
    else bad t

/-- The classes `\d`, `\s`, `\w`. -/
def perlClass (c : Char) : Option CharSet :=
  match c with
  | 'd' => some [(0x30, 0x39)]
  | 's' => some [(9, 10), (12, 13), (32, 32)]
  | 'w' => some [(0x30, 0x39), (0x41, 0x5a), (0x5f, 0x5f), (0x61, 0x7a)]
  | _ => none

/-- A class escape `\d \D \s \S \w \W` at the start of `cs`. -/
def perlClassEscape? (cs : List Char) : Option (CharSet × List Char) :=
  match cs with
  | '\\' :: c :: rest =>
    match perlClass c with
    | some s => some (s, rest)
    | none =>
      match perlClass c.toLower with
      | some s => if c.isUpper then some (CharSet.negate s, rest) else none
      | none => none
  | _ => none

/-- The POSIX classes `[:name:]`. -/
def posixClass (name : String) : Option CharSet :=
  match name with
  | "alnum" => some [(0x30, 0x39), (0x41, 0x5a), (0x61, 0x7a)]
  | "alpha" => some [(0x41, 0x5a), (0x61, 0x7a)]
  | "ascii" => some [(0, 0x7f)]
  | "blank" => some [(9, 9), (32, 32)]
  | "cntrl" => some [(0, 0x1f), (0x7f, 0x7f)]
  | "digit" => some [(0x30, 0x39)]
  | "graph" => some [(0x21, 0x7e)]
  | "lower" => some [(0x61, 0x7a)]
  | "print" => some [(0x20, 0x7e)]
  | "punct" => some [(0x21, 0x2f), (0x3a, 0x40), (0x5b, 0x60), (0x7b, 0x7e)]
  | "space" => some [(9, 13), (32, 32)]
  | "upper" => some [(0x41, 0x5a)]
  | "word" => some [(0x30, 0x39), (0x41, 0x5a), (0x5f, 0x5f), (0x61, 0x7a)]
  | "xdigit" => some [(0x30, 0x39), (0x41, 0x46), (0x61, 0x66)]
  | _ => none

/-- Where `:]` first stands in a list of characters. -/
def findColonBracket : List Char → Nat → Option Nat
  | ':' :: ']' :: _, i => some i
  | _ :: rest, i => findColonBracket rest (i + 1)
  | [], _ => none

/-- A class `[:name:]` or `[:^name:]` at the start of `cs`. -/
def namedClass? (cs : List Char) : Except SyntaxError (Option (CharSet × List Char)) :=
  match cs with
  | '[' :: ':' :: body =>
    match findColonBracket body 0 with
    | none => .ok none
    | some i =>
      let text := String.ofList (cs.take (i + 4))
      let name := String.ofList (body.take i)
      let rest := body.drop (i + 2)
      let (neg, name) := if name.startsWith "^" then (true, (name.drop 1).toString) else (false, name)
      match posixClass name with
      | some s => .ok (some (if neg then CharSet.negate s else s, rest))
      | none => .error (.invalidCharRange text)
  | _ => .ok none

/-- Code point ranges of the Unicode classes known by name. -/
def unicodeClass (name : String) : Option CharSet :=
  match name with
  | "Any" => some [(0, maxCode)]
  | "L" => some [(0x41, 0x5a), (0x61, 0x7a), (0xaa, 0xaa), (0xb5, 0xb5), (0xba, 0xba),
      (0xc0, 0xd6), (0xd8, 0xf6), (0xf8, 0x2c1), (0x370, 0x373), (0x376, 0x377),
      (0x37b, 0x37d), (0x386, 0x386), (0x388, 0x3ff), (0x400, 0x481), (0x48a, 0x52f),
      (0x531, 0x556), (0x561, 0x587), (0x5d0, 0x5ea), (0x620, 0x64a), (0x3041, 0x3096),
      (0x30a1, 0x30fa), (0x3400, 0x4dbf), (0x4e00, 0x9fff), (0xac00, 0xd7a3)]
  | "Lu" => some [(0x41, 0x5a), (0xc0, 0xd6), (0xd8, 0xde), (0x391, 0x3a1), (0x3a3, 0x3ab),
      (0x400, 0x42f)]
  | "Ll" => some [(0x61, 0x7a), (0xb5, 0xb5), (0xdf, 0xf6), (0xf8, 0xff), (0x3ac, 0x3ce),
      (0x430, 0x45f)]
  | "N" => some [(0x30, 0x39), (0xb2, 0xb3), (0xb9, 0xb9), (0xbc, 0xbe), (0x660, 0x669),
      (0xff10, 0xff19)]
  | "Nd" => some [(0x30, 0x39), (0x660, 0x669), (0xff10, 0xff19)]
  | "Greek" => some [(0x370, 0x373), (0x375, 0x377), (0x37a, 0x37d), (0x37f, 0x37f),
      (0x384, 0x384), (0x386, 0x386), (0x388, 0x3e1), (0x3f0, 0x3ff), (0x1f00, 0x1ffe)]
  | "Latin" => some [(0x41, 0x5a), (0x61, 0x7a), (0xaa, 0xaa), (0xba, 0xba), (0xc0, 0xd6),
      (0xd8, 0xf6), (0xf8, 0x2b8), (0x1e00, 0x1eff)]
  | "Cyrillic" => some [(0x400, 0x484), (0x487, 0x52f)]
  | "Han" => some [(0x2e80, 0x2fd5), (0x3005, 0x3007), (0x3021, 0x3029), (0x3400, 0x4dbf),
      (0x4e00, 0x9fff), (0xf900, 0xfad9)]
  | "Hiragana" => some [(0x3041, 0x3096), (0x309d, 0x309f)]
  | "Katakana" => some [(0x30a1, 0x30fa), (0x30fd, 0x30ff)]
  | "Hangul" => some [(0x1100, 0x11ff), (0x3131, 0x318e), (0xac00, 0xd7a3)]
  | "Arabic" => some [(0x600, 0x604), (0x606, 0x60b), (0x60d, 0x61a), (0x61e, 0x61e),
      (0x620, 0x63f), (0x641, 0x64a), (0x656, 0x66f), (0x671, 0x6dc), (0x6de, 0x6ff)]
  | "Hebrew" => some [(0x591, 0x5c7), (0x5d0, 0x5ea), (0x5ef, 0x5f4)]
  | "Thai" => some [(0xe01, 0xe3a), (0xe40, 0xe5b)]
  | _ => none

/-- Where the first `}` stands. -/
def findBrace : List Char → Nat → Option Nat
  | '}' :: _, i => some i
  | _ :: rest, i => findBrace rest (i + 1)
  | [], _ => none

/-- A class `\pN`, `\p{Name}`, `\PN` or `\P{Name}` at the start of `cs`. -/
def unicodeClass? (cs : List Char) : Except SyntaxError (Option (CharSet × List Char)) :=
  match cs with
  | '\\' :: p :: t =>
    if p != 'p' && p != 'P' then .ok none
    else
      let neg := p == 'P'
      let (seq, name, rest) : String × String × List Char :=
        match t with
        | '{' :: _ =>
          match findBrace cs 0 with
          | some e => (String.ofList (cs.take (e + 1)), String.ofList ((cs.take e).drop 3), cs.drop (e + 1))
          | none => (String.ofList cs, "", [])
        | c :: more => (String.ofList (cs.take 3), c.toString, more)
        | [] => (String.ofList cs, "", [])
      if t.head? == some '{' && (findBrace cs 0).isNone then .error (.invalidCharRange seq)
      else
        let (neg, name) := if name.startsWith "^" then (!neg, (name.drop 1).toString) else (neg, name)
        match unicodeClass name with
        | some s => .ok (some (if neg then CharSet.negate s else s, rest))
        | none => .error (.invalidCharRange seq)
  | _ => .ok none

/-- One character of a bracket class, plain or escaped. -/
def classChar (whole : List Char) (cs : List Char) : Except SyntaxError (Nat × List Char) :=
  match cs with
  | [] => .error (.missingBracket (String.ofList whole))
  | '\\' :: _ => escape cs
  | c :: rest => .ok (c.toNat, rest)

/-- Adds a set to a class, folded when the flags ask for it. -/
def addSet (flags : Flags) (acc s : CharSet) : CharSet :=
  acc ++ (if flags.fold then CharSet.fold s else s)

/-- Reads a bracket class; `whole` starts at its `[`, `cs` after it (and after `^`). -/
def classBody (flags : Flags) (whole : List Char) : Nat → Bool → CharSet → List Char →
    Except SyntaxError (CharSet × List Char)
  | 0, _, _, _ => .error (.missingBracket (String.ofList whole))
  | n + 1, first, acc, cs =>
    match cs with
    | ']' :: rest =>
      if first then classBody flags whole n false (addSet flags acc [(0x5d, 0x5d)]) rest
      else .ok (acc, rest)
    | _ => do
      match ← namedClass? cs with
      | some (s, rest) => classBody flags whole n false (addSet flags acc s) rest
      | none =>
      match ← unicodeClass? cs with
      | some (s, rest) => classBody flags whole n false (addSet flags acc s) rest
      | none =>
      match perlClassEscape? cs with
      | some (s, rest) => classBody flags whole n false (addSet flags acc s) rest
      | none =>
        let (lo, rest) ← classChar whole cs
        match rest with
        | '-' :: more@(c :: _) =>
          if c == ']' then classBody flags whole n false (addSet flags acc [(lo, lo)]) rest
          else
            let (hi, rest') ← classChar whole more
            if hi < lo then throw (.invalidCharRange (between cs rest'))
            else classBody flags whole n false (addSet flags acc [(lo, hi)]) rest'
        | _ => classBody flags whole n false (addSet flags acc [(lo, lo)]) rest

/-- Reads a bracket class starting at its `[`. -/
def bracketClass (flags : Flags) (cs : List Char) : Except SyntaxError (CharSet × List Char) := do
  let body := cs.drop 1
  let (neg, body) := match body with
    | '^' :: rest => (true, rest)
    | rest => (false, rest)
  let (set, rest) ← classBody flags cs (body.length + 1) true [] body
  return (if neg then CharSet.negate set else CharSet.normalize set, rest)

/-- A decimal number of a repetition count: `none` when there is none or it has a leading
zero; a number of nine digits or more reads as too large. -/
def repeatNumber (cs : List Char) : Option (Option Nat × List Char) :=
  let ds := cs.takeWhile Char.isDigit
  if ds.isEmpty then none
  else if ds.length ≥ 2 && ds.head? == some '0' then none
  else
    let v := ds.foldl (fun n c => n * 10 + (c.toNat - '0'.toNat)) 0
    some (if ds.length > 8 then none else some v, cs.drop ds.length)

/-- A counted repetition `{n}`, `{n,}` or `{n,m}` at the start of `cs`: the least count
(`none` if too large), the greatest (`none` if unbounded, `some none` if too large) and
the rest. -/
def braces? (cs : List Char) : Option (Option Nat × Option (Option Nat) × List Char) :=
  match cs with
  | '{' :: t =>
    match repeatNumber t with
    | none => none
    | some (lo, t) =>
      match t with
      | '}' :: rest => some (lo, some lo, rest)
      | ',' :: '}' :: rest => some (lo, none, rest)
      | ',' :: t' =>
        match repeatNumber t' with
        | some (hi, '}' :: rest) => some (lo, some hi, rest)
        | _ => none
      | _ => none
  | _ => none

/-- Whether nested counted repetitions stay within `n` copies of what they repeat. -/
def repeatFits : Node → Nat → Bool
  | .rep x min max _, n =>
    let m := match max with
      | some m => m
      | none => min
    if max == some 0 then true
    else if m > n then false
    else repeatFits x (if m > 0 then n / m else n)
  | .cat a b, n => repeatFits a n && repeatFits b n
  | .alt a b, n => repeatFits a n && repeatFits b n
  | _, _ => true

/-- Joins a list of items into one expression. -/
def catAll : List Node → Node
  | [] => .empty
  | [x] => x
  | x :: rest => .cat x (catAll rest)

/-- Joins alternatives into one expression, the first preferred. -/
def altAll : List Node → Node
  | [] => .empty
  | [x] => x
  | x :: rest => .alt x (altAll rest)

/-- The state of one group being read: the finished alternatives and the items of the
current one (both latest first), and where the last repetition operator began when the
item before is a repetition. -/
structure Level where
  alts : List Node := []
  items : List Node := []
  lastRepeat : Option (List Char) := none

def Level.push (l : Level) (x : Node) : Level := { l with items := x :: l.items, lastRepeat := none }

def Level.finish (l : Level) : Node :=
  altAll ((catAll l.items.reverse) :: l.alts).reverse

/-- Whether a name may name a group. -/
def validGroupName (name : List Char) : Bool :=
  !name.isEmpty && name.all fun c => c.isAlphanum || c == '_' || c.toNat ≥ 0x80

/-- The code points matching a character, folded when the flags ask for it. -/
def literal (flags : Flags) (n : Nat) : Node :=
  .chars (if flags.fold then CharSet.fold [(n, n)] else [(n, n)])

/-- Reads flags after `(?`: the new flags, whether a group opens (`:`) rather than the
flags applying from here (`)`), and the rest; `start` is at the `(`. -/
def flagGroup (start : List Char) (flags : Flags) : Nat → Bool → Bool → List Char →
    Except SyntaxError (Flags × Bool × List Char)
  | 0, _, _, cs => .error (.invalidPerlOp (between start cs))
  | n + 1, neg, sawFlag, cs =>
    match cs with
    | [] => .error (.invalidPerlOp (between start cs))
    | c :: rest =>
      let set (f : Flags) := flagGroup start f n neg true rest
      match c with
      | 'i' => set { flags with fold := !neg }
      | 'm' => set { flags with multiLine := !neg }
      | 's' => set { flags with dotNewline := !neg }
      | 'U' => set { flags with lazy := !neg }
      | '-' => if neg then .error (.invalidPerlOp (between start rest))
        else flagGroup start flags n true false rest
      | ':' | ')' =>
        if neg && !sawFlag then .error (.invalidPerlOp (between start rest))
        else .ok (flags, c == ':', rest)
      | _ => .error (.invalidPerlOp (between start rest))

/-- Reads the items of one group until its closing parenthesis (left unread) or the end
of the text. `whole` is the whole expression, for messages; `names` are the group names
seen so far. -/
def group (whole : String) : Nat → Nat → Flags → Level → List String → List Char →
    Except SyntaxError (Node × Flags × List String × List Char)
  | 0, _, _, _, _, _ => .error (.missingParen whole)
  | n + 1, depth, flags, lvl, names, cs =>
    match cs with
    | [] => if depth > 0 then .error (.missingParen whole) else .ok (lvl.finish, flags, names, [])
    | ')' :: _ => if depth == 0 then .error (.unexpectedParen whole) else .ok (lvl.finish, flags, names, cs)
    | '|' :: rest =>
      group whole n depth flags { alts := catAll lvl.items.reverse :: lvl.alts } names rest
    | '(' :: rest => do
      match rest with
      | '?' :: 'P' :: '<' :: more@(_ :: _) | '?' :: '<' :: more@(_ :: _) =>
        -- a named group
        match more.findIdx? (· == '>') with
        | none => throw (.invalidNamedCapture (String.ofList cs))
        | some e =>
          let name := more.take e
          let after := more.drop (e + 1)
          if !validGroupName name || names.contains (String.ofList name) then
            throw (.invalidNamedCapture (between cs after))
          let (node, _, names, after) ←
            group whole n (depth + 1) flags {} (names ++ [String.ofList name]) after
          match after with
          | ')' :: more => group whole n depth flags (lvl.push node) names more
          | _ => throw (.missingParen whole)
      | '?' :: more =>
        let (f, opens, after) ← flagGroup cs flags (more.length + 1) false false more
        if opens then
          let (node, _, names, after) ← group whole n (depth + 1) f {} names after
          match after with
          | ')' :: more => group whole n depth flags (lvl.push node) names more
          | _ => throw (.missingParen whole)
        else
          -- flags that hold from here to the end of this group
          group whole n depth f { lvl with lastRepeat := none } names after
      | _ =>
        let (node, _, names, after) ← group whole n (depth + 1) flags {} names rest
        match after with
        | ')' :: more => group whole n depth flags (lvl.push node) names more
        | _ => throw (.missingParen whole)
    | '^' :: rest =>
      group whole n depth flags (lvl.push (.anchor (if flags.multiLine then .lineStart else .textStart))) names rest
    | '$' :: rest =>
      group whole n depth flags (lvl.push (.anchor (if flags.multiLine then .lineEnd else .textEnd))) names rest
    | '.' :: rest => group whole n depth flags (lvl.push (.any flags.dotNewline)) names rest
    | '[' :: _ => do
      let (set, rest) ← bracketClass flags cs
      group whole n depth flags (lvl.push (.chars set)) names rest
    | c :: rest =>
      if c == '*' || c == '+' || c == '?' || c == '{' then
        let counted : Option (Option Nat × Option (Option Nat) × List Char) :=
          if c == '{' then braces? cs else none
        if c == '{' && counted.isNone then
          group whole n depth flags (lvl.push (literal flags '{'.toNat)) names rest
        else
          let (lo, hi, after) : Option Nat × Option (Option Nat) × List Char :=
            match c, counted with
            | '*', _ => (some 0, none, rest)
            | '+', _ => (some 1, none, rest)
            | '?', _ => (some 0, some (some 1), rest)
            | _, some r => r
            | _, none => (some 0, none, rest)
          let tooBig := match lo, hi with
            | none, _ => true
            | _, some none => true
            | some l, some (some h) => l > 1000 || h > 1000 || l > h
            | some l, none => l > 1000
          if c == '{' && tooBig then .error (.invalidRepeatSize (between cs after))
          else
            let (lazyMark, after) := match after with
              | '?' :: more => (true, more)
              | more => (false, more)
            match lvl.lastRepeat with
            | some start => .error (.invalidRepeatOp (between start after))
            | none =>
              match lvl.items with
              | [] => .error (.missingRepeatArgument (between cs after))
              | x :: items =>
                let greedy := lazyMark == flags.lazy
                let node := Node.rep x (lo.getD 0) (hi.map (·.getD 0)) greedy
                let counts := match lo, hi with
                  | some l, some (some h) => l ≥ 2 || h ≥ 2
                  | some l, none => l ≥ 2
                  | _, _ => false
                if c == '{' && counts && !repeatFits node 1000 then
                  .error (.invalidRepeatSize (between cs after))
                else
                  group whole n depth flags { lvl with items := node :: items, lastRepeat := some cs }
                    names after
      else if c == '\\' then
        match rest with
        | 'A' :: more => group whole n depth flags (lvl.push (.anchor .textStart)) names more
        | 'z' :: more => group whole n depth flags (lvl.push (.anchor .textEnd)) names more
        | 'b' :: more => group whole n depth flags (lvl.push (.anchor .wordBoundary)) names more
        | 'B' :: more => group whole n depth flags (lvl.push (.anchor .notWordBoundary)) names more
        | 'C' :: more => .error (.invalidEscape (between cs more))
        | 'Q' :: more =>
          -- literal text up to \E or the end
          let (lit, after) := quoted more []
          let lvl := lit.foldl (fun l ch => l.push (literal flags ch.toNat)) lvl
          group whole n depth flags lvl names after
        | _ => do
          match ← unicodeClass? cs with
          | some (s, more) =>
            group whole n depth flags (lvl.push (.chars (if flags.fold then CharSet.fold s else s))) names more
          | none =>
          match perlClassEscape? cs with
          | some (s, more) =>
            group whole n depth flags (lvl.push (.chars (if flags.fold then CharSet.fold s else s))) names more
          | none =>
            let (code, more) ← escape cs
            group whole n depth flags (lvl.push (literal flags code)) names more
      else group whole n depth flags (lvl.push (literal flags c.toNat)) names rest
where
  /-- The text of `\Q...\E`, and what follows `\E`. -/
  quoted : List Char → List Char → List Char × List Char
    | [], acc => (acc.reverse, [])
    | '\\' :: 'E' :: rest, acc => (acc.reverse, rest)
    | c :: rest, acc => quoted rest (c :: acc)

/-- Reads a regular expression. -/
def parse (text : String) (flags : Flags := {}) : Except SyntaxError Node := do
  let cs := text.toList
  let (node, _, _, _) ← group text (cs.length + 1) 0 flags {} [] cs
  return node

end JobShell.Regex

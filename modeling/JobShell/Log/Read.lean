import JobShell.Log.Entry
import JobShell.Json.Read

/-!
# Reading the event log

The log is read as a stream of JSON values, one after another, with blanks between them
or none. Reading stops at the end of the text, or quietly at a `]` or `}` where a value
would start. Each value is first checked as JSON; an error there is the JSON syntax
error, or `unexpected EOF` when the text ends inside the value.

Each value is then read as a record by the `Protojson`. The shell's own reads it more
strictly than the stream reader:

* it must be an object, else `unexpected token` names the first token;
* a member name may not repeat (`duplicate map key`);
* a number must fit a double (`invalid google.protobuf.Value`);
* a surrogate escape must be the first half of a pair whose second half follows.

Positions in these messages are a line and a column of the value's own text, counted
in characters from 1. Every such message starts with `proto: `.
-/
namespace JobShell.Log

open JobShell.Num

/-- Why a value could not be read as a record. -/
inductive RecordError where
  | unexpectedToken (pos : Nat) (raw : String)
  | duplicateKey (pos : Nat) (raw : String)
  | badNumber (pos : Nat) (raw : String)
  | badEscape (pos : Nat) (code : String)
  | unexpectedEnd
  deriving Repr, DecidableEq

/-- The line and column of a character offset in a text. -/
def lineColumn (text : List Char) (pos : Nat) : Nat × Nat :=
  let before := text.take pos
  let line := (before.filter (· == '\n')).length + 1
  let col := (before.reverse.takeWhile (· != '\n')).length + 1
  (line, col)

/-- A text quoted with escapes, as error messages quote a piece of input. -/
def quoteCode (cs : List Char) : String :=
  "\"" ++ String.join (cs.map fun c =>
    if c == '"' then "\\\"" else if c == '\\' then "\\\\"
    else if c == '\n' then "\\n" else if c == '\t' then "\\t" else if c == '\r' then "\\r"
    else if c.toNat < 0x20 || c.toNat == 0x7f then
      "\\x" ++ (if c.toNat < 16 then "0" else "") ++ String.ofList (Nat.toDigits 16 c.toNat)
    else c.toString) ++ "\""

def RecordError.message (text : List Char) : RecordError → String
  | .unexpectedEnd => "proto: unexpected EOF"
  | .unexpectedToken pos raw =>
    let (l, c) := lineColumn text pos
    "proto: syntax error (line " ++ toString l ++ ":" ++ toString c ++ "): unexpected token " ++ raw
  | .duplicateKey pos raw =>
    let (l, c) := lineColumn text pos
    "proto: (line " ++ toString l ++ ":" ++ toString c ++ "): duplicate map key " ++ raw
  | .badNumber pos raw =>
    let (l, c) := lineColumn text pos
    "proto: (line " ++ toString l ++ ":" ++ toString c ++ "): invalid google.protobuf.Value: " ++ raw
  | .badEscape pos code =>
    let (l, c) := lineColumn text pos
    "proto: syntax error (line " ++ toString l ++ ":" ++ toString c ++ "): invalid escape code " ++
      code ++ " in string"

/-- A token of a record's text. -/
inductive Token where
  | open_ (bracket : Char)
  | close (bracket : Char)
  | str (s : String)
  | num (v : Num.Value)
  | lit (v : LogValue)
  deriving Repr, Inhabited

/-- Where reading stands: what is left, and its offset in the value's text. -/
structure Cursor where
  rest : List Char
  pos : Nat

/-- Skips blanks and the separators `,` and `:`, which a checked value has in their
places. -/
def Cursor.skip (c : Cursor) : Cursor :=
  let n := (c.rest.takeWhile fun ch => ch == ' ' || ch == '\t' || ch == '\n' || ch == '\r' ||
    ch == ',' || ch == ':').length
  { rest := c.rest.drop n, pos := c.pos + n }

/-- The bytes of a character in UTF-8. -/
def utf8Size (c : Char) : Nat :=
  if c.toNat < 0x80 then 1 else if c.toNat < 0x800 then 2 else if c.toNat < 0x10000 then 3 else 4

/-- The characters that make up the first `n` bytes of a text. -/
def takeBytes : Nat → List Char → List Char
  | 0, _ => []
  | _, [] => []
  | n + 1, c :: cs => c :: takeBytes (n + 1 - utf8Size c) cs

/-- The body of a string after its opening quote: its text, and what follows the
closing quote. A surrogate escape must be a high half followed by the escape of a low
half. -/
def stringBody (start : Nat) (acc : List Char) : List Char → Except RecordError (String × List Char)
  | [] => .error .unexpectedEnd
  | '"' :: rest => .ok (String.ofList acc.reverse, rest)
  | '\\' :: 'u' :: a :: b :: c :: d :: rest =>
    match JsonRead.hex4? a b c d with
    | none => .error (.badEscape start (quoteCode ['\\', 'u', a, b, c, d]))
    | some n =>
      if 0xD800 ≤ n && n < 0xE000 then
        if (rest.take 6).foldl (fun s ch => s + utf8Size ch) 0 < 6 then .error .unexpectedEnd
        else
          match _h : rest with
          | '\\' :: 'u' :: e :: f :: g :: h :: more =>
            match JsonRead.hex4? e f g h with
            | some m =>
              if n < 0xDC00 && 0xDC00 ≤ m && m < 0xE000 then
                stringBody start (Char.ofNat (0x10000 + (n - 0xD800) * 1024 + (m - 0xDC00)) :: acc) more
              else .error (.badEscape start (quoteCode (takeBytes 6 rest)))
            | none => .error (.badEscape start (quoteCode (takeBytes 6 rest)))
          | _ => .error (.badEscape start (quoteCode (takeBytes 6 rest)))
      else stringBody start (Char.ofNat n :: acc) rest
  | '\\' :: e :: rest =>
    match JsonRead.simpleEscape e with
    | some ch => stringBody start (ch :: acc) rest
    | none => .error (.badEscape start (quoteCode ['\\', e]))
  | '\\' :: [] => .error .unexpectedEnd
  | c :: rest => stringBody start (c :: acc) rest
termination_by cs => cs.length
decreasing_by all_goals (simp_all; try omega)

/-- Reads the next token: what it is, its raw text, where it starts, and the cursor
after it. -/
def nextToken (c : Cursor) : Except RecordError (Token × String × Nat × Cursor) :=
  let c := c.skip
  let start := c.pos
  match c.rest with
  | [] => .error .unexpectedEnd
  | ch :: more =>
    if ch == '{' || ch == '[' then .ok (.open_ ch, ch.toString, start, { rest := more, pos := start + 1 })
    else if ch == '}' || ch == ']' then .ok (.close ch, ch.toString, start, { rest := more, pos := start + 1 })
    else if ch == '"' then
      match stringBody start [] more with
      | .error e => .error e
      | .ok (s, rest) =>
        let len := c.rest.length - rest.length
        .ok (.str s, String.ofList (c.rest.take len), start, { rest, pos := start + len })
    else
      let word := c.rest.takeWhile fun x =>
        x.isAlphanum || x == '-' || x == '+' || x == '.'
      let raw := String.ofList word
      let next : Cursor := { rest := c.rest.drop word.length, pos := start + word.length }
      if raw == "null" then .ok (.lit .null, raw, start, next)
      else if raw == "true" then .ok (.lit (.bool true), raw, start, next)
      else if raw == "false" then .ok (.lit (.bool false), raw, start, next)
      else match Value.ofText? raw with
        | some v => .ok (.num v, raw, start, next)
        | none => .error (.unexpectedToken start raw)

mutual

/-- Reads a value. -/
def readValue : Nat → Cursor → Except RecordError (LogValue × Cursor)
  | 0, _ => .error .unexpectedEnd
  | n + 1, c => do
    let (tok, raw, start, c) ← nextToken c
    match tok with
    | .lit v => return (v, c)
    | .str s => return (.string s, c)
    | .num v =>
      match v with
      | .finite _ _ => return (.number v, c)
      | _ => throw (.badNumber start raw)
    | .open_ '{' =>
      let (fs, c) ← readMembers n [] c
      return (.struct fs, c)
    | .open_ _ =>
      let (items, c) ← readItems n [] c
      return (.list items, c)
    | .close _ => throw (.unexpectedToken start raw)

/-- Reads the members of a record after its `{`. -/
def readMembers : Nat → Entry → Cursor → Except RecordError (Entry × Cursor)
  | 0, _, _ => .error .unexpectedEnd
  | n + 1, acc, c => do
    let (tok, raw, start, c') ← nextToken c
    match tok with
    | .close '}' => return (acc, c')
    | .str key =>
      if acc.any (·.1 == key) then throw (.duplicateKey start raw)
      let (v, c'') ← readValue n c'
      readMembers n (acc ++ [(key, v)]) c''
    | _ => throw (.unexpectedToken start raw)

/-- Reads the items of a list after its `[`. -/
def readItems : Nat → List LogValue → Cursor → Except RecordError (List LogValue × Cursor)
  | 0, _, _ => .error .unexpectedEnd
  | n + 1, acc, c => do
    match c.skip.rest with
    | ']' :: _ =>
      let (_, _, _, c') ← nextToken c
      return (acc.reverse, c')
    | _ =>
      let (v, c') ← readValue n c
      readItems n (v :: acc) c'

end

/-- Reads the text of one checked JSON value as a log entry. -/
def readEntry (text : List Char) : Except RecordError Entry := do
  let c : Cursor := { rest := text, pos := 0 }
  let (tok, raw, start, c) ← nextToken c
  match tok with
  | .open_ '{' =>
    let (fs, _) ← readMembers (text.length + 1) [] c
    return fs
  | _ => throw (.unexpectedToken start raw)

/-- The shell's own JSON form of a record: compact, with the members in sorted order, read
back by `readEntry`. -/
instance Protojson.builtin : Protojson where
  marshal e := LogValue.render (.struct (sortFields e))
  unmarshal raw := (readEntry raw).mapError (·.message raw)

/-- The message of a JSON syntax error met while reading the stream: the text ending
inside a value is an early end of the stream. -/
def streamMessage : JsonSyntaxError → String
  | .unexpectedEnd => "unexpected EOF"
  | e => e.message

/-- Reads every entry of a log, in order, or gives the first error. -/
def readLog [Protojson] (text : String) : Except String (List Entry) :=
  go (text.length + 1) text.toList []
where
  go : Nat → List Char → List Entry → Except String (List Entry)
    | 0, _, acc => .ok acc.reverse
    | n + 1, cs, acc =>
      match JsonRead.skipBlanks cs with
      | [] => .ok acc.reverse
      | ']' :: _ | '}' :: _ => .ok acc.reverse
      | start =>
        match JsonRead.value (start.length + 1) start with
        | .error e => .error (streamMessage e)
        | .ok (_, rest) =>
          let raw := start.take (start.length - rest.length)
          match Protojson.unmarshal raw with
          | .error e => .error e
          | .ok entry => go n rest (entry :: acc)

end JobShell.Log

/-!
# Splitting an alias into words

An alias's value is split into words the way a POSIX shell's lexer splits a line, without
any expansion: blanks separate words, single quotes keep everything up to the next single
quote, double quotes keep everything up to the next double quote except that a backslash
there escapes a `"` or another backslash (and is kept before anything else), and a
backslash outside quotes makes the next character plain. Words that come out empty are
dropped.

An unfinished quote or a backslash at the very end is an error.
-/
namespace JobShell.Text

/-- The white space of Unicode, as the lexer sees it. -/
def isUnicodeSpace (c : Char) : Bool :=
  let n := c.toNat
  (9 ≤ n && n ≤ 13) || n == 32 || n == 0x85 || n == 0xA0 || n == 0x1680 ||
    (0x2000 ≤ n && n ≤ 0x200A) || n == 0x2028 || n == 0x2029 || n == 0x202F ||
    n == 0x205F || n == 0x3000

/-- Where the lexer is within a word. -/
inductive LexState where
  /-- Between words. -/
  | blank
  /-- Inside a word, outside quotes. -/
  | word
  /-- Inside quotes opened by the character. -/
  | quote (q : Char)
  /-- Right after a backslash; the state to go back to. -/
  | escape (back : LexState)
  deriving Repr, Inhabited

/-- The error of an unfinished word. -/
def lexError : LexState → Option String
  | .quote _ => some "No closing quotation"
  | .escape _ => some "No escaped character"
  | _ => none

/-- Splits the characters into words; `cur` is the word being read, reversed, and
`acc` the finished words, reversed. -/
def splitChars : List Char → LexState → List Char → List String → Except String (List String)
  | [], st, cur, acc =>
    match lexError st with
    | some e => .error e
    | none => .ok (if cur.isEmpty then acc.reverse else (String.ofList cur.reverse :: acc).reverse)
  | c :: rest, .blank, cur, acc =>
    if isUnicodeSpace c then splitChars rest .blank cur acc
    else if c == '\\' then splitChars rest (.escape .word) cur acc
    else if c == '\'' || c == '"' then splitChars rest (.quote c) cur acc
    else splitChars rest .word (c :: cur) acc
  | c :: rest, .word, cur, acc =>
    if isUnicodeSpace c then
      let acc := if cur.isEmpty then acc else String.ofList cur.reverse :: acc
      splitChars rest .blank [] acc
    else if c == '\'' || c == '"' then splitChars rest (.quote c) cur acc
    else if c == '\\' then splitChars rest (.escape .word) cur acc
    else splitChars rest .word (c :: cur) acc
  | c :: rest, .quote q, cur, acc =>
    if c == q then splitChars rest .word cur acc
    else if c == '\\' && q == '"' then splitChars rest (.escape (.quote q)) cur acc
    else splitChars rest (.quote q) (c :: cur) acc
  | c :: rest, .escape back, cur, acc =>
    let cur := match back with
      | .quote q => if c != '\\' && c != q then c :: '\\' :: cur else c :: cur
      | _ => c :: cur
    splitChars rest back cur acc

/-- The words of an alias's value. -/
def aliasWords (s : String) : Except String (List String) :=
  splitChars s.toList .blank [] []

end JobShell.Text

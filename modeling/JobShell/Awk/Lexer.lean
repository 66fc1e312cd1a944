import JobShell.Awk.Syntax

/-!
# The awk language: tokens

The program text is read one token at a time, on demand: whether a `/` starts a regular
expression or divides depends on where the parser is, so the parser asks for a regular
expression itself (`Lexer.regex`) when it meets a `/` or `/=` where a value must start.

Blanks, tabs, carriage returns, comments (`#` to the end of the line) and a backslash
before a line break are skipped; a line break is a token. A name followed at once by `(`
is told apart from one with blanks between (`hadSpace`), since only the former calls a
function.

A string may be written between double or single quotes and knows the escapes `\n \t \r
\a \b \f \v \"  \\ \/`, octal `\ooo` and hexadecimal `\xhh`; before any other character
the backslash stays. In a regular expression `\/` is a slash and every other backslash
stays for the expression to read.
-/
namespace JobShell.Awk

/-- A token. -/
inductive Tok where
  | illegal (msg : String)
  | eof
  | newline
  /-- an operator or punctuation, by its text -/
  | sym (s : String)
  | keyword (k : String)
  | builtin (b : Builtin)
  | name (s : String)
  | number (text : String)
  | string (s : String)
  | regex (s : String)
  deriving Repr, DecidableEq, Inhabited

/-- How a token is named in messages. -/
def Tok.describe : Tok → String
  | .illegal _ => "<illegal>"
  | .eof => "EOF"
  | .newline => "<newline>"
  | .sym s => s
  | .keyword k => k
  | .builtin b => b.name
  | .name _ => "name"
  | .number _ => "number"
  | .string _ => "string"
  | .regex _ => "regex"

def keywords : List String :=
  ["BEGIN", "END", "break", "continue", "delete", "do", "else", "exit", "for", "function",
   "getline", "if", "in", "next", "nextfile", "print", "printf", "return", "while"]

/-- The token of a word: a keyword, a built-in function, or a name. -/
def wordToken (w : String) : Tok :=
  if w == "func" then .keyword "function"
  else if keywords.contains w then .keyword w
  else match Builtin.all.find? (·.name == w) with
    | some b => .builtin b
    | none => .name w

/-- Where reading stands: the text left and the place of its first character. -/
structure Lexer where
  rest : List Char
  pos : Pos := {}
  deriving Repr, Inhabited

namespace Lexer

/-- Moves past one character. -/
def advance (l : Lexer) : Lexer :=
  match l.rest with
  | [] => l
  | c :: cs =>
    { rest := cs, pos := if c == '\n' then { line := l.pos.line + 1, col := 1 }
                         else { l.pos with col := l.pos.col + 1 } }

def peek (l : Lexer) : Option Char := l.rest.head?

def isNameStart (c : Char) : Bool := ('a' ≤ c && c ≤ 'z') || ('A' ≤ c && c ≤ 'Z') || c == '_'

/-- Skips blanks, line continuations and a comment. Gives whether anything was skipped, or
the message of a backslash not followed by a line break. -/
def skipBlank (l : Lexer) : Except (Pos × String) (Lexer × Bool) :=
  go l.rest.length l false
where
  go : Nat → Lexer → Bool → Except (Pos × String) (Lexer × Bool)
    | 0, l, s => .ok (l, s)
    | n + 1, l, s =>
      match l.rest with
      | ' ' :: _ | '\t' :: _ | '\r' :: _ => go n l.advance true
      | '\\' :: '\r' :: '\n' :: _ => go n l.advance.advance.advance true
      | '\\' :: '\n' :: _ => go n l.advance.advance true
      | '\\' :: _ => .error (l.advance.pos, "expected \\n after \\ line continuation")
      | '#' :: _ =>
        let body := l.rest.takeWhile (· != '\n')
        .ok (body.foldl (fun l _ => l.advance) l, true)
      | _ => .ok (l, s)

/-- Moves past `n` characters. -/
def advanceBy (l : Lexer) (n : Nat) : Lexer := (List.range n).foldl (fun l _ => l.advance) l

/-- The value of an octal or hexadecimal digit. -/
def digitValue (base : Nat) (c : Char) : Option Nat :=
  let v := if '0' ≤ c && c ≤ '9' then some (c.toNat - '0'.toNat)
    else if 'a' ≤ c && c ≤ 'f' then some (c.toNat - 'a'.toNat + 10)
    else if 'A' ≤ c && c ≤ 'F' then some (c.toNat - 'A'.toNat + 10)
    else none
  v.bind fun d => if d < base then some d else none

/-- The character of a byte value from an escape. -/
def byteChar (n : Nat) : Char := Char.ofNat (n % 256)

/-- Reads the body of a string after its opening quote, up to the closing quote, a line
break or the end, which is left unread. -/
def stringBody (quote : Char) : Nat → Lexer → List Char → Lexer × List Char
  | 0, l, acc => (l, acc.reverse)
  | n + 1, l, acc =>
    match l.rest with
    | [] => (l, acc.reverse)
    | c :: more =>
      if c == quote || c == '\n' then (l, acc.reverse)
      else if c != '\\' then stringBody quote n l.advance (c :: acc)
      else
        match more with
        | [] => (l.advance, ('\\' :: acc).reverse)
        | e :: after =>
          let l2 := l.advance.advance
          match e with
          | 'n' => stringBody quote n l2 ('\n' :: acc)
          | 't' => stringBody quote n l2 ('\t' :: acc)
          | 'r' => stringBody quote n l2 ('\r' :: acc)
          | 'a' => stringBody quote n l2 ('\x07' :: acc)
          | 'b' => stringBody quote n l2 ('\x08' :: acc)
          | 'f' => stringBody quote n l2 ('\x0c' :: acc)
          | 'v' => stringBody quote n l2 ('\x0b' :: acc)
          | '\\' => stringBody quote n l2 ('\\' :: acc)
          | '"' => stringBody quote n l2 ('"' :: acc)
          | '\'' => stringBody quote n l2 ('\'' :: acc)
          | '/' => stringBody quote n l2 ('/' :: acc)
          | 'x' =>
            match after with
            | h1 :: rest1 =>
              match digitValue 16 h1 with
              | none => stringBody quote n l.advance ('\\' :: acc)
              | some d1 =>
                match rest1.head?.bind (digitValue 16) with
                | some d2 => stringBody quote n (l2.advanceBy 2) (byteChar (d1 * 16 + d2) :: acc)
                | none => stringBody quote n (l2.advanceBy 1) (byteChar d1 :: acc)
            | [] => stringBody quote n l.advance ('\\' :: acc)
          | _ =>
            match digitValue 8 e with
            | some d1 =>
              let ds := (after.take 2).takeWhile fun x => (digitValue 8 x).isSome
              let v := ds.foldl (fun v x => v * 8 + ((digitValue 8 x).getD 0)) d1
              stringBody quote n (l2.advanceBy ds.length) (byteChar v :: acc)
            | none => stringBody quote n l.advance ('\\' :: acc)

/-- Reads a number: digits, a point and digits, and an exponent only when digits follow
its `e` (so `1e` is the number 1 and the name `e`). -/
def numberText (cs : List Char) : List Char :=
  let intPart := cs.takeWhile Char.isDigit
  let afterInt := cs.drop intPart.length
  let (frac, afterFrac) := match afterInt with
    | '.' :: r => let f := r.takeWhile Char.isDigit; ('.' :: f, r.drop f.length)
    | r => ([], r)
  let expPart := match afterFrac with
    | e :: r =>
      if e == 'e' || e == 'E' then
        let (sign, r') := match r with
          | '+' :: t => (['+'], t)
          | '-' :: t => (['-'], t)
          | t => ([], t)
        let ds := r'.takeWhile Char.isDigit
        if ds.isEmpty then [] else e :: sign ++ ds
      else []
    | [] => []
  intPart ++ frac ++ expPart

/-- Operators and punctuation, longest first. -/
def symbols : List String :=
  ["**=", "&&", "||", "==", "!=", "<=", ">=", ">>", "++", "--", "+=", "-=", "*=", "/=", "%=",
   "^=", "**", "!~", "\x7b", "\x7d", "(", ")", "[", "]", ",", ";", "+", "-", "*", "/", "%", "^",
   "!", "<", ">", "|", "?", ":", "~", "$", "=", "@"]

/-- Reads the next token: the token, where it starts, whether blanks came before it, and
the reader after it. -/
def next (l : Lexer) : Tok × Pos × Bool × Lexer :=
  match l.skipBlank with
  | .error (p, msg) => (.illegal msg, p, false, l)
  | .ok (l, space) =>
    let start := l.pos
    match l.rest with
    | [] => (.eof, start, space, l)
    | c :: more =>
      if c == '\n' then (.newline, start, space, l.advance)
      else if isNameStart c then
        let w := (c :: more).takeWhile fun x => isNameStart x || x.isDigit
        (wordToken (String.ofList w), start, space, l.advanceBy w.length)
      else if c == '"' || c == '\'' then
        let (l', body) := stringBody c l.rest.length l.advance []
        match l'.rest with
        | q :: _ => if q == c then (.string (String.ofList body), start, space, l'.advance)
          else (.illegal "didn't find end quote in string", l'.pos, space, l')
        | [] => (.illegal "didn't find end quote in string", l'.pos, space, l')
      else if c.isDigit || c == '.' then
        let text := numberText l.rest
        let hasDigit := (text.takeWhile fun x => x != 'e' && x != 'E').any Char.isDigit
        if !hasDigit then (.illegal "expected digits", l.advance.pos, space, l.advance)
        else (.number (String.ofList text), start, space, l.advanceBy text.length)
      else if c == '&' && more.head? != some '&' then
        (.illegal "unexpected char after '&'", l.advance.pos, space, l.advance)
      else
        match symbols.find? (fun s => s.toList.isPrefixOf l.rest) with
        | some s =>
          -- `**` is another spelling of `^`
          let t := if s == "**" then "^" else if s == "**=" then "^=" else s
          (.sym t, start, space, l.advanceBy s.length)
        | none => (.illegal "unexpected char", start, space, l.advance)

/-- Reads a regular expression after its opening `/` (or `/=`, whose `=` belongs to the
expression): its text and the reader after the closing `/`, or a message and where. -/
def regex (l : Lexer) (afterAssign : Bool) : Except (Pos × String) (String × Lexer) :=
  go l.rest.length l (if afterAssign then ['='] else [])
where
  go : Nat → Lexer → List Char → Except (Pos × String) (String × Lexer)
    | 0, l, _ => .error (l.pos, "didn't find end slash in regex")
    | n + 1, l, acc =>
      match l.rest with
      | [] => .error (l.pos, "didn't find end slash in regex")
      | '/' :: _ => .ok (String.ofList acc.reverse, l.advance)
      | '\n' :: _ | '\r' :: _ => .error (l.pos, "can't have newline in regex")
      | '\\' :: '/' :: _ => go n l.advance.advance ('/' :: acc)
      | '\\' :: c :: _ => go n l.advance.advance (c :: '\\' :: acc)
      | c :: _ => go n l.advance (c :: acc)

end Lexer

end JobShell.Awk

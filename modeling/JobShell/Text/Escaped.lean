/-!
# Double-quoted text with backslash escapes

Error messages show user text between double quotes. A printable character stands for
itself; a quote and a backslash get a backslash; the usual control characters use their
letter escapes (`\n`, `\t`, …); any other character that does not print is written by its
code in hexadecimal (`\x7f`, ` `, `\U000f0000`).
-/
namespace JobShell.Text

/-- Characters outside ASCII that print: everything but the C1 controls, the spaces other
than the ASCII space, format and separator characters, private use and noncharacters. -/
def isPrintableWide (n : Nat) : Bool :=
  !(n ≤ 0x9f ||
    n == 0xa0 || n == 0xad || n == 0x1680 || n == 0x180e ||
    (0x2000 ≤ n && n ≤ 0x200f) || (0x2028 ≤ n && n ≤ 0x202f) ||
    (0x205f ≤ n && n ≤ 0x206f) || n == 0x3000 || n == 0xfeff ||
    (0xe000 ≤ n && n ≤ 0xf8ff) || (0xfff9 ≤ n && n ≤ 0xfffb) ||
    n == 0xfffe || n == 0xffff || 0xf0000 ≤ n)

/-- Whether a character stands for itself between quotes. -/
def isPrintable (c : Char) : Bool :=
  let n := c.toNat
  if n < 0x80 then 0x20 ≤ n && n < 0x7f else isPrintableWide n

/-- Lower-case hexadecimal digits of `n`, left-padded with zeros to `width`. -/
def hexPadded (width n : Nat) : String :=
  let digits := Nat.toDigits 16 n
  String.ofList (List.replicate (width - digits.length) '0' ++ digits)

/-- The escaped form of one character inside double quotes. -/
def escapeChar (c : Char) : String :=
  match c with
  | '"' => "\\\""
  | '\\' => "\\\\"
  | '\x07' => "\\a"
  | '\x08' => "\\b"
  | '\x0c' => "\\f"
  | '\n' => "\\n"
  | '\r' => "\\r"
  | '\t' => "\\t"
  | '\x0b' => "\\v"
  | _ =>
    if isPrintable c then c.toString
    else if c.toNat < 0x80 then "\\x" ++ hexPadded 2 c.toNat
    else if c.toNat < 0x10000 then "\\u" ++ hexPadded 4 c.toNat
    else "\\U" ++ hexPadded 8 c.toNat

/-- Text between double quotes, every character escaped as `escapeChar` says. -/
def quoted (s : String) : String :=
  "\"" ++ String.join (s.toList.map escapeChar) ++ "\""

end JobShell.Text

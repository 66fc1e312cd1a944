/-!
# Shell words for display

Text written for a reader: shell words, and columns padded to a width.

How a word is written so that a POSIX shell reads it back as the same word. The empty word
is `''`. A word with a space, tab or newline is put in single quotes, a single quote inside
it written as `\'` between quoted runs. Any other word is written as is, with a backslash
before each of ``\ ' " ` $ { [ | & ; < > ( ) * ? !`` and before a leading `~`.
-/
namespace JobShell.Text

def isQuoteTrigger (c : Char) : Bool := c == ' ' || c == '\t' || c == '\n'

def isSpecial (c : Char) : Bool := "\\'\"\x60$\x7b[|&;<>()*?!".toList.contains c

/-- A word without blanks, each special character behind a backslash. -/
def escapeWord : Bool → List Char → List Char
  | _, [] => []
  | atStart, c :: cs =>
    if isSpecial c || (atStart && c == '~') then '\\' :: c :: escapeWord false cs
    else c :: escapeWord false cs

/-- Single-quoted runs of the text between single quotes, each single quote as `\'`. -/
def quoteRuns (runs : List String) : String :=
  match runs with
  | [] => ""
  | [last] => if last.isEmpty then "" else "'" ++ last ++ "'"
  | r :: rest => (if r.isEmpty then "" else "'" ++ r ++ "'") ++ "\\'" ++ quoteRuns rest

/-- The written form of one word. -/
def shellWord (w : String) : String :=
  if w.isEmpty then "''"
  else if w.toList.any isQuoteTrigger then quoteRuns (w.splitOn "'")
  else String.ofList (escapeWord true w.toList)

/-- Words written one after the other, separated by single spaces. -/
def shellWords (ws : List String) : String := " ".intercalate (ws.map shellWord)

/-! ## Padding to a width

Column layouts pad a text with spaces to a width counted in characters; a text already
that wide is left as it is. -/

def spaces (n : Nat) : String := String.ofList (List.replicate n ' ')

/-- Spaces in front up to `width` characters. -/
def padLeft (width : Nat) (s : String) : String := spaces (width - s.length) ++ s

/-- Spaces after up to `width` characters. -/
def padRight (width : Nat) (s : String) : String := s ++ spaces (width - s.length)

theorem padRight_length (width : Nat) (s : String) :
    (padRight width s).length = max width s.length := by
  simp [padRight, spaces, String.length_append]
  omega

end JobShell.Text

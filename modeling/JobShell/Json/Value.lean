/-!
# JSON values and their text

A JSON value keeps a number as the literal it was written with, so that a reader can
decide later whether it fits an integer, and keeps object members in written order.

The writer escapes `"` and `\`, writes `\n`, `\r`, `\t`, `\b`, `\f` by their letters and
other control characters as `\u00XX`. With `htmlSafe` it also escapes `<`, `>`, `&` and
the two line separators U+2028 and U+2029, so the text can sit inside a web page.
-/
namespace JobShell

inductive JsonValue where
  | null
  | bool (b : Bool)
  | number (literal : String)
  | string (s : String)
  | array (items : List JsonValue)
  | object (members : List (String × JsonValue))
  deriving Repr, Inhabited, BEq

namespace JsonValue

def ofInt (n : Int) : JsonValue := .number (toString n)

/-- The member of an object with the given key: the last one when a key repeats. -/
def field? (v : JsonValue) (key : String) : Option JsonValue :=
  match v with
  | .object ms => (ms.reverse.find? (·.1 == key)).map (·.2)
  | _ => none

/-- The kind of a value, as type errors name it. -/
def kindName : JsonValue → String
  | .null => "null"
  | .bool _ => "bool"
  | .number _ => "number"
  | .string _ => "string"
  | .array _ => "array"
  | .object _ => "object"

end JsonValue

namespace JsonText

/-- Hex digits of a code below 0x10000, four of them, lower case. -/
def hex4 (n : Nat) : String :=
  let d := Nat.toDigits 16 n
  String.ofList (List.replicate (4 - d.length) '0' ++ d)

/-- The escaped form of one character inside a JSON string. -/
def escapeChar (htmlSafe : Bool) (c : Char) : String :=
  match c with
  | '"' => "\\\""
  | '\\' => "\\\\"
  | '\n' => "\\n"
  | '\r' => "\\r"
  | '\t' => "\\t"
  | '\x08' => "\\b"
  | '\x0c' => "\\f"
  | _ =>
    if c.toNat < 0x20 then "\\u" ++ hex4 c.toNat
    else if htmlSafe && (c == '<' || c == '>' || c == '&' || c.toNat == 0x2028 ||
        c.toNat == 0x2029) then "\\u" ++ hex4 c.toNat
    else c.toString

def quote (htmlSafe : Bool) (s : String) : String :=
  "\"" ++ String.join (s.toList.map (escapeChar htmlSafe)) ++ "\""

end JsonText

namespace JsonValue

/-- Compact text: no blanks between tokens. -/
def compact (htmlSafe : Bool) : JsonValue → String
  | .null => "null"
  | .bool b => if b then "true" else "false"
  | .number n => n
  | .string s => JsonText.quote htmlSafe s
  | .array items => "[" ++ ",".intercalate (items.attach.map fun ⟨x, _⟩ => compact htmlSafe x) ++ "]"
  | .object ms =>
    "\x7b" ++ ",".intercalate (ms.attach.map fun ⟨(k, v), _⟩ =>
      JsonText.quote htmlSafe k ++ ":" ++ compact htmlSafe v) ++ "\x7d"
decreasing_by
  all_goals first
    | (have hlt := List.sizeOf_lt_of_mem ‹_ ∈ items›; simp only [JsonValue.array.sizeOf_spec]; omega)
    | (have hlt := List.sizeOf_lt_of_mem ‹_ ∈ ms›; simp at hlt
       simp only [JsonValue.object.sizeOf_spec]; omega)

/-- Indented text: one member or item per line, nested levels indented by `step` more,
and empty containers written as `[]` and `{}`. -/
def indented (htmlSafe : Bool) (step : String) (pad : String) : JsonValue → String
  | .array [] => "[]"
  | .object [] => "\x7b\x7d"
  | .array items =>
    let inner := pad ++ step
    "[\n" ++ ",\n".intercalate (items.attach.map fun ⟨x, _⟩ =>
      inner ++ indented htmlSafe step inner x) ++ "\n" ++ pad ++ "]"
  | .object ms =>
    let inner := pad ++ step
    "\x7b\n" ++ ",\n".intercalate (ms.attach.map fun ⟨(k, v), _⟩ =>
      inner ++ JsonText.quote htmlSafe k ++ ": " ++ indented htmlSafe step inner v) ++
      "\n" ++ pad ++ "\x7d"
  | v => compact htmlSafe v
termination_by v => v
decreasing_by
  all_goals first
    | (have hlt := List.sizeOf_lt_of_mem ‹_ ∈ items›; simp only [JsonValue.array.sizeOf_spec]; omega)
    | (have hlt := List.sizeOf_lt_of_mem ‹_ ∈ ms›; simp at hlt
       simp only [JsonValue.object.sizeOf_spec]; omega)

end JsonValue

end JobShell

import JobShell.Json.Read

/-!
# Decoding JSON into typed records

The rules a record reader follows: an object member names a field by its exact key or, if
none matches exactly, by a key equal up to ASCII case; members that name no field are
skipped; `null` leaves a field at its zero value; a value of the wrong kind is an error that
names the value's kind, the path of the field and the field's type. Integers must be
written without fraction or exponent and fit in 64 bits.
-/
namespace JobShell

inductive DecodeError where
  | malformed (e : JsonSyntaxError)
  /-- A value of kind `found` (with its literal for numbers that do not fit) met a field at
  `path` inside `record` whose type is `target`; `detail` explains further. -/
  | mismatch (found : String) (record path target : String) (detail : Option String)
  /-- A value of kind `found` met a whole record of type `target`. -/
  | wholeMismatch (found : String) (target : String)
  | unknownField (name : String)
  | custom (message : String)
  deriving DecidableEq, Repr

def DecodeError.message : DecodeError → String
  | .malformed e => e.message
  | .mismatch found record path target detail =>
    "json: cannot unmarshal " ++ found ++ " into Go struct field " ++ record ++ "." ++ path ++
      " of type " ++ target ++ (match detail with | some d => ": " ++ d | none => "")
  | .wholeMismatch found target => "json: cannot unmarshal " ++ found ++ " into Go value of type " ++ target
  | .unknownField name => "json: unknown field " ++ Text.quoted name
  | .custom m => m

namespace JsonDecode

def lowerAscii (s : String) : String := s.map Char.toLower

/-- The member that names a field: an exact key first, else one equal up to ASCII case. -/
def namesField (fields : List String) (key : String) : Option String :=
  if fields.contains key then some key
  else fields.find? (fun f => lowerAscii f == lowerAscii key)

def isDigitChar (c : Char) : Bool := '0' ≤ c && c ≤ '9'

/-- A number literal read as a 64-bit integer: digits only after an optional minus. -/
def int64? (literal : String) : Option Int :=
  let (neg, digits) := match literal.toList with
    | '-' :: ds => (true, ds)
    | ds => (false, ds)
  if digits.isEmpty || !digits.all isDigitChar then none
  else
    let n : Nat := digits.foldl (fun acc c => acc * 10 + (c.toNat - '0'.toNat)) 0
    let v : Int := if neg then -(n : Int) else n
    if v < -(9223372036854775808 : Int) || v ≥ (9223372036854775808 : Int) then none else some v

/-- Where a field sits, for messages. -/
structure Place where
  record : String
  path : String

def Place.child (p : Place) (name : String) : Place :=
  { p with path := if p.path.isEmpty then name else p.path ++ "." ++ name }

/-- The kind word for a value that does not fit: numbers carry their literal when an
integer was wanted. -/
def mismatch (p : Place) (v : JsonValue) (target : String) : DecodeError :=
  .mismatch v.kindName p.record p.path target none

/-- An integer field; `null` keeps the current value. -/
def int (p : Place) (cur : Int) : JsonValue → Except DecodeError Int
  | .null => .ok cur
  | .number lit =>
    match int64? lit with
    | some n => .ok n
    | none => .error (.mismatch ("number " ++ lit) p.record p.path "int" none)
  | v => .error (mismatch p v "int")

def bool (p : Place) (cur : Bool) : JsonValue → Except DecodeError Bool
  | .null => .ok cur
  | .bool b => .ok b
  | v => .error (mismatch p v "bool")

def string (p : Place) (cur : String) : JsonValue → Except DecodeError String
  | .null => .ok cur
  | .string s => .ok s
  | v => .error (mismatch p v "string")

/-- A list of integers; `null` makes it empty. -/
def intList (p : Place) : JsonValue → Except DecodeError (List Int)
  | .null => .ok []
  | .array items =>
    (items.zipIdx.mapM fun (v, i) => int (p.child (toString i)) 0 v)
  | v => .error (mismatch p v "[]int")

end JsonDecode

end JobShell

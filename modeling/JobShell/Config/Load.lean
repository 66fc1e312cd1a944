import JobShell.Config.Settings
import JobShell.Yaml.Read
import JobShell.Yaml.Scalar
import JobShell.Json.Value
import JobShell.Num.Binary64

/-!
# Loading the configuration

The configuration file is YAML. It is read as a YAML-to-JSON bridge reads it, and the
JSON is then decoded strictly into the settings:

* the YAML is parsed, and a key repeated in a mapping is an error;
* plain scalars are typed by the YAML 1.1 rules (`yes`, `off`, `~`, `0x1f`, `1_000`,
  `.5`, `2001-12-14`, …); where the setting is a text, numbers and booleans are turned
  back into text;
* the result is a JSON document whose object keys are in sorted order. Fields are matched
  exactly, or else without regard to case. An unknown field or a value of the wrong kind
  is an error, and the first one in key order is the one reported;
* the settings are then validated: `prompt` is required, `color` is one of `always`,
  `auto` and `never`, `history_limit` is not negative, alias names and values and
  environment names are not empty, environment names have no `=`, and startup commands
  are not empty. Every failed rule is reported, one per line.

Every error is prefixed with the file name, `config.yaml: `.
-/
namespace JobShell.Config

open Yaml JobShell.Num

/-- The type of the value a key is decoded into. -/
inductive Target where
  | text
  | integer
  | textMap
  | textList
  | settings
  deriving DecidableEq, Repr

def Target.typeName : Target → String
  | .text => "string"
  | .integer => "int"
  | .textMap => "map[string]string"
  | .textList => "[]string"
  | .settings => "config.Configuration"

/-- The fields of the settings in declaration order, with their types. -/
def fields : List (String × Target) :=
  [("prompt", .text), ("color", .text), ("history_file", .text), ("history_limit", .integer),
   ("event_log", .text), ("aliases", .textMap), ("environment", .textMap), ("startup", .textList)]

def lowerAscii (s : String) : String := s.map Char.toLower

/-- The field a key names: an exact match, else one that differs only in case. -/
def fieldOf? (key : String) : Option (String × Target) :=
  match fields.find? (·.1 == key) with
  | some f => some f
  | none => fields.find? fun f => lowerAscii f.1 == lowerAscii key

/-- A double rounded to single precision. -/
def toSingle : Num.Value → Num.Value
  | .finite neg s =>
    match single.round s (Nat.pow 2 double.shift) with
    | some s32 => .finite neg s32
    | none => .inf neg
  | v => v

/-- The text of a float where a text is wanted: the shortest single-precision form. -/
def floatText (v : Num.Value) : String := formatShortest single (toSingle v)

/-- The text of a key. -/
def keyText : Scalar → Except String String
  | .str s => .ok s
  | .int n => .ok (toString n)
  | .bool b => .ok (if b then "true" else "false")
  | .float v =>
    .ok (match floatText v with
      | "+Inf" => ".inf"
      | "-Inf" => "-.inf"
      | "NaN" => ".nan"
      | t => t)
  | .time t => .ok t
  | .null => .error "unsupported map key of type: <nil>"

def scalarOf (text : String) (plain : Bool) : Scalar := if plain then resolve text else .str text

/-- The JSON a typed scalar becomes; a text target turns numbers and booleans into text. -/
def scalarJson (sc : Scalar) (target : Option Target) : Except String JsonValue :=
  let asText := target == some .text
  match sc with
  | .null => .ok .null
  | .bool b => .ok (if asText then .string (if b then "true" else "false") else .bool b)
  | .int n => .ok (if asText then .string (toString n) else .number (toString n))
  | .str s => .ok (.string s)
  | .time t => .ok (.string t)
  | .float v =>
    if asText then .ok (.string (floatText v))
    else match v with
      | .finite _ _ => .ok (.number (formatJson v))
      | .inf neg => .error ("json: unsupported value: " ++ (if neg then "-Inf" else "+Inf"))
      | .nan => .error "json: unsupported value: NaN"

/-- Sorts object members by key. -/
def sortMembers (ms : List (String × JsonValue)) : List (String × JsonValue) :=
  ms.mergeSort fun a b => decide (a.1 ≤ b.1)

/-- Converts a YAML node to JSON, knowing the type it is decoded into. -/
def toJson : Nat → Node → Option Target → Except String JsonValue
  | 0, _, _ => .error "nesting too deep"
  | _ + 1, .scalar text plain _, target => scalarJson (scalarOf text plain) target
  | n + 1, .seq items _, target => do
    let elemTarget := if target == some .textList then some Target.text else none
    return .array (← items.mapM fun i => toJson n i elemTarget)
  | n + 1, .map entries _, target => do
    let members ← entries.mapM fun (k, v) => do
      let key ← match k with
        | .scalar t p _ => keyText (scalarOf t p)
        | _ => throw "unsupported map key of type: map"
      let vt : Option Target := match target with
        | some .settings => (fieldOf? key).map (·.2)
        | some .textMap => some .text
        | _ => none
      return (key, ← toJson n v vt)
    -- two keys with one text keep the later value
    let deduped := members.foldl (fun (acc : List (String × JsonValue)) m =>
      acc.filter (·.1 != m.1) ++ [m]) []
    return .object (sortMembers deduped)

/-- A key as the duplicate check compares it (its type and value), and as it is shown. -/
def keyIdentity : Node → Option (String × String)
  | .scalar t p _ =>
    match scalarOf t p with
    | .str s => some ("s" ++ s, "\"" ++ s ++ "\"")
    | .int i => some ("i" ++ toString i, toString i)
    | .bool b => let w := if b then "true" else "false"; some ("b" ++ w, w)
    | .null => some ("n", "<nil>")
    | .float v => let w := formatShortest double v; some ("f" ++ w, w)
    | .time w => some ("s" ++ w, "\"" ++ w ++ "\"")
  | _ => none

/-- The line a node starts on. -/
def nodeLine : Node → Nat
  | .scalar _ _ l => l
  | .seq _ l => l
  | .map _ l => l

/-- The keys repeated in mappings, in the order a depth-first decoding meets them: a
key's value is looked at before the key is stored. The line is the value's. -/
def duplicates : Nat → Node → List String
  | 0, _ => []
  | _ + 1, .scalar _ _ _ => []
  | n + 1, .seq items _ => items.flatMap (duplicates n)
  | n + 1, .map entries _ =>
    (entries.foldl (fun (acc : List String × List String) (k, v) =>
      let (errs, seen) := acc
      let inner := duplicates n k ++ duplicates n v
      match keyIdentity k with
      | some (ident, shown) =>
        if seen.contains ident then
          (errs ++ inner ++
            ["line " ++ toString (nodeLine v + 1) ++ ": key " ++ shown ++ " already set in map"], seen)
        else (errs ++ inner, seen ++ [ident])
      | none => (errs ++ inner, seen)) ([], [])).1

/-- The decoding error of a field. -/
def fieldError (v : String) (field : String) (t : Target) : String :=
  "json: cannot unmarshal " ++ v ++ " into Go struct field ." ++ field ++ " of type " ++ t.typeName

/-- A decimal integer literal within 64 signed bits. -/
def parseInt64? (s : String) : Option Int :=
  let (neg, cs) := match s.toList with
    | '-' :: r => (true, r)
    | r => (false, r)
  if cs.isEmpty || !cs.all Char.isDigit then none
  else
    let m : Int := (String.ofList cs).toNat!
    let v := if neg then -m else m
    if v < minInt64 || v > maxInt64 then none else some v

/-- What decoding leaves: the settings, and the first error met. -/
structure Decoded where
  settings : Settings := {}
  error : Option String := none

def Decoded.fail (d : Decoded) (e : String) : Decoded :=
  if d.error.isSome then d else { d with error := some e }

/-- Decodes a text field; null leaves it as it was. -/
def textValue (d : Decoded) (field : String) (v : JsonValue) (set : String → Settings → Settings) :
    Decoded :=
  match v with
  | .string s => { d with settings := set s d.settings }
  | .null => d
  | other => d.fail (fieldError other.kindName field .text)

/-- Adds a pair to a map, replacing the value of a key it has. -/
def putPair (ps : List (String × String)) (k v : String) : List (String × String) :=
  if ps.any (·.1 == k) then ps.map fun p => if p.1 == k then (k, v) else p else ps ++ [(k, v)]

/-- Decodes a map of texts into the map the field holds: null empties the field, an
object adds to it, and a null value is the empty text. Gives `none` when the field is
left as it was. -/
def textMapValue (d : Decoded) (field : String) (old : Option (List (String × String)))
    (v : JsonValue) : Decoded × Option (Option (List (String × String))) :=
  match v with
  | .null => (d, some none)
  | .object ms =>
    let (d, pairs) := ms.foldl (fun (acc : Decoded × List (String × String)) (k, x) =>
      let (d, ps) := acc
      match x with
      | .string s => (d, putPair ps k s)
      | .null => (d, putPair ps k "")
      | other => (d.fail (fieldError other.kindName field .text), ps)) (d, old.getD [])
    (d, some (some pairs))
  | other => (d.fail (fieldError other.kindName field .textMap), none)

/-- Decodes a list of texts: a null element is the empty text. -/
def textListValue (d : Decoded) (field : String) (v : JsonValue) :
    Decoded × Option (Option (List String)) :=
  match v with
  | .null => (d, some none)
  | .array xs =>
    let (d, items) := xs.foldl (fun (acc : Decoded × List String) x =>
      let (d, items) := acc
      match x with
      | .string s => (d, items ++ [s])
      | .null => (d, items ++ [""])
      | other => (d.fail (fieldError other.kindName field .text), items ++ [""])) (d, [])
    (d, some (some items))
  | other => (d.fail (fieldError other.kindName field .textList), none)

/-- Decodes one member of the settings object. -/
def decodeMember (d : Decoded) (key : String) (v : JsonValue) : Decoded :=
  match fieldOf? key with
  | none => d.fail ("json: unknown field \"" ++ key ++ "\"")
  | some (field, _) =>
    match field with
    | "prompt" => textValue d field v fun s st => { st with prompt := s }
    | "color" => textValue d field v fun s st => { st with color := s }
    | "history_file" => textValue d field v fun s st => { st with historyFile := s }
    | "event_log" => textValue d field v fun s st => { st with eventLog := s }
    | "history_limit" =>
      match v with
      | .number lit =>
        match parseInt64? lit with
        | some n => { d with settings := { d.settings with historyLimit := n } }
        | none => d.fail (fieldError ("number " ++ lit) field .integer)
      | .null => d
      | other => d.fail (fieldError other.kindName field .integer)
    | "aliases" =>
      match textMapValue d field d.settings.aliases v with
      | (d, some m) => { d with settings := { d.settings with aliases := m } }
      | (d, none) => d
    | "environment" =>
      match textMapValue d field d.settings.environment v with
      | (d, some m) => { d with settings := { d.settings with environment := m } }
      | (d, none) => d
    | _ =>
      match textListValue d field v with
      | (d, some l) => { d with settings := { d.settings with startup := l } }
      | (d, none) => d

/-- Decodes the JSON document into settings. -/
def decode (v : JsonValue) : Except String Settings :=
  match v with
  | .null => .ok {}
  | .object ms =>
    let d := ms.foldl (fun d (k, x) => decodeMember d k x) {}
    match d.error with
    | some e => .error e
    | none => .ok d.settings
  | other => .error ("json: cannot unmarshal " ++ other.kindName ++ " into Go value of type " ++
      Target.settings.typeName)

/-- One failed validation rule. -/
def ruleError (name tag : String) : String :=
  "Key: 'Configuration." ++ name ++ "' Error:Field validation for '" ++ name ++
    "' failed on the '" ++ tag ++ "' tag"

/-- Sorts pairs by key. -/
def sortPairs (ps : List (String × String)) : List (String × String) :=
  ps.mergeSort fun a b => decide (a.1 ≤ b.1)

/-- Checks the settings; gives every failed rule, in field order. -/
def validate (s : Settings) : List String :=
  (if s.prompt.isEmpty then [ruleError "prompt" "required"] else []) ++
  (if ["always", "auto", "never"].contains s.color then [] else [ruleError "color" "oneof"]) ++
  (if s.historyLimit < 0 then [ruleError "history_limit" "gte"] else []) ++
  ((sortPairs (s.aliases.getD [])).flatMap fun (k, v) =>
    (if k.isEmpty then [ruleError "aliases[]" "required"] else []) ++
    (if v.isEmpty then [ruleError ("aliases[" ++ k ++ "]") "required"] else [])) ++
  ((sortPairs (s.environment.getD [])).flatMap fun (k, _) =>
    if k.isEmpty then [ruleError "environment[]" "required"]
    else if k.contains '=' then [ruleError ("environment[" ++ k ++ "]") "excludes"]
    else []) ++
  ((s.startup.getD []).zipIdx.flatMap fun (c, i) =>
    if c.isEmpty then [ruleError ("startup[" ++ toString i ++ "]") "required"] else [])

/-- The name of the configuration file, which prefixes its errors. -/
def fileName : String := "config.yaml"

/-- Loads settings from the text of the configuration file. -/
def load (text : String) : Except String Settings := do
  let prefixed (e : String) : String := fileName ++ ": " ++ e
  let depth := text.length + 2
  let node ← match Yaml.read text with
    | .ok n => pure n
    | .error e => throw (prefixed ("error converting YAML to JSON: yaml: " ++ e.message))
  let dups := duplicates depth node
  if !dups.isEmpty then
    throw (prefixed ("error converting YAML to JSON: yaml: unmarshal errors:\n  " ++
      "\n  ".intercalate dups))
  let json ← match toJson depth node (some .settings) with
    | .ok j => pure j
    | .error e => throw (prefixed ("error converting YAML to JSON: " ++ e))
  let settings ← match decode json with
    | .ok s => pure s
    | .error e => throw (prefixed ("error unmarshaling JSON: while decoding JSON: " ++ e))
  match validate settings with
  | [] => return settings
  | errs => throw (prefixed ("\n".intercalate errs))

/-- The settings as a JSON object with the file's field names; a map lists its keys in
order, and an absent map or list is null. -/
def settingsJson (s : Settings) : JsonValue :=
  let textMap (m : Option (List (String × String))) : JsonValue :=
    match m with
    | none => .null
    | some ps => .object ((sortPairs ps).map fun (k, v) => (k, .string v))
  .object
    [("prompt", .string s.prompt), ("color", .string s.color),
     ("history_file", .string s.historyFile), ("history_limit", .number (toString s.historyLimit)),
     ("event_log", .string s.eventLog), ("aliases", textMap s.aliases),
     ("environment", textMap s.environment),
     ("startup", match s.startup with
       | none => .null
       | some cs => .array (cs.map .string))]

/-- The settings in effect: the built-in ones without a file, else the file's. -/
def loadOptional : Option String → Except String Settings
  | none => .ok Settings.builtin
  | some text => load text

end JobShell.Config

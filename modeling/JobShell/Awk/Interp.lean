import JobShell.Awk.Parser
import JobShell.Awk.Value
import JobShell.Fs.Tree
import JobShell.Text.CaseMap
import Std.Data.HashMap

/-!
# The awk language: running a program

A run starts from a file tree, a working directory, a standard input, the operands after
the program (files and `name=value` assignments) and assignments made before the program
runs. It runs the `BEGIN` actions, then, if the program has pattern actions or `END`
actions, reads the records of the input and runs the matching actions on each, then the
`END` actions. `exit` ends the run, though the `END` actions still run after an `exit`
outside them. A runtime error ends the run at once with its message.

The operands are read in order: an assignment sets its variable when it is reached, an
empty operand is skipped, `-` is the standard input, anything else a file; with no file
operand the standard input is read.

Output to a file is kept until the file is closed, flushed or the run ends, and only then
written into the tree; `>` empties the file when it is first opened, `>>` adds to it.
When the standard input was the last main input, the run closes it.

Arrays are shared by reference: an array passed to a function is the caller's array.
Every loop iteration and every call takes one unit of a fuel count given at the start.
-/
namespace JobShell.Awk

open JobShell.Num

/-- An array: its elements, and its keys in the order they were made. -/
structure Table where
  map : Std.HashMap String Value := {}
  order : Array String := #[]
  deriving Inhabited

namespace Table

def get? (t : Table) (k : String) : Option Value := t.map.get? k

def contains (t : Table) (k : String) : Bool := t.map.contains k

def insert (t : Table) (k : String) (v : Value) : Table :=
  if t.map.contains k then { t with map := t.map.insert k v }
  else { map := t.map.insert k v, order := t.order.push k }

def erase (t : Table) (k : String) : Table :=
  if t.map.contains k then { map := t.map.erase k, order := t.order.filter (· != k) } else t

def keys (t : Table) : List String := t.order.toList

def size (t : Table) : Nat := t.map.size

/-- A table of texts from input, keyed `1`, `2`, …. -/
def ofList (xs : List String) : Table :=
  (xs.zipIdx.foldl fun t (x, i) => t.insert (toString (i + 1)) (.strnum x)) {}

end Table

/-- What a variable holds: a value, or an array by its place in the heap. -/
inductive Cell where
  | scalar (v : Value)
  | array (id : Nat)
  deriving Inhabited

/-- A source of records: how it cuts them and what is left of it. -/
structure Reader where
  sep : RecordSep
  rest : List Char
  deriving Inhabited

/-- An output opened by a redirection, with what was written to it and not yet flushed. -/
structure OutStream where
  name : String
  kind : Redirect
  pending : String := ""
  deriving Inhabited

/-- The state of a run. -/
structure Machine where
  prog : Program
  globals : Std.HashMap String Cell := {}
  frames : List (Std.HashMap String Cell) := []
  heap : Array Table := #[]
  record : String := ""
  recordIsText : Bool := false
  /-- the fields, each with whether it is a plain text rather than input -/
  fields : Array (String × Bool) := #[]
  nr : Int := 0
  fnr : Int := 0
  fs : String := " "
  fieldSep : FieldSep := .blank
  ofs : String := " "
  ors : String := "\n"
  rs : String := "\n"
  recordSep : RecordSep := .lines
  subsep : String := "\x1c"
  convfmt : String := "%.6g"
  ofmt : String := "%.6g"
  rstart : Int := 0
  rlength : Int := -1
  filename : Value := .str ""
  argIndex : Nat := 1
  main : Option Reader := none
  mainIsStdin : Bool := false
  hadFiles : Bool := false
  outs : Array OutStream := #[]
  ins : List (String × Reader) := []
  tree : Fs.Tree
  cwd : List String
  stdin : String
  stdinClosed : Bool
  stdinRead : Bool := false
  out : String := ""
  exitStatus : Int := 0
  ranges : Array Bool := #[]
  regexes : List (String × Regex.Regex) := []
  seed : Nat := 0
  deriving Inhabited

/-- Why evaluation stops early. -/
inductive Signal where
  | next
  | nextFile
  | exit
  | ret (v : Value)
  | brk
  | cont
  | error (msg : String)
  deriving Inhabited

abbrev AwkM := EStateM Signal Machine

def fail {α : Type} (msg : String) : AwkM α := throw (.error msg)

def outOfFuel {α : Type} : AwkM α := fail "program ran out of steps"

/-! ## Variables -/

/-- The value of a special variable, if the name is one. -/
def Machine.special? (m : Machine) (name : String) : Option Value :=
  match name with
  | "NF" => some (.num (ofNat m.fields.size))
  | "NR" => some (.num (ofInt m.nr))
  | "FNR" => some (.num (ofInt m.fnr))
  | "FS" => some (.str m.fs)
  | "OFS" => some (.str m.ofs)
  | "ORS" => some (.str m.ors)
  | "RS" => some (.str m.rs)
  | "SUBSEP" => some (.str m.subsep)
  | "CONVFMT" => some (.str m.convfmt)
  | "OFMT" => some (.str m.ofmt)
  | "RSTART" => some (.num (ofInt m.rstart))
  | "RLENGTH" => some (.num (ofInt m.rlength))
  | "FILENAME" => some m.filename
  | _ => none

def Machine.text (m : Machine) (v : Value) : String := v.toStr m.convfmt

/-- The text of a value as `print` writes it: numbers through `OFMT`. -/
def Machine.outputText (m : Machine) (v : Value) : String :=
  match v with
  | .num n => numberText m.ofmt n
  | _ => v.toStr m.convfmt

/-- The record made again from the fields. -/
def rebuild : AwkM Unit :=
  modify fun m =>
    { m with record := m.ofs.intercalate (m.fields.toList.map (·.1)), recordIsText := true }

/-- Sets the record and splits it into fields. -/
def setRecord (s : String) (isText : Bool) : AwkM Unit :=
  modify fun m =>
    { m with record := s, recordIsText := isText,
             fields := (m.fieldSep.split s).toArray.map fun f => (f, false) }

/-- Sets the number of fields, dropping fields or adding empty ones. -/
def setFieldCount (v : Value) : AwkM Unit := do
  let n := toInt64 v.toNum
  if n < 0 then fail ("NF set to negative value: " ++ toString n)
  if n > 1000000 then fail ("NF set too large: " ++ toString n)
  modify fun m =>
    let k := n.toNat
    let fs := if k ≤ m.fields.size then m.fields.extract 0 k
      else m.fields ++ Array.replicate (k - m.fields.size) ("", false)
    { m with fields := fs }
  rebuild

/-- Sets a special variable; false when the name is not one. -/
def setSpecial (name : String) (v : Value) : AwkM Bool := do
  let m ← get
  match name with
  | "NF" => setFieldCount v; return true
  | "NR" => set { m with nr := toInt64 v.toNum }; return true
  | "FNR" => set { m with fnr := toInt64 v.toNum }; return true
  | "RSTART" => set { m with rstart := toInt64 v.toNum }; return true
  | "RLENGTH" => set { m with rlength := toInt64 v.toNum }; return true
  | "FILENAME" => set { m with filename := v }; return true
  | "OFS" => set { m with ofs := m.text v }; return true
  | "ORS" => set { m with ors := m.text v }; return true
  | "SUBSEP" => set { m with subsep := m.text v }; return true
  | "CONVFMT" => set { m with convfmt := m.text v }; return true
  | "OFMT" => set { m with ofmt := m.text v }; return true
  | "FS" =>
    let fs := m.text v
    match FieldSep.ofText fs with
    | .ok sep => set { m with fs, fieldSep := sep }; return true
    | .error e => fail e
  | "RS" =>
    let rs := m.text v
    match RecordSep.ofText rs with
    | .ok sep => set { m with rs, recordSep := sep }; return true
    | .error e => fail e
  | _ => return false

/-- A new empty array, by its place in the heap. -/
def newArray : AwkM Nat :=
  modifyGet fun m => (m.heap.size, { m with heap := m.heap.push {} })

/-- The value of a variable: a parameter of the running function, a special variable, or a
global; an array there is an error. -/
def getVar (name : String) : AwkM Value := do
  let m ← get
  let local? := m.frames.head?.bind (·.get? name)
  match local? with
  | some (.scalar v) => return v
  | some (.array _) => fail ("can't use array " ++ Text.quoted name ++ " as scalar")
  | none =>
    match m.special? name with
    | some v => return v
    | none =>
      match m.globals.get? name with
      | some (.scalar v) => return v
      | some (.array _) => fail ("can't use array " ++ Text.quoted name ++ " as scalar")
      | none => return .null

def setVar (name : String) (v : Value) : AwkM Unit := do
  let m ← get
  match m.frames with
  | fr :: rest =>
    if fr.contains name then
      set { m with frames := fr.insert name (.scalar v) :: rest }
      return
  | [] => pure ()
  if ← setSpecial name v then return
  modify fun m => { m with globals := m.globals.insert name (.scalar v) }

/-- The array a name stands for, made when it does not exist yet. -/
def arrayId (name : String) : AwkM Nat := do
  let m ← get
  match m.frames with
  | fr :: rest =>
    match fr.get? name with
    | some (.array id) => return id
    | some (.scalar _) =>
      let id ← newArray
      modify fun m => { m with frames := fr.insert name (.array id) :: rest }
      return id
    | none => global m
  | [] => global m
where
  global (m : Machine) : AwkM Nat := do
    match m.globals.get? name with
    | some (.array id) => return id
    | _ =>
      let id ← newArray
      modify fun m => { m with globals := m.globals.insert name (.array id) }
      return id

/-- Whether a name stands for an array. -/
def isArrayName (name : String) : AwkM Bool := do
  let m ← get
  match m.frames.head?.bind (·.get? name) with
  | some (.array _) => return true
  | some (.scalar _) => return false
  | none =>
    match m.globals.get? name with
    | some (.array _) => return true
    | some (.scalar _) => return false
    | none => return m.prog.arrays.contains name

def table (id : Nat) : AwkM Table := return (← get).heap[id]?.getD {}

def setTable (id : Nat) (t : Table) : AwkM Unit :=
  modify fun m => { m with heap := m.heap.set! id t }

/-- An element of an array; reading one makes it. -/
def getElem (name key : String) : AwkM Value := do
  let id ← arrayId name
  let t ← table id
  match t.get? key with
  | some v => return v
  | none =>
    setTable id (t.insert key .null)
    return .null

def setElem (name key : String) (v : Value) : AwkM Unit := do
  let id ← arrayId name
  let t ← table id
  setTable id (t.insert key v)

/-- A field: `$0` is the record; a field past the last is empty. -/
def getField (i : Int) : AwkM Value := do
  let m ← get
  if i == 0 then return (if m.recordIsText then .str m.record else .strnum m.record)
  if i < 0 then fail ("field index negative: " ++ toString i)
  match m.fields[(i.toNat - 1)]? with
  | some (s, isText) => return (if isText then .str s else .strnum s)
  | none => return .str ""

/-- Sets a field, adding empty fields before it if needed, and makes the record again. -/
def setField (i : Int) (v : Value) : AwkM Unit := do
  let m ← get
  let s := m.text v
  let isText := match v with
    | .str _ => true
    | _ => false
  if i == 0 then setRecord s isText
  else if i < 0 then fail ("field index negative: " ++ toString i)
  else if i > 1000000 then fail ("field index too large: " ++ toString i)
  else
    let k := i.toNat
    let fs := if m.fields.size < k then m.fields ++ Array.replicate (k - m.fields.size) ("", true)
      else m.fields
    set { m with fields := fs.set! (k - 1) (s, isText) }
    rebuild

/-- A compiled regular expression, kept for the next use of the same text. -/
def regexFor (text : String) : AwkM Regex.Regex := do
  let m ← get
  match m.regexes.find? (·.1 == text) with
  | some (_, re) => return re
  | none =>
    match compileRegex text with
    | .ok re =>
      set { m with regexes := (text, re) :: m.regexes.take 63 }
      return re
    | .error e => fail e

/-! ## Operators -/

def arith (op : BinOp) (a b : Float) : AwkM Float :=
  match op with
  | .add => return a + b
  | .sub => return a - b
  | .mul => return a * b
  | .div => if b == 0 then fail "division by zero" else return a / b
  | .mod => if b == 0 then fail "division by zero in %" else return fmod a b
  | .pow => return pow a b
  | _ => return 0

/-! ## Output -/

/-- The null device: what is written to it is dropped, and reading it gives nothing. -/
def nullDevice : String := "/dev/null"

/-- The content of a file to read. -/
def readPath (m : Machine) (name : String) : Except Errno String :=
  if name == nullDevice then .ok "" else m.tree.readFile m.cwd name

/-- Writes what a stream holds into its file. -/
def flushStream (s : OutStream) : AwkM Unit := do
  if s.pending.isEmpty || s.name == nullDevice then return
  match s.kind with
  | .file | .append =>
    let m ← get
    match m.tree.writeFile m.cwd s.name s.pending true with
    | .ok t => set { m with tree := t }
    | .error _ => pure ()
  | _ => pure ()

/-- Writes text to a redirection, opening it first if needed. -/
def writeTo (kind : Redirect) (name : String) (text : String) : AwkM Unit := do
  let m ← get
  if m.ins.any (·.1 == name) then fail "can't write to reader stream"
  match m.outs.findIdx? (·.name == name) with
  | some i =>
    let s := m.outs[i]!
    set { m with outs := m.outs.set! i { s with pending := s.pending ++ text } }
  | none =>
    if (kind == .file || kind == .append) && name != nullDevice then
      let opened := if kind == .file then m.tree.writeFile m.cwd name "" false
        else m.tree.createFile m.cwd name
      match opened with
      | .ok t => set { m with tree := t }
      | .error e => fail ("output redirection error: open " ++ name ++ ": " ++ e.message)
    modify fun m => { m with outs := m.outs.push { name, kind, pending := text } }

/-- Flushes every output. -/
def flushAll : AwkM Unit := do
  for s in (← get).outs do flushStream s
  modify fun m => { m with outs := m.outs.map fun s => { s with pending := "" } }

/-- Closes an input or output by name: 0 when one was open, else -1. -/
def closeStream (name : String) : AwkM Value := do
  let m ← get
  if m.ins.any (·.1 == name) then
    set { m with ins := m.ins.filter (·.1 != name) }
    return .num 0
  match m.outs.findIdx? (·.name == name) with
  | some i =>
    flushStream m.outs[i]!
    modify fun m => { m with outs := m.outs.eraseIdx! i }
    return .num 0
  | none => return .num (-1)

/-! ## Input -/

/-- Reads the standard input whole. -/
def takeStdin : AwkM (Except String String) := do
  let m ← get
  if m.stdinClosed then return .error "read /dev/stdin: file already closed"
  set { m with stdin := "", stdinRead := true }
  return .ok m.stdin

/-- The escapes of a string applied to a text, as in a command-line assignment. -/
def unescape (s : String) : String :=
  if !s.contains '\\' then s
  else String.ofList (Lexer.stringBody '\x00' s.length { rest := s.toList } []).2

/-- A `name=value` operand: the name and the value, which ends at a line break. -/
def assignmentOperand? (s : String) : Option (String × String) :=
  match s.toList with
  | c :: rest =>
    if !Lexer.isNameStart c then none
    else
      let nameRest := rest.takeWhile fun x => Lexer.isNameStart x || x.isDigit
      match rest.drop nameRest.length with
      | '=' :: value => some (String.ofList (c :: nameRest), String.ofList (value.takeWhile (· != '\n')))
      | _ => none
  | [] => none

/-- Sets a variable by name from outside the program: special variables always, other
names only when the program uses them as scalars. -/
def setVarByName (name value : String) : AwkM Unit := do
  if ← setSpecial name (.strnum value) then return
  if (← get).prog.scalars.contains name then
    modify fun m => { m with globals := m.globals.insert name (.scalar (.strnum value)) }

def argvText (i : Nat) : AwkM String := do
  let m ← get
  match m.globals.get? "ARGV" with
  | some (.array id) =>
    match (m.heap[id]?.getD {}).get? (toString i) with
    | some v => return m.text v
    | none => return ""
  | _ => return ""

/-- The next record of the main input, moving through the operands as each input ends;
`none` at the end of all input. -/
def nextMainRecord : AwkM (Option String) := go 1000000
where
  go : Nat → AwkM (Option String)
    | 0 => return none
    | k + 1 => do
      let m ← get
      match m.main with
      | some rd =>
        match rd.sep.next rd.rest with
        | some (r, rest) =>
          set { m with main := some { rd with rest }, nr := m.nr + 1, fnr := m.fnr + 1 }
          return some r
        | none =>
          set { m with main := none }
          go k
      | none =>
        let argc := toInt64 (← getVar "ARGC").toNum
        if (m.argIndex : Int) ≥ argc then
          if m.hadFiles then return none
          match ← takeStdin with
          | .error e => fail ("error reading from input: " ++ e)
          | .ok data =>
            modify fun m => { m with main := some { sep := m.recordSep, rest := data.toList },
                                     hadFiles := true, mainIsStdin := true, fnr := 0 }
            go k
        else
          let arg ← argvText m.argIndex
          modify fun m => { m with argIndex := m.argIndex + 1 }
          match assignmentOperand? arg with
          | some (name, value) =>
            setVarByName name (unescape value)
            go k
          | none =>
            if arg.isEmpty then go k
            else if arg == "-" then
              match ← takeStdin with
              | .error e => fail ("error reading from input: " ++ e)
              | .ok data =>
                modify fun m => { m with main := some { sep := m.recordSep, rest := data.toList },
                                         mainIsStdin := true, fnr := 0 }
                go k
            else
              let m ← get
              match readPath m arg with
              | .ok data =>
                set { m with main := some { sep := m.recordSep, rest := data.toList },
                             filename := .strnum arg, fnr := 0, hadFiles := true, mainIsStdin := false }
                go k
              | .error .isdir =>
                fail ("error reading from input: read " ++ arg ++ ": is a directory")
              | .error e => fail ("open " ++ arg ++ ": " ++ e.message)

/-- The next record of a file read by `getline <`: `none` at its end, or an error when it
cannot be read. -/
def nextFileRecord (name : String) : AwkM (Except Unit (Option String)) := do
  let m ← get
  if m.outs.any (·.name == name) then fail "can't read from writer stream"
  let reader ← match m.ins.find? (·.1 == name) with
    | some (_, rd) => pure (some rd)
    | none =>
      if name == "-" then
        match ← takeStdin with
        | .ok data => pure (some { sep := m.recordSep, rest := data.toList })
        | .error _ => pure none
      else
        match readPath m name with
        | .ok data => pure (some { sep := m.recordSep, rest := data.toList })
        | .error _ => pure none
  match reader with
  | none => return .error ()
  | some rd =>
    match rd.sep.next rd.rest with
    | some (r, rest) =>
      modify fun m => { m with ins := (name, { rd with rest }) :: m.ins.filter (·.1 != name) }
      return .ok (some r)
    | none =>
      modify fun m => { m with ins := (name, rd) :: m.ins.filter (·.1 != name) }
      return .ok none

/-! ## Formatted output -/

/-- Reads the conversions of a format: the format as the formatter takes it (`%u` as
`%d`, `%c` as `%s`, `%i` as `%d`) and the kind of argument of each conversion, a `*`
taking an integer. -/
def formatKinds (format : String) : Except String (String × List Char) :=
  go format.length format.toList [] []
where
  flagChars : List Char := [' ', '.', '-', '+', '*', '#', '0', '1', '2', '3', '4', '5', '6', '7', '8', '9']
  go : Nat → List Char → List Char → List Char → Except String (String × List Char)
    | 0, _, out, kinds => .ok (String.ofList out.reverse, kinds.reverse)
    | _ + 1, [], out, kinds => .ok (String.ofList out.reverse, kinds.reverse)
    | k + 1, '%' :: rest, out, kinds =>
      match rest with
      | [] => .error "expected type specifier after %"
      | '%' :: more => go k more ('%' :: '%' :: out) kinds
      | _ =>
        let flags := rest.takeWhile flagChars.contains
        let stars := (flags.filter (· == '*')).map fun _ => 'd'
        match rest.drop flags.length with
        | [] => .error "expected type specifier after %"
        | c :: more =>
          let kinds := stars.reverse ++ kinds
          let out := flags.reverse ++ ('%' :: out)
          match c with
          | 's' => go k more ('s' :: out) ('s' :: kinds)
          | 'd' | 'o' | 'x' | 'X' => go k more (c :: out) ('d' :: kinds)
          | 'i' => go k more ('d' :: out) ('d' :: kinds)
          | 'f' | 'e' | 'E' | 'g' | 'G' => go k more (c :: out) ('f' :: kinds)
          | 'u' => go k more ('d' :: out) ('u' :: kinds)
          | 'c' => go k more ('s' :: out) ('c' :: kinds)
          | _ => .error ("invalid format type '" ++ c.toString ++ "'")
    | k + 1, c :: rest, out, kinds => go k rest (c :: out) kinds

/-- The character of a number, or U+FFFD when it is not one. -/
def charOfNumber (n : Float) : String :=
  let i := toInt64 n
  if 0 ≤ i && i ≤ 0x10ffff && !(0xd800 ≤ i && i < 0xe000) then (Char.ofNat i.toNat).toString
  else (Char.ofNat 0xfffd).toString

/-- Fills a format with values, each converted to the kind its conversion wants. -/
def Machine.sprintf (m : Machine) (format : String) (args : List Value) : Except String String := do
  let (fmt, kinds) ← formatKinds format
  if kinds.length > args.length then
    throw ("format error: got " ++ toString args.length ++ " args, expected " ++ toString kinds.length)
  let converted := (kinds.zip args).map fun (k, v) =>
    match k with
    | 'd' => Printf.Arg.int (toInt64 v.toNum)
    | 'f' => .float (toExact v.toNum)
    | 'u' => .uint (toUInt64 v.toNum)
    | 'c' =>
      match v with
      | .str s => .bytes (String.ofList (s.toList.take 1))
      | .strnum s =>
        match numericText? s with
        | some n => .bytes (charOfNumber n)
        | none => .bytes (String.ofList (s.toList.take 1))
      | _ => .bytes (charOfNumber v.toNum)
    | _ => .str (m.text v)
  return Printf.format fmt converted

/-- The replacement text of a match: `&` is the match, `\&` a plain `&`, `\\` one
backslash; any other backslash stays. -/
def expandReplacement (repl matched : String) : String :=
  go repl.length repl.toList ""
where
  go : Nat → List Char → String → String
    | 0, _, out => out
    | _ + 1, [], out => out
    | k + 1, '\\' :: '&' :: rest, out => go k rest (out.push '&')
    | k + 1, '\\' :: '\\' :: rest, out => go k rest (out.push '\\')
    | k + 1, '&' :: rest, out => go k rest (out ++ matched)
    | k + 1, c :: rest, out => go k rest (out.push c)

/-- How many calls of the program's functions may be running at once. -/
def maxCallDepth : Nat := 1000

/-- The outcome of a loop body. -/
inductive Flow where
  | normal
  | broke
  | continued

/-! ## Evaluation -/

mutual

def eval : Nat → Expr → AwkM Value
  | 0, _ => outOfFuel
  | n + 1, e =>
    match e with
    | .num x => return .num x
    | .str s => return .str s
    | .regex src => do
      let re ← regexFor src
      return Value.ofBool (re.matches (← get).record)
    | .var name => getVar name
    | .index name subs => do
      let k ← evalKey n subs
      getElem name k
    | .field ie => do
      let i ← eval n ie
      getField (toInt64 i.toNum)
    | .assign t v => do
      let x ← eval n v
      assignTo n t x
      return x
    | .augAssign op t v => do
      let r ← eval n v
      match t with
      | .var name =>
        let l ← getVar name
        let x := Value.num (← arith op l.toNum r.toNum)
        setVar name x
        return x
      | .index name subs =>
        let k ← evalKey n subs
        let l ← getElem name k
        let x := Value.num (← arith op l.toNum r.toNum)
        setElem name k x
        return x
      | .field ie =>
        let i := toInt64 (← eval n ie).toNum
        let l ← getField i
        let x := Value.num (← arith op l.toNum r.toNum)
        setField i x
        return x
      | _ => fail "assignment to a value that is not a variable"
    | .cond c t f => do
      if (← eval n c).truth then eval n t else eval n f
    | .binary .and l r => do
      if !(← eval n l).truth then return .ofBool false
      return .ofBool (← eval n r).truth
    | .binary .or l r => do
      if (← eval n l).truth then return .ofBool true
      return .ofBool (← eval n r).truth
    | .binary op l r => do
      let a ← eval n l
      let b ← eval n r
      let m ← get
      match op with
      | .concat => return .str (m.text a ++ m.text b)
      | .lt | .le | .gt | .ge | .eq | .ne => return .ofBool (compareValues m.convfmt op a b)
      | _ => return .num (← arith op a.toNum b.toNum)
    | .unary op x => do
      let v ← eval n x
      match op with
      | .neg => return .num (-v.toNum)
      | .plus => return .num v.toNum
      | .not => return .ofBool !v.truth
    | .incr t up pre => do
      let step (old : Value) : Float × Float :=
        let o := old.toNum
        (o, if up then o + 1 else o - 1)
      match t with
      | .var name =>
        let (o, nw) := step (← getVar name)
        setVar name (.num nw)
        return .num (if pre then nw else o)
      | .index name subs =>
        let k ← evalKey n subs
        let (o, nw) := step (← getElem name k)
        setElem name k (.num nw)
        return .num (if pre then nw else o)
      | .field ie =>
        let i := toInt64 (← eval n ie).toNum
        let (o, nw) := step (← getField i)
        setField i (.num nw)
        return .num (if pre then nw else o)
      | _ => fail "increment of a value that is not a variable"
    | .inArray subs name => do
      let k ← evalKey n subs
      let id ← arrayId name
      return .ofBool ((← table id).contains k)
    | .matchOp negated x re => do
      let s := (← get).text (← eval n x)
      let r := (← get).text (← eval n re)
      let rx ← regexFor r
      return .ofBool (rx.matches s != negated)
    | .call f args => builtin n f args
    | .userCall name args _ => callUser n name args
    | .getline src from_ target => getline n src from_ target
    | .group x => eval n x
    | .multi es _ => do
      let k ← evalKey n es
      return .str k

/-- The key of a subscript list: the texts joined by `SUBSEP`. -/
def evalKey : Nat → List Expr → AwkM String
  | 0, _ => outOfFuel
  | n + 1, subs => do
    let vs ← evalAll n subs
    let m ← get
    return m.subsep.intercalate (vs.map m.text)

def evalAll : Nat → List Expr → AwkM (List Value)
  | 0, _ => outOfFuel
  | _ + 1, [] => return []
  | n + 1, e :: es => do
    let v ← eval n e
    let vs ← evalAll n es
    return v :: vs

/-- Stores a value in a variable, an element or a field. -/
def assignTo : Nat → Expr → Value → AwkM Unit
  | 0, _, _ => outOfFuel
  | n + 1, t, v =>
    match t with
    | .var name => setVar name v
    | .index name subs => do
      let k ← evalKey n subs
      setElem name k v
    | .field ie => do
      let i ← eval n ie
      setField (toInt64 i.toNum) v
    | .group x => assignTo n x v
    | _ => fail "assignment to a value that is not a variable"

/-- `getline` in its three forms. -/
def getline : Nat → Source → Option Expr → Option Expr → AwkM Value
  | 0, _, _, _ => outOfFuel
  | n + 1, src, from_, target =>
    match src with
    | .main => do
      match ← nextMainRecord with
      | none => return .num 0
      | some r =>
        match target with
        | none => setRecord r false
        | some t => assignTo n t (.strnum r)
        return .num 1
    | .file => do
      let name ← match from_ with
        | some f => do pure ((← get).text (← eval n f))
        | none => pure ""
      match ← nextFileRecord name with
      | .error () => return .num (-1)
      | .ok none => return .num 0
      | .ok (some r) =>
        match target with
        | none => setRecord r false
        | some t => assignTo n t (.strnum r)
        return .num 1
    | .command => do
      match from_ with
      | some f => let _ ← eval n f
      | none => pure ()
      return .num (-1)

/-- Calls a function of the program: arrays are passed by reference, other arguments by
value, and missing parameters are empty locals. -/
def callUser : Nat → String → List Expr → AwkM Value
  | 0, _, _ => outOfFuel
  | n + 1, name, args => do
    let m ← get
    let some f := m.prog.functions.find? (·.name == name)
      | fail ("undefined function " ++ Text.quoted name)
    if m.frames.length ≥ maxCallDepth then
      fail ("calling " ++ Text.quoted name ++ " exceeded maximum call depth of " ++ toString maxCallDepth)
    let arrays := ((m.prog.arrayParams.find? (·.1 == name)).map (·.2)).getD []
    let frame ← bindParams n arrays f.params args {}
    modify fun m => { m with frames := frame :: m.frames }
    let result ← tryCatch (do execBlock n f.body; pure (Except.ok Value.null)) fun s =>
      match s with
      | .ret v => pure (.ok v)
      | other => pure (.error other)
    modify fun m => { m with frames := m.frames.drop 1 }
    match result with
    | .ok v => return v
    | .error s => throw s

/-- The locals of a call, parameter by parameter. -/
def bindParams : Nat → List String → List String → List Expr → Std.HashMap String Cell →
    AwkM (Std.HashMap String Cell)
  | 0, _, _, _, _ => outOfFuel
  | _ + 1, _, [], _, frame => return frame
  | n + 1, arrays, p :: ps, args, frame => do
    let cell ← match args with
      | a :: _ =>
        match a with
        | .var v =>
          if ← isArrayName v then pure (Cell.array (← arrayId v))
          else if arrays.contains p then pure (Cell.array (← newArray))
          else pure (Cell.scalar (← eval n a))
        | _ =>
          if arrays.contains p then do
            let _ ← eval n a
            pure (Cell.array (← newArray))
          else pure (Cell.scalar (← eval n a))
      | [] => if arrays.contains p then pure (Cell.array (← newArray)) else pure (Cell.scalar .null)
    bindParams n arrays ps args.tail (frame.insert p cell)

/-- The built-in functions. -/
def builtin : Nat → Builtin → List Expr → AwkM Value
  | 0, _, _ => outOfFuel
  | n + 1, f, args => do
    let str (i : Nat) : AwkM String := do
      match args[i]? with
      | some e => pure ((← get).text (← eval n e))
      | none => pure ""
    let num (i : Nat) : AwkM Float := do
      match args[i]? with
      | some e => pure (← eval n e).toNum
      | none => pure 0
    match f with
    | .length =>
      match args with
      | [] => return .num (ofNat (byteLength (← get).record))
      | [.var name] =>
        if ← isArrayName name then
          return .num (ofNat (← table (← arrayId name)).size)
        return .num (ofNat (byteLength (← str 0)))
      | _ => return .num (ofNat (byteLength (← str 0)))
    | .substr =>
      let s ← str 0
      let pos ← num 1
      let len : Float := ofNat (byteLength s)
      let pos := if pos > len then len + 1 else pos
      let pos := if pos < 1 then 1 else pos
      let maxLen := len - pos + 1
      let count ← if args.length ≥ 3 then do
          let l ← num 2
          let l := if l < 0 then 0 else l
          pure (if l > maxLen then maxLen else l)
        else pure maxLen
      let start := (toInt64 pos) - 1
      let k := toInt64 count
      return .str (byteSlice s start.toNat k.toNat)
    | .index =>
      let s ← str 0
      let t ← str 1
      return .num (ofNat (match byteIndexOf s t with
        | some i => i + 1
        | none => 0))
    | .match =>
      let s ← str 0
      let r ← str 1
      let rx ← regexFor r
      let cs := s.toList.toArray
      match rx.searchFrom cs 0 with
      | some (a, b) =>
        let start := bytesOfChars cs a + 1
        let len := bytesOfChars cs b - bytesOfChars cs a
        modify fun m => { m with rstart := start, rlength := len }
        return .num (ofNat start)
      | none =>
        modify fun m => { m with rstart := 0, rlength := -1 }
        return .num 0
    | .split =>
      let s ← str 0
      let name := match args[1]? with
        | some (Expr.var x) => x
        | _ => ""
      let sep ← if args.length ≥ 3 then str 2 else pure (← get).fs
      let parts ← if sep == " " then pure (splitBlank s)
        else if s.isEmpty then pure []
        else if sep.length ≤ 1 then pure (splitLiteral s sep)
        else do pure ((← regexFor sep).split s)
      let id ← arrayId name
      setTable id (Table.ofList parts)
      return .num (ofNat parts.length)
    | .sub | .gsub =>
      let r ← str 0
      let repl ← str 1
      let target := (args[2]?).getD (.field (.num 0))
      let input := (← get).text (← eval n target)
      let rx ← regexFor r
      let global := f == .gsub
      let (out, count) := rx.replace input fun i m =>
        if global || i == 0 then expandReplacement repl m else m
      assignTo n target (.str out)
      return .num (ofNat (if global then count else min count 1))
    | .sprintf =>
      let vs ← evalAll n args
      let m ← get
      match vs with
      | [] => return .str ""
      | fmt :: rest =>
        match m.sprintf (m.text fmt) rest with
        | .ok s => return .str s
        | .error e => fail e
    | .tolower => return .str (Text.toLowerText (← str 0))
    | .toupper => return .str (Text.toUpperText (← str 0))
    | .int => return .num (ofInt (toInt64 (← num 0)))
    | .sqrt => return .num (← num 0).sqrt
    | .exp => return .num (← num 0).exp
    | .log => return .num (← num 0).log
    | .sin => return .num (← num 0).sin
    | .cos => return .num (← num 0).cos
    | .atan2 =>
      let y ← num 0
      let x ← num 1
      return .num (Float.atan2 y x)
    | .close => closeStream (← str 0)
    | .fflush =>
      match args with
      | [] => flushAll; return .num 0
      | _ =>
        let name ← str 0
        let m ← get
        match m.outs.find? (·.name == name) with
        | some s =>
          flushStream s
          modify fun m => { m with outs := m.outs.map fun o =>
            if o.name == name then { o with pending := "" } else o }
          return .num 0
        | none => return .num (-1)
    | .system =>
      let _ ← str 0
      flushAll
      return .num (-1)
    | .rand =>
      let m ← get
      let next := (m.seed * 1103515245 + 12345) % 2147483648
      set { m with seed := next }
      return .num (ofNat next / 2147483648.0)
    | .srand =>
      let m ← get
      let seed ← if args.isEmpty then pure 0 else do pure (toInt64 (← num 0)).toNat
      set { m with seed }
      return .num (ofNat m.seed)

/-- The texts of the arguments of `print`, or the record when there are none. -/
def printLine : Nat → List Expr → AwkM String
  | 0, _ => outOfFuel
  | n + 1, args => do
    if args.isEmpty then return (← get).record ++ (← get).ors
    let vs ← evalAll n args
    let m ← get
    return m.ofs.intercalate (vs.map m.outputText) ++ m.ors

/-- Sends output where a statement says. -/
def emit : Nat → Redirect → Option Expr → String → AwkM Unit
  | 0, _, _, _ => outOfFuel
  | n + 1, redirect, dest, text =>
    match redirect, dest with
    | .stdout, _ | _, none => modify fun m => { m with out := m.out ++ text }
    | kind, some d => do
      let name := (← get).text (← eval n d)
      if name == "-" && kind != .pipe then modify fun m => { m with out := m.out ++ text }
      else writeTo kind name text

def exec : Nat → Stmt → AwkM Unit
  | 0, _ => outOfFuel
  | n + 1, s =>
    match s with
    | .print args redirect dest => do
      let line ← printLine n args
      emit n redirect dest line
    | .printf args redirect dest => do
      let vs ← evalAll n args
      let m ← get
      match vs with
      | [] => pure ()
      | fmt :: rest =>
        match m.sprintf (m.text fmt) rest with
        | .ok text => emit n redirect dest text
        | .error e => fail e
    | .expr e => do let _ ← eval n e
    | .ifElse c t f => do
      if (← eval n c).truth then execBlock n t else execBlock n f
    | .while c body => whileLoop n c body
    | .doWhile body c => doLoop n body c
    | .forLoop init c post body => do
      match init with
      | some i => exec n i
      | none => pure ()
      forLoop n c post body
    | .forIn v arr body => do
      let id ← arrayId arr
      let keys := (← table id).keys
      forInLoop n v id keys body
    | .next => throw .next
    | .nextFile => throw .nextFile
    | .exit status => do
      match status with
      | some e =>
        let v ← eval n e
        modify fun m => { m with exitStatus := toInt64 v.toNum }
      | none => pure ()
      throw .exit
    | .ret value => do
      let v ← match value with
        | some e => eval n e
        | none => pure .null
      throw (.ret v)
    | .brk => throw .brk
    | .cont => throw .cont
    | .delete arr subs => do
      let id ← arrayId arr
      match subs with
      | none => setTable id {}
      | some ks =>
        let k ← evalKey n ks
        setTable id ((← table id).erase k)
    | .block body => execBlock n body

def execBlock : Nat → List Stmt → AwkM Unit
  | 0, _ => outOfFuel
  | _ + 1, [] => pure ()
  | n + 1, s :: rest => do
    exec n s
    execBlock n rest

/-- Runs a loop body, telling whether it broke out or went on. -/
def loopBody : Nat → List Stmt → AwkM Flow
  | 0, _ => outOfFuel
  | n + 1, body =>
    tryCatch (do execBlock n body; pure Flow.normal) fun s =>
      match s with
      | .brk => pure .broke
      | .cont => pure .continued
      | other => throw other

def whileLoop : Nat → Expr → List Stmt → AwkM Unit
  | 0, _, _ => outOfFuel
  | n + 1, c, body => do
    if !(← eval n c).truth then return
    match ← loopBody n body with
    | .broke => return
    | _ => whileLoop n c body

def doLoop : Nat → List Stmt → Expr → AwkM Unit
  | 0, _, _ => outOfFuel
  | n + 1, body, c => do
    match ← loopBody n body with
    | .broke => return
    | _ =>
      if (← eval n c).truth then doLoop n body c

def forLoop : Nat → Option Expr → Option Stmt → List Stmt → AwkM Unit
  | 0, _, _, _ => outOfFuel
  | n + 1, c, post, body => do
    match c with
    | some e => if !(← eval n e).truth then return
    | none => pure ()
    match ← loopBody n body with
    | .broke => return
    | _ =>
      match post with
      | some p => exec n p
      | none => pure ()
      forLoop n c post body

def forInLoop : Nat → Expr → Nat → List String → List Stmt → AwkM Unit
  | 0, _, _, _, _ => outOfFuel
  | _ + 1, _, _, [], _ => pure ()
  | n + 1, v, id, k :: ks, body => do
    if !(← table id).contains k then forInLoop n v id ks body
    else
      assignTo n v (.str k)
      match ← loopBody n body with
      | .broke => return
      | _ => forInLoop n v id ks body

end

/-! ## A whole run -/

/-- What a run starts from. -/
structure Setup where
  argv0 : String
  operands : List String
  /-- assignments made before the program runs, in order -/
  vars : List (String × String)
  environ : List (String × String)
  tree : Fs.Tree
  cwd : List String
  stdin : String
  stdinClosed : Bool

/-- What a run leaves: the output, the exit status or the error that ended it, the tree,
and what became of the standard input. -/
structure Outcome where
  out : String
  status : Except String Int
  tree : Fs.Tree
  stdin : String
  stdinClosed : Bool

/-- The fuel of a run. -/
def runFuel : Nat := 100000000

/-- Runs a list of actions with the signals that end it: `exit` ends them, and the others
go on. -/
def runBlock (body : List Stmt) : AwkM Unit := execBlock runFuel body

/-- Whether an action's pattern matches the current record; a range is on from a record
matching its first pattern to one matching its second. -/
def patternMatches (i : Nat) (pattern : List Expr) : AwkM Bool := do
  match pattern with
  | [] => return true
  | [p] => return (← eval runFuel p).truth
  | p :: q :: _ =>
    let on := (← get).ranges[i]?.getD false
    let on ← if on then pure true else pure (← eval runFuel p).truth
    if on then
      let off := (← eval runFuel q).truth
      modify fun m => { m with ranges := m.ranges.set! i !off }
      return true
    else return false

/-- Runs the actions on the current record; `next` ends this record. -/
def runActions (actions : List (Nat × Action)) : AwkM Unit := do
  match actions with
  | [] => pure ()
  | (i, a) :: rest =>
    if ← patternMatches i a.pattern then
      match a.body with
      | none => modify fun m => { m with out := m.out ++ m.record ++ m.ors }
      | some body => runBlock body
    runActions rest

/-- Reads and handles records until the input ends. -/
def mainLoop : Nat → AwkM Unit
  | 0 => pure ()
  | k + 1 => do
    match ← nextMainRecord with
    | none => pure ()
    | some r =>
      setRecord r false
      let actions := (← get).prog.actions.zipIdx.map fun (a, i) => (i, a)
      let goOn ← tryCatch (do runActions actions; pure true) fun s =>
        match s with
        | .next => pure true
        | .nextFile => do
          modify fun m => { m with main := none }
          pure true
        | other => throw other
      if goOn then mainLoop k

/-- Runs `BEGIN` actions until one exits. -/
def runBegins : List (List Stmt) → AwkM Unit
  | [] => pure ()
  | b :: rest => do
    runBlock b
    runBegins rest

/-- Runs until `exit`, telling whether `exit` ended it. -/
def untilExit (x : AwkM Unit) : AwkM Bool :=
  tryCatch (do x; pure false) fun s =>
    match s with
    | .exit => pure true
    | other => throw other

/-- The whole run, before the outputs are closed. -/
def runAll (setupVars : List (String × String)) : AwkM Unit := do
  for (name, value) in setupVars do setVarByName name value
  let prog := (← get).prog
  let exited ← untilExit (runBegins prog.begins)
  if prog.actions.isEmpty && prog.ends.isEmpty then return
  if !exited then
    let _ ← untilExit (mainLoop 1000000000)
  let _ ← untilExit (for b in prog.ends do runBlock b)

/-- The machine a run starts with. -/
def Machine.start (prog : Program) (s : Setup) : Machine :=
  let m : Machine := { prog, tree := s.tree, cwd := s.cwd, stdin := s.stdin,
                       stdinClosed := s.stdinClosed,
                       ranges := Array.replicate prog.actions.length false }
  let argv := Table.ofList s.operands |>.insert "0" (.strnum s.argv0)
  let environ := s.environ.foldl (fun t (k, v) => t.insert k (.strnum v)) {}
  { m with heap := #[argv, environ],
           globals := (({} : Std.HashMap String Cell).insert "ARGV" (.array 0)).insert "ENVIRON" (.array 1)
             |>.insert "ARGC" (.scalar (.num (ofNat (s.operands.length + 1)))) }

/-- Runs a program. -/
def runProgram (prog : Program) (s : Setup) : Outcome :=
  let m := Machine.start prog s
  let (status, m) := match (runAll s.vars).run m with
    | .ok () m => (Except.ok (), m)
    | .error (.error e) m => (.error e, m)
    | .error _ m => (.ok (), m)
  -- close every output, and the standard input if it was the last main input
  let m := match flushAll.run m with
    | .ok () m => m
    | .error _ m => m
  { out := m.out, status := status.map fun _ => m.exitStatus, tree := m.tree,
    stdin := m.stdin, stdinClosed := m.stdinClosed || (m.mainIsStdin && m.stdinRead) }

end JobShell.Awk

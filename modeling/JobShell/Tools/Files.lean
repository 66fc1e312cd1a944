import JobShell.Tools.Run
import JobShell.Text.ShellWords

/-!
# File tools

`mycat`, `myls`, `mystat`, `mytouch`, `mymkdir`, `myrmdir`, `myrm`, `mymv` and `mycp`. Each
reports a failing operand as `name: operand: reason` and goes on with the next one; the
status is 1 if any operand failed. A missing operand is a misuse (status 2).

All files are shown with mode `-rw-r--r--`, directories with `drwxr-xr-x`, and every
modification time is 2020-01-02 03:04:05 UTC.
-/
namespace JobShell.Tool

variable [Getopt]

open Fs

def fileMode : String := "-rw-r--r--"
def dirMode : String := "drwxr-xr-x"

/-- The size a listing shows for a directory. -/
def dirSize : Nat := 4096

def nodeMode : Node → String
  | .file _ => fileMode
  | .dir => dirMode

def nodeSize : Node → Nat
  | .file d => d.utf8ByteSize
  | .dir => dirSize

def missingOperand (name : String) : ToolM Int := usageError name "missing operand"

/-- The most of one line a line scanner holds, in bytes: a line that reaches this length before
its line feed stops the scan. -/
def maxLineBytes : Nat := 65536

/-- The reason given for a line the scanner cannot hold. -/
def lineTooLong : String := "bufio.Scanner: token too long"

/-- A line as the scanner gives it: one carriage return at its end dropped. -/
def dropCR (l : List Char) : List Char :=
  if l.getLast? = some '\r' then l.dropLast else l

/-- Scans characters into lines, with the line read so far (last character first) and its
length in bytes. At each line feed the line ends; a last line without one is kept. A character
that brings the line to `maxLineBytes` stops the scan, with the characters after it left
unread. -/
def scanChars (line : List Char) (bytes : Nat) : List Char → List (List Char) × Option (List Char)
  | [] => (if line.isEmpty then [] else [dropCR line.reverse], none)
  | c :: rest =>
    if c = '\n' then
      let r := scanChars [] 0 rest
      (dropCR line.reverse :: r.1, r.2)
    else if maxLineBytes ≤ bytes + c.utf8Size then ([], some rest)
    else scanChars (c :: line) (bytes + c.utf8Size) rest

/-- What a line scanner makes of a text. -/
structure Scan where
  /-- The lines read, in order. -/
  lines : List String
  /-- When a line was too long, the text after the bytes the scanner took of it. The scanner
  takes whole buffers, so the bytes of that line up to the bound are gone. (A character cut
  by the bound is counted as taken.) -/
  unread : Option String

/-- Lines of a text as a line scanner splits them: at each line feed, one carriage return
before it dropped, and a last line without a line feed kept, also without a carriage return
at its end. -/
def scanLines (s : String) : Scan :=
  let r := scanChars [] 0 s.toList
  { lines := r.1.map String.ofList, unread := r.2.map String.ofList }

/-- A numbered line: its number right-aligned in six columns, a tab, the line. -/
def numberedLine (n : Nat) (l : String) : String :=
  Text.padLeft 6 (toString n) ++ "\t" ++ l ++ "\n"

/-- Lines numbered on from the number after `start`. -/
def numberLines (start : Nat) : List String → String
  | [] => ""
  | l :: rest => numberedLine (start + 1) l ++ numberLines (start + 1) rest

/-- What an operand of `mycat` reads: what is left of standard input for `-`, else the
file's content; or the reason it cannot be read. -/
def readOperand (file : String) : ToolM (Except String String) := do
  if file == "-" then readInput
  else
    let t ← tree
    let c ← cwd
    pure (match t.readFile c file with
      | .ok d => .ok d
      | .error e => .error e.message)

/-- Copies the operands in turn; with `number`, writes their lines numbered on from `line`.
Gives the status: `status`, or failure once an operand could not be read. -/
def catOperands (name : String) (number : Bool) : List String → Nat → Int → ToolM Int
  | [], _, status => pure status
  | file :: rest, line, status => do
    match ← readOperand file with
    | .error reason =>
      let status ← fileError name file reason
      catOperands name number rest line status
    | .ok data =>
      if !number then
        say data
        catOperands name number rest line status
      else
        let scan := scanLines data
        say (numberLines line scan.lines)
        match scan.unread with
        | none => catOperands name number rest (line + scan.lines.length) status
        | some left =>
          -- the scanner took more of standard input than it gave back as lines
          if file == "-" then unreadInput left
          let status ← fileError name file lineTooLong
          catOperands name number rest (line + scan.lines.length) status

/-- `mycat [-n] [FILE...]`: copies each file, or standard input for `-` or no operand, to
standard output; `-n` numbers the lines across all files. -/
def cat (args : List String) : ToolM Int :=
  withOptions args [{ short := some 'n', help := "number all output lines" }] "[FILE...]" fun p =>
    catOperands (args.headD "") (p.flag "n") (if p.operands.isEmpty then ["-"] else p.operands)
      0 success

def entryLine (long : Bool) (node : Node) (shown : String) : String :=
  if long then
    nodeMode node ++ " " ++ Text.padLeft 8 (toString (nodeSize node)) ++ " Jan  2 03:04 " ++ shown ++ "\n"
  else shown ++ "\n"

/-- `myls [-al] [FILE...]`: names each file operand, and lists the entries of each directory
operand in byte order, hiding names that start with `.` unless `-a`. With several operands
each directory gets a `path:` header, and a blank line before it unless it comes first. -/
def ls (args : List String) : ToolM Int :=
  withOptions args [{ short := some 'a', help := "do not ignore entries starting with ." },
                    { short := some 'l', help := "use a long listing format" }] "[FILE...]" fun p => do
    let name := args.headD ""
    let paths := if p.operands.isEmpty then ["."] else p.operands
    let all := p.flag "a"
    let long := p.flag "l"
    let many := paths.length > 1
    let mut status := success
    for (path, i) in paths.zipIdx do
      let t ← tree
      let c ← cwd
      match t.lstat c path with
      | .error e => status ← fileError name path e.message
      | .ok (.file d) => say (entryLine long (.file d) path)
      | .ok .dir =>
        if many then
          if i > 0 then say "\n"
          say (path ++ ":\n")
        match t.readDir c path with
        | .error e => status ← fileError name path e.message
        | .ok entries =>
          for e in entries do
            if all || !e.startsWith "." then
              match t.lstat c (joinPath path e) with
              | .ok node => say (entryLine long node e)
              | .error err => status ← fileError name e err.message
    return status

def kindName : Node → String
  | .file _ => "regular file"
  | .dir => "directory"

/-- `mystat FILE...`: name, size, kind, mode and time of each file. -/
def stat (args : List String) : ToolM Int :=
  withOptions args [] "FILE..." fun p => do
    let name := args.headD ""
    if p.operands.isEmpty then return ← missingOperand name
    let mut status := success
    for file in p.operands do
      let t ← tree
      match t.lstat (← cwd) file with
      | .error e => status ← fileError name file e.message
      | .ok node =>
        say ("  File: " ++ file ++ "\n")
        say ("  Size: " ++ Text.padRight 10 (toString (nodeSize node)) ++ " " ++ kindName node ++ "\n")
        say ("Access: " ++ nodeMode node ++ "\n")
        say "Modify: 2020-01-02 03:04:05.000000000 +0000\n"
    return status

/-- `mytouch [-c] FILE...`: creates missing files, unless `-c`. -/
def touch (args : List String) : ToolM Int :=
  withOptions args [{ short := some 'c', help := "do not create any files" }] "FILE..." fun p => do
    let name := args.headD ""
    if p.operands.isEmpty then return ← missingOperand name
    let mut status := success
    for file in p.operands do
      let t ← tree
      let c ← cwd
      match t.touch c file with
      | .ok _ => pure ()
      | .error .noent =>
        if !p.flag "c" then
          match t.createFile c file with
          | .ok t' => setTree t'
          | .error e => status ← fileError name file e.message
      | .error e => status ← fileError name file e.message
    return status

/-- `mymkdir [-pv] DIRECTORY...`: creates directories, with `-p` their parents too and no
error for one that exists. -/
def mkdir (args : List String) : ToolM Int :=
  withOptions args [{ short := some 'p', help := "make parent directories as needed, no error if existing" },
                    { short := some 'v', help := "print a message for each created directory" }]
      "DIRECTORY..." fun p => do
    let name := args.headD ""
    if p.operands.isEmpty then return ← missingOperand name
    let mut status := success
    for dir in p.operands do
      let t ← tree
      let c ← cwd
      let made := if p.flag "p" then t.mkdirAll c dir else t.mkdir c dir
      match made with
      | .error e => status ← fileError name dir e.message
      | .ok t' =>
        setTree t'
        if p.flag "v" then say (name ++ ": created directory '" ++ dir ++ "'\n")
    return status

/-- `myrmdir DIRECTORY...`: removes empty directories. -/
def rmdir (args : List String) : ToolM Int :=
  withOptions args [] "DIRECTORY..." fun p => do
    let name := args.headD ""
    if p.operands.isEmpty then return ← missingOperand name
    let mut status := success
    for dir in p.operands do
      let t ← tree
      let c ← cwd
      match t.lstat c dir with
      | .error e => status ← fileError name dir e.message
      | .ok (.file _) => status ← fileError name dir Errno.notdir.message
      | .ok .dir =>
        match t.rmdir c dir with
        | .ok t' => setTree t'
        | .error e => status ← fileError name dir e.message
    return status

/-- `myrm [-fr] FILE...`: removes files, and directory trees with `-r`; `-f` ignores missing
files and an empty operand list. -/
def rm (args : List String) : ToolM Int :=
  withOptions args [{ short := some 'r', help := "remove directories and their contents recursively" },
                    { short := some 'f', help := "ignore nonexistent files, never prompt" }]
      "FILE..." fun p => do
    let name := args.headD ""
    let force := p.flag "f"
    if p.operands.isEmpty then
      return ← (if force then pure success else missingOperand name)
    let mut status := success
    for file in p.operands do
      let t ← tree
      let c ← cwd
      let result : Except Errno Tree := match t.lstat c file with
        | .error e => .error e
        | .ok .dir => if p.flag "r" then t.removeAll c file else .error .isdir
        | .ok (.file _) => t.unlink c file
      match result with
      | .ok t' => setTree t'
      | .error e =>
        if !(force && e == .noent) then status ← fileError name file e.message
    return status

/-- Where a source goes: the destination itself, or the destination directory with the
source's base name when the destination is a directory. -/
def targetOf (dest : String) (destIsDir : Bool) (src : String) : String :=
  if destIsDir then joinPath dest (baseName src) else dest

/-- Applies an operation to each source and its target (`targetOf`). Several sources need a
directory destination. -/
def eachTarget (name : String) (operands : List String)
    (op : Tree → List String → String → String → Except Errno Tree) : ToolM Int := do
  let sources := operands.dropLast
  let dest := operands.getLast?.getD ""
  let destIsDir := (← tree).isDirAt (← cwd) dest
  if sources.length > 1 && !destIsDir then
    return ← fileError name dest Errno.notdir.message
  let mut status := success
  for src in sources do
    let target := targetOf dest destIsDir src
    match op (← tree) (← cwd) src target with
    | .ok t' => setTree t'
    | .error e => status ← fileError name src e.message
  return status

/-- Copies a regular file: the target is truncated before the source is read, so copying a
file onto itself empties it. -/
def copyFile (t : Tree) (c : List String) (src dst : String) : Except Errno Tree := do
  match ← t.lstat c src with
  | .dir => throw .isdir
  | .file _ =>
    let t ← t.writeFile c dst "" false
    let data ← t.readFile c src
    t.writeFile c dst data false

/-- `mymv SOURCE... DEST`: renames, or moves sources into a directory. -/
def mv (args : List String) : ToolM Int :=
  withOptions args [] "SOURCE... DEST" fun p => do
    let name := args.headD ""
    if p.operands.length < 2 then return ← missingOperand name
    eachTarget name p.operands fun t c src dst => t.rename c src dst

/-- `mycp SOURCE... DEST`: copies regular files. -/
def cp (args : List String) : ToolM Int :=
  withOptions args [] "SOURCE... DEST" fun p => do
    let name := args.headD ""
    if p.operands.length < 2 then return ← missingOperand name
    eachTarget name p.operands copyFile

end JobShell.Tool

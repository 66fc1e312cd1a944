import JobShell.Sys.Errno
import JobShell.Fs.Path

/-!
# The file tree

A file tree maps absolute paths, given by their names, to nodes: a regular file with its
content, or a directory. The root is always a directory and is not stored. Every stored
path's parent is a directory of the tree.

The operations follow the system calls a shell and its tools use. A path text is looked up
from a working directory name by name: every name before the last must be an existing
directory (else "no such file or directory" or "not a directory"), `.` stays and `..`
goes up. What happens at the last name, and which error wins, is said at each call.
-/
namespace JobShell.Fs

inductive Node where
  | file (data : String)
  | dir
  deriving DecidableEq, Repr, Inhabited

def Node.isDir : Node → Bool
  | .dir => true
  | .file _ => false

structure Tree where
  nodes : List (List String × Node) := []
  deriving Repr, Inhabited

/-- Where a path text leads: the absolute path it names, the directory it is in, its last
name when that is a plain name, and whether the text ended in a slash. -/
structure Place where
  path : List String
  parent : List String
  leaf : Option String
  slash : Bool
  deriving Repr

/-- Whether `p` starts with `q`. -/
def isPrefixOf (q p : List String) : Bool := q.isPrefixOf p

namespace Tree

def node? (t : Tree) (p : List String) : Option Node :=
  if p.isEmpty then some .dir else (t.nodes.find? (·.1 == p)).map (·.2)

/-- Walks the names before the last one, each of which must be a directory. -/
def walk (t : Tree) : List String → List String → Except Errno (List String)
  | cur, [] => .ok cur
  | cur, "." :: rest => walk t cur rest
  | cur, ".." :: rest => walk t cur.dropLast rest
  | cur, n :: rest =>
    let next := cur ++ [n]
    match t.node? next with
    | some .dir => walk t next rest
    | some (.file _) => .error .notdir
    | none => .error .noent

/-- Looks a path text up from the working directory `cwd`. -/
def locate (t : Tree) (cwd : List String) (s : String) : Except Errno Place := do
  if s.isEmpty then throw .noent
  let start := if isAbsolute s then [] else cwd
  let ns := names s
  let slash := hasTrailingSlash s && !ns.isEmpty
  match ns.getLast? with
  | none => return { path := [], parent := [], leaf := none, slash := false }
  | some last =>
    let cur ← t.walk start ns.dropLast
    if last == "." then return { path := cur, parent := cur.dropLast, leaf := none, slash }
    else if last == ".." then
      return { path := cur.dropLast, parent := cur.dropLast.dropLast, leaf := none, slash }
    else return { path := cur ++ [last], parent := cur, leaf := some last, slash }

/-- The node a path text names, as `lstat` finds it. -/
def lstat (t : Tree) (cwd : List String) (s : String) : Except Errno Node := do
  let pl ← t.locate cwd s
  match t.node? pl.path with
  | none => throw .noent
  | some (.file d) => if pl.slash then throw .notdir else return .file d
  | some .dir => return .dir

def isDirAt (t : Tree) (cwd : List String) (s : String) : Bool :=
  match t.lstat cwd s with
  | .ok .dir => true
  | _ => false

/-- The content of a regular file; reading a directory is an error. -/
def readFile (t : Tree) (cwd : List String) (s : String) : Except Errno String := do
  match ← t.lstat cwd s with
  | .file d => return d
  | .dir => throw .isdir

def put (t : Tree) (p : List String) (n : Node) : Tree :=
  match t.nodes.findIdx? (·.1 == p) with
  | some i => { nodes := t.nodes.set i (p, n) }
  | none => { nodes := t.nodes ++ [(p, n)] }

/-- Writes a regular file, creating it when missing; `append` keeps the old content in
front. A directory, or a missing name written with a trailing slash, is an error. -/
def writeFile (t : Tree) (cwd : List String) (s : String) (data : String) (append : Bool) :
    Except Errno Tree := do
  let pl ← t.locate cwd s
  match t.node? pl.path with
  | some .dir => throw .isdir
  | some (.file old) =>
    if pl.slash then throw .notdir
    return t.put pl.path (.file (if append then old ++ data else data))
  | none =>
    if pl.slash then throw .isdir
    return t.put pl.path (.file data)

/-- Creates an empty file if the name is free; an existing file is left as it is. -/
def createFile (t : Tree) (cwd : List String) (s : String) : Except Errno Tree := do
  let pl ← t.locate cwd s
  match t.node? pl.path with
  | some .dir => throw .isdir
  | some (.file _) => if pl.slash then throw .notdir else return t
  | none => if pl.slash then throw .isdir else return t.put pl.path (.file "")

/-- The names in a directory, in byte order. -/
def children (t : Tree) (p : List String) : List String :=
  let kids := t.nodes.filterMap fun (q, _) =>
    if q.length == p.length + 1 && isPrefixOf p q then q.getLast? else none
  kids.mergeSort (fun a b => decide (a ≤ b))

def readDir (t : Tree) (cwd : List String) (s : String) : Except Errno (List String) := do
  let pl ← t.locate cwd s
  match t.node? pl.path with
  | some .dir => return t.children pl.path
  | some (.file _) => throw .notdir
  | none => throw .noent

/-- Creates a directory whose name is free. -/
def mkdir (t : Tree) (cwd : List String) (s : String) : Except Errno Tree := do
  let pl ← t.locate cwd s
  match t.node? pl.path with
  | some _ => throw .exist
  | none => return t.put pl.path .dir

/-- The text of a path without its last name, as the directory-making loop cuts it:
trailing slashes go, then the last name and the slash before it; a path of one name has
no parent. -/
def parentText (s : String) : String :=
  let cs := s.toList.reverse.dropWhile (· == '/')
  let cs := cs.dropWhile (· != '/')
  String.ofList (cs.drop 1).reverse

/-- Creates a directory and any missing parents; an existing directory is fine and an
existing file is "not a directory". -/
def mkdirAll (t : Tree) (cwd : List String) (s : String) : Except Errno Tree :=
  go (s.length + 1) s t
where
  go : Nat → String → Tree → Except Errno Tree
    | 0, _, t => .ok t
    | fuel + 1, s, t =>
      match t.lstat cwd s with
      | .ok .dir => .ok t
      | .ok (.file _) => .error .notdir
      | .error _ =>
        let parent := parentText s
        let parentLen := (parent.toList.reverse.dropWhile (· == '/')).length
        let made := if parentLen > 0 then go fuel parent t else .ok t
        match made with
        | .error e => .error e
        | .ok t =>
          match t.mkdir cwd s with
          | .ok t => .ok t
          | .error e => if t.isDirAt cwd s then .ok t else .error e

def drop (t : Tree) (p : List String) : Tree :=
  { nodes := t.nodes.filter fun (q, _) => !isPrefixOf p q }

/-- Removes an empty directory. -/
def rmdir (t : Tree) (cwd : List String) (s : String) : Except Errno Tree := do
  let pl ← t.locate cwd s
  if pl.path.isEmpty then throw .busy
  if pl.leaf.isNone then
    if (names s).getLast? == some "." then throw .inval else throw .notempty
  match t.node? pl.path with
  | none => throw .noent
  | some (.file _) => throw .notdir
  | some .dir =>
    if (t.children pl.path).isEmpty then return t.drop pl.path else throw .notempty

/-- Removes a file that is not a directory. -/
def unlink (t : Tree) (cwd : List String) (s : String) : Except Errno Tree := do
  let pl ← t.locate cwd s
  match t.node? pl.path with
  | none => throw .noent
  | some .dir => throw .isdir
  | some (.file _) => if pl.slash then throw .notdir else return t.drop pl.path

/-- Removes a file or a whole directory tree; a missing name is no error, and a path
ending in `.` is refused. -/
def removeAll (t : Tree) (cwd : List String) (s : String) : Except Errno Tree := do
  if s == "." || s.endsWith "/." then throw .inval
  match t.locate cwd s with
  | .error .noent => return t
  | .error e => throw e
  | .ok pl =>
    match t.node? pl.path with
    | none => return t
    | some _ =>
      if pl.path.isEmpty then throw .busy
      return t.drop pl.path

/-- Moves the node at `src` and everything below it to `dst`, replacing what was there. -/
def move (t : Tree) (src dst : List String) : Tree :=
  let t := t.drop dst
  { nodes := t.nodes.map fun (q, n) =>
      if isPrefixOf src q then (dst ++ q.drop src.length, n) else (q, n) }

/-- Renames a file or directory the way the kernel does: both parents are looked up
first; then a missing source, a non-directory source written with a slash, a directory
moved below itself (invalid), a target above the source (not empty), a directory over a
file, a file over a directory and a directory over a non-empty one are refused, in that
order. Renaming a file to itself changes nothing. -/
def renameRaw (t : Tree) (cwd : List String) (src dst : String) : Except Errno Tree := do
  let sp ← t.locate cwd src
  let dp ← t.locate cwd dst
  if sp.leaf.isNone || dp.leaf.isNone then throw .busy
  let some sn := t.node? sp.path | throw .noent
  if !sn.isDir && (sp.slash || dp.slash) then throw .notdir
  if sp.path == dp.path then return t
  if isPrefixOf sp.path dp.path then throw .inval
  if isPrefixOf dp.path sp.path then throw .notempty
  match t.node? dp.path with
  | none => return t.move sp.path dp.path
  | some dn =>
    if sn.isDir && !dn.isDir then throw .notdir
    if !sn.isDir && dn.isDir then throw .isdir
    if dn.isDir && !(t.children dp.path).isEmpty then throw .notempty
    return t.move sp.path dp.path

/-- Renames as the shell's tools do: an existing directory as target is refused as
"file exists" unless it is the source itself under another name, and a missing source is
reported first. -/
def rename (t : Tree) (cwd : List String) (src dst : String) : Except Errno Tree := do
  match t.lstat cwd dst with
  | .ok .dir =>
    match t.lstat cwd src with
    | .error e => throw e
    | .ok _ =>
      let same := match t.locate cwd src, t.locate cwd dst with
        | .ok a, .ok b => a.path == b.path
        | _, _ => false
      if dst == src || !same then throw .exist
      t.renameRaw cwd src dst
  | _ => t.renameRaw cwd src dst

/-- Touches a file's times: only its existence matters. -/
def touch (t : Tree) (cwd : List String) (s : String) : Except Errno Unit := do
  let _ ← t.lstat cwd s
  return ()

/-- Every path below `base`, relative to it, directories marked by a trailing slash, with
file contents. -/
def listing (t : Tree) (base : List String) : List (String × Option String) :=
  t.nodes.filterMap fun (q, n) =>
    if q.length > base.length && isPrefixOf base q then
      let rel := "/".intercalate (q.drop base.length)
      match n with
      | .dir => some (rel ++ "/", none)
      | .file d => some (rel, some d)
    else none

/-! ## Seeding a tree

A tree is built from a base directory and a map of relative paths: a path ending in `/` is a
directory, any other a file with the given content; missing parent directories are made. -/

/-- Makes every directory on the way to `p`, and `p` itself. -/
def ensureDirs (t : Tree) (p : List String) : Tree :=
  (List.range p.length).foldl (fun t i =>
    let q := p.take (i + 1)
    if (t.node? q).isSome then t else t.put q .dir) t

/-- A tree holding the base directory and the given entries below it. -/
def seed (base : List String) (entries : List (String × String)) : Tree :=
  entries.foldl (fun t (path, content) =>
    let ns := base ++ names path
    if hasTrailingSlash path then t.ensureDirs ns
    else (t.ensureDirs ns.dropLast).put ns (.file content)) (ensureDirs {} base)

end Tree

end JobShell.Fs

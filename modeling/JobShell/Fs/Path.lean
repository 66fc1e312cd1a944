/-!
# Path text

Paths are texts of names separated by `/`; a leading `/` makes a path absolute, and
repeated slashes count as one. `cleanPath` is the shortest text that names the same file
by lexical rules alone: it drops `.` names, folds `name/..`, and writes `.` for the empty
path. `baseName` is the last name of a path and `joinPath` puts two paths together and
cleans the result.
-/
namespace JobShell.Fs

/-- The names of a path text, without empty ones. -/
def names (s : String) : List String :=
  ((s.toList.splitOn '/').map String.ofList).filter (!·.isEmpty)

def isAbsolute (s : String) : Bool := s.startsWith "/"

def hasTrailingSlash (s : String) : Bool := s.endsWith "/"

/-- The text of an absolute path given by its names. -/
def render (p : List String) : String := "/" ++ "/".intercalate p

/-- Folds `.` and `..` names lexically; at the root of an absolute path `..` stays at the
root, in a relative one it is kept. -/
def foldNames (absolute : Bool) : List String → List String → List String
  | acc, [] => acc.reverse
  | acc, "." :: rest => foldNames absolute acc rest
  | acc, ".." :: rest =>
    match acc with
    | a :: acc' => if a == ".." then foldNames absolute (".." :: acc) rest else foldNames absolute acc' rest
    | [] => if absolute then foldNames absolute [] rest else foldNames absolute [".."] rest
  | acc, n :: rest => foldNames absolute (n :: acc) rest

def cleanPath (s : String) : String :=
  let abs := isAbsolute s
  let ns := foldNames abs [] (names s)
  if abs then render ns
  else if ns.isEmpty then "." else "/".intercalate ns

/-- The last name of a path: `/` for the root, `.` for the empty path. -/
def baseName (s : String) : String :=
  if s.isEmpty then "."
  else match (names s).getLast? with
    | some n => n
    | none => "/"

def joinPath (a b : String) : String :=
  if a.isEmpty then cleanPath b
  else if b.isEmpty then cleanPath a
  else cleanPath (a ++ "/" ++ b)

end JobShell.Fs

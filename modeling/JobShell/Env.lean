/-!
# Shell variables

A store of named string variables, each marked exported or not. Assigning keeps the mark
unless the assignment exports; exporting a variable that does not exist creates it empty.
Listings are `NAME=value` entries in byte order of the whole entry.
-/
namespace JobShell

structure Variable where
  value : String
  exported : Bool
  deriving DecidableEq, Repr, Inhabited

structure Env where
  vars : List (String × Variable) := []
  deriving Repr, Inhabited

/-- Splits an entry at its first `=`; an entry without one has an empty value. -/
def splitPair (entry : String) : String × String :=
  match entry.toList.span (· != '=') with
  | (key, []) => (String.ofList key, "")
  | (key, _ :: value) => (String.ofList key, String.ofList value)

/-- Byte order of texts. -/
def sortTexts (xs : List String) : List String := xs.mergeSort (fun a b => decide (a ≤ b))

namespace Env

def lookup (e : Env) (key : String) : Option String :=
  (e.vars.find? (·.1 == key)).map (·.2.value)

def get (e : Env) (key : String) : String := (e.lookup key).getD ""

def isExported (e : Env) (key : String) : Bool :=
  match e.vars.find? (·.1 == key) with
  | some (_, v) => v.exported
  | none => false

def assign (e : Env) (key value : String) (exporting : Bool) : Env :=
  let v : Variable := { value, exported := e.isExported key || exporting }
  { vars := (key, v) :: e.vars.filter (·.1 != key) }

/-- Assigns a variable and keeps its exported mark. -/
def set (e : Env) (key value : String) : Env := e.assign key value false

/-- Assigns and exports a variable. -/
def setenv (e : Env) (key value : String) : Env := e.assign key value true

/-- Exports a variable with its current value, creating it empty. -/
def markExported (e : Env) (key : String) : Env := e.assign key (e.get key) true

def unset (e : Env) (key : String) : Env := { vars := e.vars.filter (·.1 != key) }

/-- A store where every entry is exported. -/
def ofEnviron (entries : List String) : Env :=
  entries.foldl (fun e entry => let (k, v) := splitPair entry; e.setenv k v) {}

def entries (e : Env) (exportedOnly : Bool) : List String :=
  sortTexts (e.vars.filterMap fun (k, v) =>
    if exportedOnly && !v.exported then none else some (k ++ "=" ++ v.value))

/-- Every variable as a sorted `NAME=value` list. -/
def all (e : Env) : List String := e.entries false

/-- The exported variables as a sorted `NAME=value` list. -/
def environ (e : Env) : List String := e.entries true

end Env

end JobShell

/-!
# Glob patterns

The patterns of file-name expansion and of the `${name#pattern}` family: `*` matches any
run of characters, `?` any one character, `[…]` one character of a set (`!` or `^` first
negates it, `a-z` is a range, and a whole `[[:alpha:]]` names a class), and a backslash
makes the next character plain.

A text that cannot be a pattern (an unclosed `[`, a backslash at the end, a range running
backwards, an unknown class) has no items: expansion then leaves the word alone.

Matching is a backtracking search over the items. Where several matches exist, the
search tries the runs of a `*` longest first (`greedy`) or shortest first, and the first
match it finds is the one taken, as a backtracking regular-expression engine does.
-/
namespace JobShell.Script

inductive SetItem where
  | single (c : Char)
  | range (lo hi : Char)
  deriving DecidableEq, Repr

inductive PatItem where
  | star
  | any
  | lit (c : Char)
  | set (negated : Bool) (items : List SetItem)
  | named (name : String)
  deriving DecidableEq, Repr

/-- The character classes a `[[:name:]]` may name. -/
def classNames : List String :=
  ["alnum", "alpha", "ascii", "blank", "cntrl", "digit", "graph", "lower", "print", "punct",
   "space", "upper", "word", "xdigit"]

def inClass (name : String) (c : Char) : Bool :=
  let n := c.toNat
  let between (a b : Char) : Bool := a.toNat ≤ n && n ≤ b.toNat
  match name with
  | "alnum" => between '0' '9' || between 'A' 'Z' || between 'a' 'z'
  | "alpha" => between 'A' 'Z' || between 'a' 'z'
  | "ascii" => n ≤ 127
  | "blank" => c == ' ' || c == '\t'
  | "cntrl" => n ≤ 31 || n == 127
  | "digit" => between '0' '9'
  | "graph" => between '!' '~'
  | "lower" => between 'a' 'z'
  | "print" => between ' ' '~'
  | "punct" => between '!' '/' || between ':' '@' || between '[' '\x60' || between '\x7b' '~'
  | "space" => c == ' ' || (9 ≤ n && n ≤ 13)
  | "upper" => between 'A' 'Z'
  | "word" => between '0' '9' || between 'A' 'Z' || between 'a' 'z' || c == '_'
  | "xdigit" => between '0' '9' || between 'A' 'F' || between 'a' 'f'
  | _ => false

def SetItem.admits (c : Char) : SetItem → Bool
  | .single d => c == d
  | .range lo hi => lo.toNat ≤ c.toNat && c.toNat ≤ hi.toNat

/-- Whether an item that is not `*` matches one character. -/
def PatItem.admits (c : Char) : PatItem → Bool
  | .star => true
  | .any => true
  | .lit d => c == d
  | .set neg items => items.any (·.admits c) != neg
  | .named name => inClass name c

/-- The members of a set from its raw characters: a character, `-` and a character form a
range, and any other `-` is itself. Backslashed characters are plain. -/
def setMembers : List (Char × Bool) → List SetItem
  | (a, _) :: ('-', false) :: (b, _) :: rest => .range a b :: setMembers rest
  | (a, _) :: rest => .single a :: setMembers rest
  | [] => []

/-- Reads the body of a set up to its closing `]`: the raw characters, each with whether
it was backslashed, and the text after the `]`. A `-` makes the character before it the
start of a range, and a range may not run backwards; `prev` is the character read last. -/
def readSet : List Char → Char → Option Char → List (Char × Bool) →
    Option (List (Char × Bool) × List Char)
  | [], _, _, _ => none
  | '\\' :: c :: rest, _, rangeStart, acc => readSet rest c rangeStart ((c, true) :: acc)
  | ['\\'], _, _, _ => none
  | ']' :: rest, _, _, acc => some (acc.reverse, rest)
  | c :: rest, prev, rangeStart, acc =>
    match rangeStart with
    | some lo =>
      if lo.toNat > c.toNat then none
      else readSet rest c (if c == '-' then some prev else none) ((c, false) :: acc)
    | none => readSet rest c (if c == '-' then some prev else none) ((c, false) :: acc)

/-- The name of a `[[:name:]]` class at the front of `cs` (which starts after `[[:`),
and the text after its `:]]`. -/
def className? (cs : List Char) : Option (String × List Char) :=
  go cs []
where
  go : List Char → List Char → Option (String × List Char)
    | ':' :: ']' :: ']' :: rest, acc => some (String.ofList acc.reverse, rest)
    | c :: rest, acc => go rest (c :: acc)
    | [], _ => none

/-- Parses a pattern; `none` when the text is not a valid pattern. -/
def parsePattern (s : String) : Option (List PatItem) :=
  go s.toList s.length []
where
  go : List Char → Nat → List PatItem → Option (List PatItem)
    | [], _, acc => some acc.reverse
    | _, 0, _ => none
    | '*' :: rest, n + 1, acc => go rest n (.star :: acc)
    | '?' :: rest, n + 1, acc => go rest n (.any :: acc)
    | '\\' :: c :: rest, n + 1, acc => go rest n (.lit c :: acc)
    | ['\\'], _, _ => none
    | '[' :: '[' :: '.' :: _, _, _ => none
    | '[' :: '[' :: '=' :: _, _, _ => none
    | '[' :: '[' :: ':' :: rest, n + 1, acc =>
      match className? rest with
      | some (name, after) => if classNames.contains name then go after n (.named name :: acc) else none
      | none => none
    | '[' :: rest, n + 1, acc =>
      let (neg, prev, rest) := match rest with
        | '!' :: r => (true, '!', r)
        | '^' :: r => (true, '^', r)
        | r => (false, '[', r)
      let (first, prev, rest) := match rest with
        | ']' :: r => ([(']', false)], ']', r)
        | r => ([], prev, r)
      if rest.isEmpty then none
      else
        match readSet rest prev none first with
        | some (raw, after) => go after n (.set neg (setMembers raw) :: acc)
        | none => none
    | c :: rest, n + 1, acc => go rest n (.lit c :: acc)

/-- Whether a text has pattern characters not made plain by a backslash. -/
def hasMeta (s : String) : Bool :=
  go s.toList
where
  go : List Char → Bool
    | '\\' :: _ :: rest => go rest
    | c :: rest => c == '*' || c == '?' || c == '[' || go rest
    | [] => false

/-- Makes every pattern character of a text plain. -/
def quoteMeta (s : String) : String :=
  String.ofList (s.toList.flatMap fun c =>
    if c == '*' || c == '?' || c == '[' || c == '\\' then ['\\', c] else [c])

/-- Whether the items match the whole text. -/
def fullMatch : List PatItem → List Char → Bool
  | [], cs => cs.isEmpty
  | .star :: rest, cs => (List.range (cs.length + 1)).any fun k => fullMatch rest (cs.drop k)
  | p :: rest, c :: cs => p.admits c && fullMatch rest cs
  | _ :: _, [] => false

/-- The length of the first match of the items at the front of the text, in the order
the search tries them. -/
def firstEnd (greedy : Bool) : List PatItem → List Char → Option Nat
  | [], _ => some 0
  | .star :: rest, cs =>
    let ks := if greedy then (List.range (cs.length + 1)).reverse else List.range (cs.length + 1)
    ks.findSome? fun k => (firstEnd greedy rest (cs.drop k)).map (· + k)
  | p :: rest, c :: cs => if p.admits c then (firstEnd greedy rest cs).map (· + 1) else none
  | _ :: _, [] => none

/-- Whether a file name matches a glob pattern. -/
def globMatches (pat : String) (name : String) : Bool :=
  match parsePattern pat with
  | some ps => fullMatch ps name.toList
  | none => false

/-- `${x#pat}` and `${x##pat}`: removes the prefix the pattern matches, the shortest or
the longest. -/
def removePrefix (pat : String) (s : String) (longest : Bool) : String :=
  match parsePattern pat with
  | none => s
  | some ps =>
    match firstEnd longest ps s.toList with
    | some k => String.ofList (s.toList.drop k)
    | none => s

/-- `${x%pat}` and `${x%%pat}`: removes the suffix the pattern matches, the shortest or
the longest. -/
def removeSuffix (pat : String) (s : String) (longest : Bool) : String :=
  match parsePattern pat with
  | none => s
  | some ps =>
    let cs := s.toList
    let starts := List.range (cs.length + 1)
    let order := if longest then starts else starts.reverse
    match order.find? fun i => fullMatch ps (cs.drop i) with
    | some i => String.ofList (cs.take i)
    | none => s

/-- The first match at or after `pos`: its start and end. -/
def findFrom (ps : List PatItem) (cs : List Char) (pos : Nat) : Option (Nat × Nat) :=
  ((List.range (cs.length + 1)).filter (· ≥ pos)).findSome? fun i =>
    (firstEnd true ps (cs.drop i)).map fun k => (i, i + k)

/-- The matches a global search finds, left to right, without overlaps; an empty match
right where the previous one ended is skipped. At most `limit` of them. -/
def findAll (ps : List PatItem) (cs : List Char) (limit : Nat) : List (Nat × Nat) :=
  go (cs.length + 2) 0 none limit []
where
  go : Nat → Nat → Option Nat → Nat → List (Nat × Nat) → List (Nat × Nat)
    | 0, _, _, _, acc => acc.reverse
    | _, _, _, 0, acc => acc.reverse
    | fuel + 1, pos, prevEnd, left + 1, acc =>
      if pos > cs.length then acc.reverse
      else
        match findFrom ps cs pos with
        | none => acc.reverse
        | some (a, b) =>
          if b == pos then
            let accept := prevEnd != some a
            let acc' := if accept then (a, b) :: acc else acc
            go fuel (pos + 1) (some b) (if accept then left else left + 1) acc'
          else go fuel b (some b) left ((a, b) :: acc)

/-- `${x/pat/with}` and `${x//pat/with}`: replaces the first match, or every match. -/
def replaceMatches (pat : String) (s : String) (with_ : String) (all : Bool) : String :=
  match parsePattern pat with
  | none => s
  | some ps =>
    let cs := s.toList
    let locs := findAll ps cs (if all then cs.length + 2 else 1)
    let (out, last) := locs.foldl (fun (acc : List Char × Nat) (loc : Nat × Nat) =>
      (acc.1 ++ (cs.drop acc.2).take (loc.1 - acc.2) ++ with_.toList, loc.2)) ([], 0)
    String.ofList (out ++ cs.drop last)

/-- Whether the pattern occurs in a one-character text: it matches the empty text or the
character. -/
def matchesChar (ps : List PatItem) (c : Char) : Bool :=
  fullMatch ps [] || fullMatch ps [c]

/-- `${x^pat}`, `${x^^pat}`, `${x,pat}`, `${x,,pat}`: changes the case of the characters
the pattern occurs in, the first such one or all of them. -/
def changeCase (pat : String) (s : String) (upper all : Bool) : String :=
  match parsePattern pat with
  | none => s
  | some ps =>
    let f : Char → Char := if upper then Char.toUpper else Char.toLower
    String.ofList (go ps f s.toList)
where
  go (ps : List PatItem) (f : Char → Char) : List Char → List Char
    | [] => []
    | c :: rest =>
      if matchesChar ps c then
        if all then f c :: go ps f rest else f c :: rest
      else c :: go ps f rest

end JobShell.Script

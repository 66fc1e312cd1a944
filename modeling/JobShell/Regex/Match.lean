import JobShell.Regex.Syntax
import Std.Data.HashSet

/-!
# Regular expressions: matching

An expression is compiled to a program of instructions: match a character of a set, match
any character, branch two ways (the first preferred), test an anchor, accept. A
repetition of `x` between `m` and `n` times becomes `m` copies of `x` followed by `n - m`
nested optional copies, or by a loop when there is no bound; a loop over an expression
that can match the empty text is written as an optional `x+`, which gives its branches
the same preference as the expression says.

A search tries each starting position from left to right, and from each runs the program
depth first, taking the preferred branch first. The first match found this way is the
match of the search: the leftmost one, and of those the one the preferences choose.
A pair of instruction and position is run at most once in a search: a second visit can
only fail as the first one did, or loop. That bounds the work by the size of the program
times the length of the text.

Positions are indices of characters. The text of a search stays whole, so that anchors
see the characters before the point where a search starts.
-/
namespace JobShell.Regex

/-- An instruction; `next` is the instruction that follows. -/
inductive Inst where
  | chars (set : CharSet) (next : Nat)
  | any (newline : Bool) (next : Nat)
  | split (first second : Nat)
  | assert (a : Anchor) (next : Nat)
  | jump (next : Nat)
  | accept
  deriving Repr, Inhabited

/-- A compiled expression: its instructions and where it starts. -/
structure Regex where
  prog : Array Inst
  start : Nat
  deriving Repr, Inhabited

abbrev Emit := StateM (Array Inst)

/-- Appends an instruction and gives its place. -/
def push (i : Inst) : Emit Nat := modifyGet fun prog => (prog.size, prog.push i)

/-- A choice between the two ways, the first preferred when `greedy`. -/
def choice (greedy : Bool) (body next : Nat) : Inst :=
  if greedy then .split body next else .split next body

/-- One or more copies of a piece, each followed by a choice to go round again. -/
def plusOf (piece : Nat → Emit Nat) (greedy : Bool) (next : Nat) : Emit (Nat × Nat) := do
  let loop ← push (.jump next)
  let body ← piece loop
  modify fun prog => prog.set! loop (choice greedy body next)
  return (body, loop)

/-- `k` copies of a piece in a row. -/
def copies (piece : Nat → Emit Nat) : Nat → Nat → Emit Nat
  | 0, next => pure next
  | k + 1, next => do
    let rest ← copies piece k next
    piece rest

/-- Up to `k` nested optional copies of a piece. -/
def optionalCopies (piece : Nat → Emit Nat) (greedy : Bool) : Nat → Nat → Emit Nat
  | 0, next => pure next
  | k + 1, next => do
    let rest ← optionalCopies piece greedy k next
    let body ← piece rest
    push (choice greedy body next)

/-- Emits the instructions of an expression that goes on to `next`, and gives its entry. -/
def emit : Node → Nat → Emit Nat
  | .empty, next => pure next
  | .chars s, next => push (.chars s next)
  | .any nl, next => push (.any nl next)
  | .anchor a, next => push (.assert a next)
  | .cat a b, next => do
    let pb ← emit b next
    emit a pb
  | .alt a b, next => do
    let pa ← emit a next
    let pb ← emit b next
    push (.split pa pb)
  | .rep x min max greedy, next =>
    let piece := fun n => emit x n
    match max with
    | some hi =>
      if hi < min then push (.chars [] next)
      else do
        let rest ← optionalCopies piece greedy (hi - min) next
        copies piece min rest
    | none =>
      if min == 0 then
        if x.nullable then do
          -- an optional x+
          let (body, _) ← plusOf piece greedy next
          push (choice greedy body next)
        else do
          let (_, loop) ← plusOf piece greedy next
          return loop
      else do
        let (body, _) ← plusOf piece greedy next
        copies piece (min - 1) body

/-- Compiles an expression. -/
def Regex.ofNode (n : Node) : Regex :=
  let (start, prog) := (do
    let done ← push .accept
    emit n done : Emit Nat).run #[]
  { prog, start }

/-- Reads and compiles an expression. -/
def Regex.compile (text : String) (flags : Flags := {}) : Except SyntaxError Regex :=
  (parse text flags).map Regex.ofNode

/-- The characters of words, for `\b`. -/
def isWordChar (c : Char) : Bool :=
  ('0' ≤ c && c ≤ '9') || ('a' ≤ c && c ≤ 'z') || ('A' ≤ c && c ≤ 'Z') || c == '_'

/-- Whether an anchor holds at a position of a text. -/
def anchorHolds (input : Array Char) (pos : Nat) : Anchor → Bool
  | .textStart => pos == 0
  | .textEnd => pos == input.size
  | .lineStart => pos == 0 || input[pos - 1]? == some '\n'
  | .lineEnd => pos == input.size || input[pos]? == some '\n'
  | .wordBoundary => wordBefore input pos != wordAfter input pos
  | .notWordBoundary => wordBefore input pos == wordAfter input pos
where
  wordBefore (input : Array Char) (pos : Nat) : Bool :=
    pos > 0 && (match input[pos - 1]? with
      | some c => isWordChar c
      | none => false)
  wordAfter (input : Array Char) (pos : Nat) : Bool :=
    match input[pos]? with
    | some c => isWordChar c
    | none => false

/-- Runs the program from an instruction at a position, depth first: where the first match
found ends, and the pairs visited so far. -/
def Regex.explore (re : Regex) (input : Array Char) :
    Nat → Nat → Nat → Std.HashSet Nat → Option Nat × Std.HashSet Nat
  | 0, _, _, seen => (none, seen)
  | fuel + 1, pc, pos, seen =>
    let key := pc * (input.size + 1) + pos
    if seen.contains key then (none, seen)
    else
      let seen := seen.insert key
      match re.prog[pc]? with
      | none => (none, seen)
      | some (.chars s next) =>
        match input[pos]? with
        | some c => if s.contains c.toNat then re.explore input fuel next (pos + 1) seen else (none, seen)
        | none => (none, seen)
      | some (.any nl next) =>
        match input[pos]? with
        | some c => if nl || c != '\n' then re.explore input fuel next (pos + 1) seen else (none, seen)
        | none => (none, seen)
      | some (.split a b) =>
        match re.explore input fuel a pos seen with
        | (some e, seen) => (some e, seen)
        | (none, seen) => re.explore input fuel b pos seen
      | some (.assert a next) =>
        if anchorHolds input pos a then re.explore input fuel next pos seen else (none, seen)
      | some (.jump next) => re.explore input fuel next pos seen
      | some .accept => (some pos, seen)

/-- The first match that starts at `start` or later: its start and end. -/
def Regex.searchFrom (re : Regex) (input : Array Char) (start : Nat) : Option (Nat × Nat) :=
  go (input.size + 1 - start) start {}
where
  go : Nat → Nat → Std.HashSet Nat → Option (Nat × Nat)
    | 0, _, _ => none
    | k + 1, pos, seen =>
      match re.explore input (re.prog.size * (input.size + 1) + 1) re.start pos seen with
      | (some e, _) => some (pos, e)
      | (none, seen) => go k (pos + 1) seen

/-- Whether a text has a match. -/
def Regex.matches (re : Regex) (s : String) : Bool := (re.searchFrom s.toList.toArray 0).isSome

/-- The first match in a text, in character positions. -/
def Regex.firstMatch (re : Regex) (s : String) : Option (Nat × Nat) := re.searchFrom s.toList.toArray 0

/-- All matches in a text, left to right, none overlapping: after a match the search goes
on where it ended, or one character further after an empty match; an empty match right
where a match ended does not count. -/
def Regex.allMatches (re : Regex) (input : Array Char) : List (Nat × Nat) :=
  go (input.size + 2) 0 none []
where
  go : Nat → Nat → Option Nat → List (Nat × Nat) → List (Nat × Nat)
    | 0, _, _, acc => acc.reverse
    | k + 1, pos, prevEnd, acc =>
      if pos > input.size then acc.reverse
      else
        match re.searchFrom input pos with
        | none => acc.reverse
        | some (a, b) =>
          let accept := !(b == pos && prevEnd == some a)
          let next := if b == pos then pos + 1 else b
          go k next (some b) (if accept then (a, b) :: acc else acc)

/-- The characters from `a` to `b` as a text. -/
def slice (input : Array Char) (a b : Nat) : String := String.ofList ((input.toList.drop a).take (b - a))

/-- A text cut at every match: the pieces between them. A match ending at the start gives
no piece before it, and a match starting at the very end leaves no piece after it. -/
def Regex.split (re : Regex) (s : String) : List String :=
  let input := s.toList.toArray
  if s.isEmpty then [""]
  else
    let ms := re.allMatches input
    let (pieces, beg, lastStart) := ms.foldl (fun (acc : List String × Nat × Nat) (a, b) =>
      let (out, beg, _) := acc
      ((if b != 0 then slice input beg a :: out else out), b, a)) ([], 0, 0)
    let pieces := if lastStart != input.size then slice input beg input.size :: pieces else pieces
    pieces.reverse

/-- Replaces the matches of a text. `f i m` gives the text for the `i`-th replaced match
`m`, counted from 0. An empty match right after a match is not replaced. Gives the new
text and the number of matches replaced. -/
def Regex.replace (re : Regex) (s : String) (f : Nat → String → String) : String × Nat :=
  let input := s.toList.toArray
  go input (input.size + 2) 0 0 "" 0
where
  go (input : Array Char) : Nat → Nat → Nat → String → Nat → String × Nat
    | 0, _, lastEnd, out, count => (out ++ slice input lastEnd input.size, count)
    | k + 1, pos, lastEnd, out, count =>
      if pos > input.size then (out ++ slice input lastEnd input.size, count)
      else
        match re.searchFrom input pos with
        | none => (out ++ slice input lastEnd input.size, count)
        | some (a, b) =>
          let out := out ++ slice input lastEnd a
          let (out, count) :=
            if b > lastEnd || a == 0 then (out ++ f count (slice input a b), count + 1)
            else (out, count)
          let next := if b > pos then b else pos + 1
          go input k next b out count

end JobShell.Regex

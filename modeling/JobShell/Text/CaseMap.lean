/-!
# Upper and lower case

The simple case mappings of Unicode, one character to one character, for the scripts
that have case and are in common use: Latin (with its supplements and extensions),
Greek, Cyrillic, Armenian, the Roman numerals, the circled letters and the full-width
Latin letters. A character outside these tables has no other case.

A table row is a range of code points with the distance to the other case, or a range in
which upper and lower case alternate, the upper case letter being on the even code point
or the odd one.
-/
namespace JobShell.Text

/-- How the characters of a range change case. -/
inductive Shift where
  /-- every character moves by the same distance -/
  | by (delta : Int)
  /-- characters come in pairs; the one on an even code point is upper case when
  `upperEven`, and the other of its pair is one code point away -/
  | pairs (upperEven : Bool)
  deriving Repr, DecidableEq

/-- A range of upper case letters and how they become lower case. -/
structure CaseRow where
  lo : Nat
  hi : Nat
  shift : Shift
  deriving Repr

/-- Upper case letters and their lower case. -/
def lowerRows : List CaseRow :=
  [⟨0x41, 0x5a, .by 32⟩, ⟨0xc0, 0xd6, .by 32⟩, ⟨0xd8, 0xde, .by 32⟩,
   ⟨0x100, 0x12f, .pairs true⟩, ⟨0x130, 0x130, .by (-(0x130 - 0x69))⟩,
   ⟨0x132, 0x137, .pairs true⟩, ⟨0x139, 0x148, .pairs false⟩, ⟨0x14a, 0x177, .pairs true⟩,
   ⟨0x178, 0x178, .by (-(0x178 - 0xff))⟩, ⟨0x179, 0x17e, .pairs false⟩,
   ⟨0x1cd, 0x1dc, .pairs false⟩, ⟨0x1de, 0x1ef, .pairs true⟩, ⟨0x1f8, 0x21f, .pairs true⟩,
   ⟨0x222, 0x233, .pairs true⟩,
   ⟨0x386, 0x386, .by 38⟩, ⟨0x388, 0x38a, .by 37⟩, ⟨0x38c, 0x38c, .by 64⟩,
   ⟨0x38e, 0x38f, .by 63⟩, ⟨0x391, 0x3a1, .by 32⟩, ⟨0x3a3, 0x3ab, .by 32⟩,
   ⟨0x3d8, 0x3ef, .pairs true⟩,
   ⟨0x400, 0x40f, .by 80⟩, ⟨0x410, 0x42f, .by 32⟩, ⟨0x460, 0x481, .pairs true⟩,
   ⟨0x48a, 0x4bf, .pairs true⟩, ⟨0x4c0, 0x4c0, .by 15⟩, ⟨0x4c1, 0x4ce, .pairs false⟩,
   ⟨0x4d0, 0x52f, .pairs true⟩,
   ⟨0x531, 0x556, .by 48⟩,
   ⟨0x1e00, 0x1e95, .pairs true⟩, ⟨0x1ea0, 0x1eff, .pairs true⟩,
   ⟨0x2160, 0x216f, .by 16⟩, ⟨0x24b6, 0x24cf, .by 26⟩, ⟨0xff21, 0xff3a, .by 32⟩]

/-- Lower case letters and their upper case, for those whose pair is not found by reading
`lowerRows` backwards. -/
def upperExtras : List (Nat × Nat) :=
  [(0xb5, 0x39c), (0xff, 0x178), (0x131, 0x49), (0x17f, 0x53), (0x3c2, 0x3a3),
   (0x3ac, 0x386), (0x3cc, 0x38c), (0x4cf, 0x4c0)]

/-- The character at a code point moved by a distance, or the character itself when the
result is not a character. -/
def moved (c : Char) (delta : Int) : Char :=
  let n := (c.toNat : Int) + delta
  if n < 0 then c else Char.ofNat n.toNat

/-- The lower case of a character. -/
def toLowerChar (c : Char) : Char :=
  let n := c.toNat
  match lowerRows.find? (fun r => r.lo ≤ n && n ≤ r.hi) with
  | none => c
  | some r =>
    match r.shift with
    | .by d => moved c d
    | .pairs upperEven => if (n % 2 == 0) == upperEven then moved c 1 else c

/-- The upper case of a character. -/
def toUpperChar (c : Char) : Char :=
  let n := c.toNat
  match upperExtras.find? (·.1 == n) with
  | some (_, u) => Char.ofNat u
  | none =>
    let back := lowerRows.find? fun r =>
      match r.shift with
      | .by d => d > 0 && (r.lo : Int) + d ≤ n && n ≤ (r.hi : Int) + d
      | .pairs _ => r.lo ≤ n && n ≤ r.hi
    match back with
    | none => c
    | some r =>
      match r.shift with
      | .by d => moved c (-d)
      | .pairs upperEven => if (n % 2 == 0) == upperEven then c else moved c (-1)

/-- A text in lower case. -/
def toLowerText (s : String) : String := s.map toLowerChar

/-- A text in upper case. -/
def toUpperText (s : String) : String := s.map toUpperChar

end JobShell.Text

/-!
# Decoding UTF-8 at either end of some bytes

The two decoders of the standard library's `unicode/utf8` that the job table relies on, over a
list of bytes (a string of the source language is its bytes, valid UTF-8 or not).

* `decodeRune` reads the character the bytes start with and its width. Lean's own decoder
  (`ByteArray.utf8DecodeChar?`) accepts exactly the well-formed sequences the library's does (no
  overlong form, no surrogate, nothing past U+10FFFF); where it refuses, the library answers the
  replacement character with width 1, or width 0 for no bytes at all.
* `decodeLastRune` is the library's `DecodeLastRune`, step for step: a last byte below 0x80 is
  a character of its own; otherwise the bytes are searched backwards, at most three bytes before
  the last, for one that can start a sequence (`scanBack`), decoded from there, and the result
  kept only if the sequence ends exactly at the end. Every other outcome is the replacement
  character with width 1.
-/
namespace JobShell.Utf8

/-- The replacement character, U+FFFD, that the decoders answer for bytes they cannot read. -/
def runeError : Char := '\uFFFD'

/-- The most bytes one character takes. -/
def utfMax : Nat := 4

/-- A byte that is not a continuation byte, so that a sequence could start at it. -/
def runeStart (b : UInt8) : Bool := b &&& 0xC0 != 0x80

/-- The character the bytes start with and the number of bytes it takes. -/
def decodeRune (p : List UInt8) : Char × Nat :=
  match p.toByteArray.utf8DecodeChar? 0 with
  | some c => (c, c.utf8Size)
  | none => (runeError, if p = [] then 0 else 1)

/-- The backward search of `decodeLastRune`. Called with `n`, it looks at index `n - 1`, then
downwards, and answers the first index at or above `lim` that holds a byte that can start a
sequence; once below `lim` it answers where it stopped, and below index 0 it answers 0. -/
def scanBack (p : List UInt8) (lim : Nat) : Nat → Nat
  | 0 => 0
  | i + 1 => if i < lim then i else if runeStart (p.getD i 0) then i else scanBack p lim i

/-- The last character of the bytes and the number of bytes it takes. -/
def decodeLastRune (p : List UInt8) : Char × Nat :=
  match p.getLast? with
  | none => (runeError, 0)
  | some b =>
    if b < 0x80 then (Char.ofNat b.toNat, 1)
    else
      -- the search starts one byte before the last and goes back to `len - utfMax` at most
      let start := scanBack p (p.length - utfMax) (p.length - 1)
      let (r, size) := decodeRune (p.drop start)
      if start + size ≠ p.length then (runeError, 1) else (r, size)

end JobShell.Utf8

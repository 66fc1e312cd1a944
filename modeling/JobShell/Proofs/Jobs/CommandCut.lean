import Mathlib.Tactic.IntervalCases
import JobShell.Jobs.Table

/-!
# Cutting a display text on a character

The job table keeps at most `Table.commandLimit - 1` bytes of a job's display text. It works on
the bytes (`truncateBytes`): a shorter text stays whole; a longer one is cut to
`Table.commandLimit - 1` bytes, and then, while its last character decodes as the one-byte
replacement (`Utf8.decodeLastRune`), one byte is dropped from its end (`trimPartial`).

* Decoding from the end reads back the character some bytes end with, whatever comes before it
  (`decodeLastRune_append_utf8EncodeChar`), and the one-byte replacement exactly when the bytes
  end with no character's encoding (`decodeLastRune_eq_error_iff`); a replacement character
  actually present is three bytes long and stops the loop.
* So the loop keeps the largest cut that is empty or ends on a character (`trimPartial_cut`),
  for any bytes at all, valid UTF-8 or not (`truncateBytes_keeps`).
* A cut of the bytes of some characters ends on a character exactly when it falls after one of
  them (`endsOnChar_take_iff`), and `prefixWithin`, the longest prefix of whole characters
  within a budget, is that cut for a text (`prefixWithin_cut`). The bytes the loop keeps of a
  text are those of its longest prefix that fits, so they read back as text
  (`truncateCommand_eq_prefixWithin`).

The main statement is `truncate_keeps_rune_prefix`.
-/
namespace JobShell

open Utf8

/-! ## The bytes of characters -/

/-- The UTF-8 bytes of a list of characters. -/
def encodeChars (cs : List Char) : List UInt8 := cs.flatMap String.utf8EncodeChar

@[simp] theorem encodeChars_nil : encodeChars [] = [] := rfl

@[simp] theorem encodeChars_cons (c : Char) (cs : List Char) :
    encodeChars (c :: cs) = String.utf8EncodeChar c ++ encodeChars cs := rfl

@[simp] theorem encodeChars_append (cs ds : List Char) :
    encodeChars (cs ++ ds) = encodeChars cs ++ encodeChars ds := by
  simp [encodeChars]

/-- The bytes end with the encoding of a character: a decoder of the last character reads that
character and its size back, and answers the one-byte replacement exactly when there is none. -/
def EndsOnChar (b : List UInt8) : Prop := ∃ pre c, b = pre ++ String.utf8EncodeChar c

/-- An encoding determines its character, whatever follows it: decoding reads it back. -/
theorem utf8EncodeChar_eq_of_append {c d : Char} {x y : List UInt8}
    (same : String.utf8EncodeChar c ++ x = String.utf8EncodeChar d ++ y) : c = d := by
  have decoded := congrArg (fun l : List UInt8 => ByteArray.utf8DecodeChar? l.toByteArray 0) same
  simp only [List.toByteArray_append, ByteArray.utf8DecodeChar?_utf8EncodeChar_append] at decoded
  exact Option.some.inj decoded

theorem not_endsOnChar_nil : ¬ EndsOnChar [] := by
  rintro ⟨pre, c, h⟩
  have lengths := congrArg List.length h
  simp only [List.length_nil, List.length_append, String.length_utf8EncodeChar] at lengths
  have := c.utf8Size_pos
  omega

/-- The encoding of a character starts with a byte that can start one. -/
theorem exists_cons_utf8EncodeChar (c : Char) :
    ∃ b rest, String.utf8EncodeChar c = b :: rest ∧ b.IsUTF8FirstByte := by
  obtain ⟨b, rest, cons⟩ := List.exists_cons_of_ne_nil (String.utf8EncodeChar_ne_nil (c := c))
  refine ⟨b, rest, cons, ?_⟩
  have at_zero : (String.utf8EncodeChar c)[0]? = some b := by rw [cons]; rfl
  obtain ⟨lt, eq⟩ := List.getElem?_eq_some_iff.mp at_zero
  exact eq ▸ UInt8.isUTF8FirstByte_getElem_utf8EncodeChar.mpr rfl

/-- No byte after the first of a character's encoding can start one. -/
theorem eq_nil_of_utf8EncodeChar_eq_append {c : Char} {x rest : List UInt8} {b : UInt8}
    (h : String.utf8EncodeChar c = x ++ b :: rest) (first : b.IsUTF8FirstByte) : x = [] := by
  have at_x : (String.utf8EncodeChar c)[x.length]? = some b := by
    rw [h, List.getElem?_append_right (Nat.le_refl _), Nat.sub_self]
    rfl
  obtain ⟨lt, eq⟩ := List.getElem?_eq_some_iff.mp at_x
  exact List.length_eq_zero_iff.mp (UInt8.isUTF8FirstByte_getElem_utf8EncodeChar.mp (eq ▸ first))

/-- A cut strictly inside a character's encoding ends on no character. -/
theorem not_endsOnChar_take {c : Char} {k : Nat} (inside : k < c.utf8Size) :
    ¬ EndsOnChar ((String.utf8EncodeChar c).take k) := by
  rintro ⟨pre, d, cut⟩
  obtain ⟨b, rest, starts, first⟩ := exists_cons_utf8EncodeChar d
  have whole : String.utf8EncodeChar c = pre ++ b :: (rest ++ (String.utf8EncodeChar c).drop k) :=
    calc String.utf8EncodeChar c
        _ = (String.utf8EncodeChar c).take k ++ (String.utf8EncodeChar c).drop k :=
          (List.take_append_drop k _).symm
        _ = pre ++ b :: (rest ++ (String.utf8EncodeChar c).drop k) := by
          rw [cut, starts, List.append_assoc, List.cons_append]
  have none := eq_nil_of_utf8EncodeChar_eq_append whole first
  subst none
  have same : String.utf8EncodeChar d ++ (String.utf8EncodeChar c).drop k =
      String.utf8EncodeChar c ++ [] := by
    rw [starts]
    simpa using whole.symm
  have lengths := congrArg List.length cut
  rw [utf8EncodeChar_eq_of_append same, List.length_take, String.length_utf8EncodeChar,
    List.nil_append, String.length_utf8EncodeChar] at lengths
  omega

/-- Bytes in front of a character's start do not change whether the bytes end on a character. -/
theorem endsOnChar_append_iff {x rest : List UInt8} {b : UInt8} (first : b.IsUTF8FirstByte) :
    EndsOnChar (x ++ b :: rest) ↔ EndsOnChar (b :: rest) := by
  constructor
  · rintro ⟨pre, d, h⟩
    rcases List.append_eq_append_iff.mp h with ⟨a, rfl, tail⟩ | ⟨c, rfl, enc⟩
    · exact ⟨a, d, tail⟩
    · have none := eq_nil_of_utf8EncodeChar_eq_append enc first
      subst none
      exact ⟨[], d, by simpa using enc.symm⟩
  · rintro ⟨pre, d, h⟩
    exact ⟨x ++ pre, d, by rw [h, List.append_assoc]⟩

@[simp] theorem length_encodeChars_cons (c : Char) (cs : List Char) :
    (encodeChars (c :: cs)).length = c.utf8Size + (encodeChars cs).length := by
  rw [encodeChars_cons, List.length_append, String.length_utf8EncodeChar]

/-- A cut of the bytes of `c :: cs` at a character boundary past `c` is one of `cs` moved by
`c`'s size. -/
theorem boundary_cons_iff (c : Char) (cs : List Char) (j : Nat) :
    (∃ m, 0 < m ∧ m ≤ (c :: cs).length ∧
      (encodeChars ((c :: cs).take m)).length = c.utf8Size + j) ↔
    j = 0 ∨ ∃ m, 0 < m ∧ m ≤ cs.length ∧ (encodeChars (cs.take m)).length = j := by
  constructor
  · rintro ⟨m, pos, le, len⟩
    obtain ⟨m, rfl⟩ : ∃ m', m = m' + 1 := ⟨m - 1, by omega⟩
    rw [List.take_succ_cons, length_encodeChars_cons] at len
    rcases Nat.eq_zero_or_pos m with rfl | pos'
    · left
      simpa using len.symm
    · exact .inr ⟨m, pos', by simpa using le, by omega⟩
  · rintro (rfl | ⟨m, pos, le, len⟩)
    · exact ⟨1, Nat.one_pos, by simp, by simp⟩
    · refine ⟨m + 1, Nat.succ_pos m, by simpa using le, ?_⟩
      rw [List.take_succ_cons, length_encodeChars_cons, len]

/-- A cut of the bytes of a list of characters ends on a character exactly when it falls
after one of them. The induction is on the characters: a cut inside the first character's
encoding ends on none, and a cut past it ends on a character exactly when its part in the
rest does, since the rest starts a character. -/
theorem endsOnChar_take_iff (cs : List Char) {k : Nat} (within : k ≤ (encodeChars cs).length) :
    EndsOnChar ((encodeChars cs).take k) ↔
      ∃ m, 0 < m ∧ m ≤ cs.length ∧ (encodeChars (cs.take m)).length = k := by
  induction cs generalizing k with
  | nil =>
    have zero : k = 0 := by simpa using within
    subst zero
    simp only [encodeChars_nil, List.take_nil, List.length_nil]
    exact iff_of_false not_endsOnChar_nil (by omega)
  | cons c cs ih =>
    rw [length_encodeChars_cons] at within
    rcases Nat.lt_or_ge k c.utf8Size with inside | past
    · -- a cut inside the first character's encoding
      rw [encodeChars_cons, List.take_append_of_le_length (by simpa using Nat.le_of_lt inside)]
      refine iff_of_false (not_endsOnChar_take inside) ?_
      rintro ⟨m, pos, le, len⟩
      obtain ⟨m, rfl⟩ : ∃ m', m = m' + 1 := ⟨m - 1, by omega⟩
      rw [List.take_succ_cons, length_encodeChars_cons] at len
      omega
    · obtain ⟨j, rfl⟩ : ∃ j, k = c.utf8Size + j := ⟨k - c.utf8Size, by omega⟩
      rw [boundary_cons_iff, encodeChars_cons, List.take_append, String.length_utf8EncodeChar,
        Nat.add_sub_cancel_left, List.take_of_length_le (by simp)]
      rcases Nat.eq_zero_or_pos j with rfl | pos
      · exact iff_of_true ⟨[], c, by simp⟩ (.inl rfl)
      · -- a cut past the first character: its part in the rest starts a character
        cases cs with
        | nil => simp at within; omega
        | cons d ds =>
          obtain ⟨b, rest, starts, first⟩ := exists_cons_utf8EncodeChar d
          have cut : (encodeChars (d :: ds)).take j = b :: (rest ++ encodeChars ds).take (j - 1) := by
            obtain ⟨i, rfl⟩ : ∃ i, j = i + 1 := ⟨j - 1, by omega⟩
            rw [encodeChars_cons, starts, List.cons_append, List.take_succ_cons, Nat.add_sub_cancel]
          rw [cut, endsOnChar_append_iff first, ← cut, ih (by omega)]
          simp only [Nat.ne_of_gt pos, false_or]

/-! ## Decoding the last character -/

/-- Bits of a masked byte: bit `i` of `b &&& m` is bit `i` of `b` and of `m`. -/
theorem bit_of_and_eq {b m v : UInt8} (h : b &&& m = v) (i : Nat) (hi : i < 8) :
    (b.toBitVec[i] && m.toBitVec[i]) = v.toBitVec[i] := by
  have := congrArg (fun x : UInt8 => x.toBitVec[i]) h
  simpa [UInt8.toBitVec_and, BitVec.getElem_and] using this

/-- A byte that can start an encoding is no continuation byte. -/
theorem runeStart_of_isUTF8FirstByte {b : UInt8} (first : b.IsUTF8FirstByte) :
    runeStart b = true := by
  simp only [runeStart, bne_iff_ne, ne_eq]
  intro cont
  -- a continuation byte has bit 7 set and bit 6 clear; every first byte has another pattern
  have b7 := bit_of_and_eq cont 7 (by omega)
  have b6 := bit_of_and_eq cont 6 (by omega)
  simp at b7 b6
  rcases first with h | h | h | h
  · have := bit_of_and_eq h 7 (by omega); simp_all
  · have := bit_of_and_eq h 6 (by omega); simp_all
  · have := bit_of_and_eq h 6 (by omega); simp_all
  · have := bit_of_and_eq h 6 (by omega); simp_all

/-- The continuation bytes an encoder writes, six bits under `10`. -/
theorem runeStart_continuation (x : UInt8) : runeStart (x &&& 0x3f ||| 0x80) = false := by
  have mask : (x &&& 0x3f ||| 0x80) &&& 0xc0 = 0x80 := by
    apply UInt8.toBitVec_inj.mp
    simp only [UInt8.toBitVec_and, UInt8.toBitVec_or]
    generalize x.toBitVec = b
    ext i hi
    simp only [BitVec.getElem_and, BitVec.getElem_or]
    interval_cases i <;> simp
  simp [runeStart, mask]

/-- A continuation byte is not below 0x80: its top bit is set. -/
theorem not_lt_of_continuation {b : UInt8} (cont : runeStart b = false) : ¬ b < 0x80 := by
  simp only [runeStart, bne_eq_false_iff_eq] at cont
  intro low
  have masked : (b &&& 0xc0).toNat ≤ b.toNat := by
    rw [UInt8.toNat_and]
    exact Nat.and_le_left
  rw [cont] at masked
  simp only [UInt8.lt_iff_toNat_lt, UInt8.reduceToNat] at low masked
  omega

/-- In the encoding of a character, a sequence can start at the first byte and only there. -/
theorem runeStart_getElem_utf8EncodeChar (c : Char) {i : Nat}
    (hi : i < (String.utf8EncodeChar c).length) :
    runeStart (String.utf8EncodeChar c)[i] = decide (i = 0) := by
  rcases Nat.eq_zero_or_pos i with rfl | pos
  · exact runeStart_of_isUTF8FirstByte (UInt8.isUTF8FirstByte_getElem_utf8EncodeChar.mpr rfl)
  · rw [String.length_utf8EncodeChar] at hi
    simp only [Nat.ne_of_gt pos, decide_false]
    rcases c.utf8Size_eq with one | two | three | four
    · omega
    · simp only [String.utf8EncodeChar_eq_cons_cons two]
      obtain rfl : i = 1 := by omega
      exact runeStart_continuation _
    · simp only [String.utf8EncodeChar_eq_cons_cons_cons three]
      obtain rfl | rfl : i = 1 ∨ i = 2 := by omega
      all_goals exact runeStart_continuation _
    · simp only [String.utf8EncodeChar_eq_cons_cons_cons_cons four]
      obtain rfl | rfl | rfl : i = 1 ∨ i = 2 ∨ i = 3 := by omega
      all_goals exact runeStart_continuation _

/-- The backward search stops at an index `j` it reaches at or above `lim` when `j` holds a
byte that can start a sequence and every byte between `j` and where it starts is a
continuation byte. The induction is on where the search starts. -/
theorem scanBack_eq {p : List UInt8} {lim j : Nat} (n : Nat) (reached : lim ≤ j) (below : j < n)
    (start : runeStart (p.getD j 0) = true)
    (conts : ∀ k, j < k → k < n → runeStart (p.getD k 0) = false) : scanBack p lim n = j := by
  induction n with
  | zero => omega
  | succ i ih =>
    rw [scanBack, if_neg (by omega)]
    rcases Nat.lt_or_ge j i with earlier | here
    · rw [conts i earlier (by omega), if_neg Bool.false_ne_true]
      exact ih earlier fun k after within => conts k after (by omega)
    · obtain rfl : j = i := by omega
      rw [if_pos start]

/-- The search answers an index below where it starts, or 0. -/
theorem scanBack_le (p : List UInt8) (lim n : Nat) : scanBack p lim n ≤ n - 1 := by
  induction n with
  | zero => exact Nat.le_refl 0
  | succ i ih =>
    rw [scanBack]
    split
    · omega
    · split
      · omega
      · omega

theorem decodeRune_utf8EncodeChar_append (c : Char) (rest : List UInt8) :
    decodeRune (String.utf8EncodeChar c ++ rest) = (c, c.utf8Size) := by
  rw [decodeRune, List.toByteArray_append, ByteArray.utf8DecodeChar?_utf8EncodeChar_append]

/-- The first character decodes when the bytes start with its encoding; otherwise the
decoder answers the replacement character, with width 1 for some bytes and 0 for none. -/
theorem decodeRune_cases (p : List UInt8) :
    (∃ c rest, p = String.utf8EncodeChar c ++ rest ∧ decodeRune p = (c, c.utf8Size)) ∨
      decodeRune p = (runeError, if p = [] then 0 else 1) := by
  unfold decodeRune
  split
  · next c decoded =>
    left
    obtain ⟨l, split⟩ := ByteArray.exists_of_utf8DecodeChar?_eq_some decoded
    refine ⟨c, l.data.toList, ?_, rfl⟩
    have := congrArg (fun b : ByteArray => b.data.toList) split
    simpa [ByteArray.toList_data_append] using this
  · right
    rfl

/-- A byte below 0x80 is the encoding of a character of its own. -/
theorem utf8EncodeChar_ofNat {b : UInt8} (ascii : b < 0x80) :
    String.utf8EncodeChar (Char.ofNat b.toNat) = [b] := by
  have small : b.toNat < 128 := by simpa [UInt8.lt_iff_toNat_lt] using ascii
  have valid : b.toNat.isValidChar := by unfold Nat.isValidChar; omega
  have val : (Char.ofNat b.toNat).val.toNat = b.toNat := by
    have aux : Char.ofNat b.toNat = Char.ofNatAux b.toNat valid := dif_pos valid
    rw [aux]
    rfl
  have one : (Char.ofNat b.toNat).utf8Size = 1 :=
    Char.utf8Size_eq_one_iff.mpr (UInt32.le_iff_toNat_le.mpr (by rw [val]; exact Nat.le_of_lt_succ small))
  rw [String.utf8EncodeChar_eq_singleton one, List.singleton_inj]
  apply UInt8.toNat_inj.mp
  rw [UInt32.toNat_toUInt8, val]
  omega

theorem ofNat_toUInt8_of_ascii {c : Char} (one : c.utf8Size = 1) :
    Char.ofNat c.val.toUInt8.toNat = c := by
  have : c.val.toNat ≤ 127 := by
    simpa [UInt32.le_iff_toNat_le] using Char.utf8Size_eq_one_iff.mp one
  have same : c.val.toUInt8.toNat = c.toNat := by
    rw [UInt32.toNat_toUInt8]
    show c.val.toNat % 256 = c.val.toNat
    omega
  rw [same, Char.ofNat_toNat]

/-- Bytes that end with the encoding of a character decode, from the end, to that character
and its size, whatever comes before it. -/
theorem decodeLastRune_append_utf8EncodeChar (pre : List UInt8) (c : Char) :
    decodeLastRune (pre ++ String.utf8EncodeChar c) = (c, c.utf8Size) := by
  rcases c.utf8Size_eq with one | multi
  · -- a one-byte character is its own last byte, below 0x80
    have ascii : c.val.toUInt8 < 0x80 := by
      have small : c.val.toNat ≤ 127 := by
        simpa [UInt32.le_iff_toNat_le] using Char.utf8Size_eq_one_iff.mp one
      rw [UInt8.lt_iff_toNat_lt, UInt32.toNat_toUInt8]
      show c.val.toNat % 256 < 128
      omega
    rw [String.utf8EncodeChar_eq_singleton one, decodeLastRune, List.getLast?_append,
      List.getLast?_singleton, Option.some_or]
    dsimp only
    rw [if_pos ascii, ofNat_toUInt8_of_ascii one, one]
  · -- otherwise the last byte continues a sequence that starts `size` bytes before the end
    have size : 2 ≤ c.utf8Size := by omega
    have bound := c.utf8Size_le_four
    have len : (String.utf8EncodeChar c).length = c.utf8Size := String.length_utf8EncodeChar c
    have total : (pre ++ String.utf8EncodeChar c).length = pre.length + c.utf8Size := by
      rw [List.length_append, len]
    -- a sequence can start at the character's first byte and at none of the others
    have byte : ∀ i, i < c.utf8Size → runeStart ((pre ++ String.utf8EncodeChar c).getD
        (pre.length + i) 0) = decide (i = 0) := by
      intro i hi
      rw [List.getD_eq_getElem?_getD, List.getElem?_append_right (by omega),
        Nat.add_sub_cancel_left, List.getElem?_eq_getElem (by omega), Option.getD_some]
      exact runeStart_getElem_utf8EncodeChar c _
    have lastly : (pre ++ String.utf8EncodeChar c).getLast? =
        some ((pre ++ String.utf8EncodeChar c).getD (pre.length + (c.utf8Size - 1)) 0) := by
      rw [List.getLast?_eq_getElem?, total, List.getD_eq_getElem?_getD,
        show pre.length + c.utf8Size - 1 = pre.length + (c.utf8Size - 1) by omega,
        List.getElem?_eq_getElem (by omega)]
      rfl
    have high : ¬ (pre ++ String.utf8EncodeChar c).getD (pre.length + (c.utf8Size - 1)) 0 < 0x80 :=
      not_lt_of_continuation (by rw [byte _ (by omega), decide_eq_false_iff_not]; omega)
    have start : scanBack (pre ++ String.utf8EncodeChar c)
        ((pre ++ String.utf8EncodeChar c).length - utfMax)
        ((pre ++ String.utf8EncodeChar c).length - 1) = pre.length := by
      rw [total]
      refine scanBack_eq _ (by unfold utfMax; omega) (by omega) ?_ fun k after within => ?_
      · simpa using byte 0 (by omega)
      · obtain ⟨i, rfl⟩ : ∃ i, k = pre.length + i := ⟨k - pre.length, by omega⟩
        simpa [show i ≠ 0 by omega] using byte i (by omega)
    rw [decodeLastRune, lastly]
    dsimp only
    rw [if_neg high, start, List.drop_left, ← List.append_nil (String.utf8EncodeChar c),
      decodeRune_utf8EncodeChar_append, List.append_nil, total, if_neg (by omega)]

theorem utf8Size_runeError : runeError.utf8Size = 3 := by decide

/-- Some bytes either end with a character's encoding or decode, from the end, to the
one-byte replacement. -/
theorem decodeLastRune_cases {p : List UInt8} (nonempty : p ≠ []) :
    decodeLastRune p = (runeError, 1) ∨ EndsOnChar p := by
  obtain ⟨pre, b, rfl⟩ : ∃ pre b, p = pre ++ [b] :=
    ⟨p.dropLast, p.getLast nonempty, (List.dropLast_concat_getLast nonempty).symm⟩
  by_cases ascii : b < 0x80
  · exact .inr ⟨pre, Char.ofNat b.toNat, by rw [utf8EncodeChar_ofNat ascii]⟩
  -- the search stops below the end, so the decoded part is never empty
  have early : scanBack (pre ++ [b]) ((pre ++ [b]).length - utfMax) ((pre ++ [b]).length - 1) <
      (pre ++ [b]).length := by
    have := scanBack_le (pre ++ [b]) ((pre ++ [b]).length - utfMax) ((pre ++ [b]).length - 1)
    simp only [List.length_append, List.length_singleton] at this ⊢
    omega
  rw [decodeLastRune, List.getLast?_append, List.getLast?_singleton, Option.some_or]
  dsimp only
  rw [if_neg ascii]
  generalize scanBack (pre ++ [b]) ((pre ++ [b]).length - utfMax) ((pre ++ [b]).length - 1) =
    start at early ⊢
  generalize pre ++ [b] = p at early ⊢
  have whole := List.take_append_drop start p
  rcases decodeRune_cases (p.drop start) with ⟨c, rest, split, decoded⟩ | refused
  · rw [decoded]
    dsimp only
    split
    · exact .inl rfl
    · next reaches =>
      -- the character ends at the end, so nothing follows it
      have lengths := congrArg List.length split
      simp only [List.length_drop, List.length_append, String.length_utf8EncodeChar] at lengths
      have empty : rest = [] := List.length_eq_zero_iff.mp (by omega)
      rw [empty, List.append_nil] at split
      exact .inr ⟨p.take start, c, by rw [← split, List.take_append_drop]⟩
  · rw [refused]
    dsimp only
    have nonempty : p.drop start ≠ [] := by simp [List.drop_eq_nil_iff]; omega
    rw [if_neg nonempty]
    split
    · exact .inl rfl
    · exact .inl rfl

/-- For some bytes, the last character decodes to the one-byte replacement exactly when the
bytes do not end with a character's encoding. -/
theorem decodeLastRune_eq_error_iff {p : List UInt8} (nonempty : p ≠ []) :
    decodeLastRune p = (runeError, 1) ↔ ¬ EndsOnChar p := by
  constructor
  · rintro refused ⟨pre, c, rfl⟩
    rw [decodeLastRune_append_utf8EncodeChar, Prod.mk.injEq] at refused
    obtain ⟨rfl, one⟩ := refused
    rw [utf8Size_runeError] at one
    cases one
  · intro ends
    exact (decodeLastRune_cases nonempty).resolve_right ends

/-- The trimming loop stops at some bytes exactly when they end with a character's encoding:
a real replacement character in the text is three bytes long. -/
theorem stops_iff {p : List UInt8} (nonempty : p ≠ []) :
    ((decodeLastRune p).1 ≠ runeError ∨ 1 < (decodeLastRune p).2) ↔ EndsOnChar p := by
  rcases decodeLastRune_cases nonempty with refused | ⟨pre, c, rfl⟩
  · have ends := (decodeLastRune_eq_error_iff nonempty).mp refused
    simp only [refused, ne_eq, not_true_eq_false, Nat.lt_irrefl, or_self, ends]
  · refine iff_of_true ?_ ⟨pre, c, rfl⟩
    rw [decodeLastRune_append_utf8EncodeChar]
    by_cases replacement : c = runeError
    · subst replacement
      right
      rw [utf8Size_runeError]
      omega
    · exact .inl replacement

/-! ## The trimming loop -/

/-- The trimming loop keeps the first `k` bytes for the largest `k` that is 0 or after which
the bytes end with a character's encoding. The induction follows the loop: each round either
stops, at bytes that end on a character, or drops a last byte that does not. -/
theorem trimPartial_cut (p : List UInt8) : ∃ k ≤ p.length, trimPartial p = p.take k ∧
    (k = 0 ∨ EndsOnChar (p.take k)) ∧
    ∀ k', k < k' → k' ≤ p.length → ¬ EndsOnChar (p.take k') := by
  fun_induction trimPartial p with
  | case1 =>
    exact ⟨0, Nat.le_refl 0, rfl, .inl rfl, fun k' after within => by simp at within; omega⟩
  | case2 p nonempty stops =>
    refine ⟨p.length, Nat.le_refl _, List.take_length.symm, .inr ?_, fun k' after within => by omega⟩
    rw [List.take_length]
    exact (stops_iff nonempty).mp stops
  | case3 p nonempty goesOn ih =>
    obtain ⟨k, within, trimmed, ends, largest⟩ := ih
    have shorter : p.dropLast = p.take (p.length - 1) := List.dropLast_eq_take
    have lengthDrop : p.dropLast.length = p.length - 1 := List.length_dropLast
    have takeDrop : ∀ m, m ≤ p.length - 1 → p.dropLast.take m = p.take m := by
      intro m le
      rw [shorter, List.take_take, Nat.min_eq_left le]
    rw [lengthDrop] at within largest
    refine ⟨k, by omega, by rw [trimmed, takeDrop k within], ?_, fun k' after le => ?_⟩
    · rwa [takeDrop k within] at ends
    · rcases Nat.lt_or_ge k' p.length with inside | whole
      · rw [← takeDrop k' (by omega)]
        exact largest k' after (by omega)
      · -- the whole bytes end on no character: that is why the loop went on
        obtain rfl : k' = p.length := by omega
        rw [List.take_length]
        exact fun ends => goesOn ((stops_iff nonempty).mpr ends)

/-! ## The longest prefix within a budget -/

/-- The longest prefix of `cs` whose UTF-8 encoding fits in `budget` bytes. -/
def prefixWithin : List Char → Nat → List Char
  | [], _ => []
  | c :: cs, budget =>
    if c.utf8Size ≤ budget then c :: prefixWithin cs (budget - c.utf8Size) else []

theorem prefixWithin_isPrefix (cs : List Char) (budget : Nat) : prefixWithin cs budget <+: cs := by
  induction cs generalizing budget with
  | nil => exact List.nil_prefix
  | cons c cs ih =>
    rw [prefixWithin]
    split
    · exact (List.prefix_cons_inj c).mpr (ih _)
    · exact List.nil_prefix

theorem prefixWithin_fits (cs : List Char) (budget : Nat) :
    (encodeChars (prefixWithin cs budget)).length ≤ budget := by
  induction cs generalizing budget with
  | nil => simp [prefixWithin]
  | cons c cs ih =>
    rw [prefixWithin]
    split
    · have rest := ih (budget - c.utf8Size)
      rw [length_encodeChars_cons]
      omega
    · simp

/-- Every prefix that fits in the budget is at most as long as the one `prefixWithin` takes. -/
theorem le_length_prefixWithin (cs : List Char) (budget : Nat) {m : Nat}
    (fits : (encodeChars (cs.take m)).length ≤ budget) : min m cs.length ≤ (prefixWithin cs budget).length := by
  induction cs generalizing budget m with
  | nil => simp
  | cons c cs ih =>
    rcases m with _ | m
    · simp
    · rw [List.take_succ_cons, length_encodeChars_cons] at fits
      rw [prefixWithin, if_pos (by omega), List.length_cons, List.length_cons]
      have rest := ih (budget - c.utf8Size) (m := m) (by omega)
      omega

/-! ## The bytes of a text -/

/-- The UTF-8 bytes of a text. -/
def textBytes (s : String) : List UInt8 := s.toByteArray.data.toList

theorem textBytes_ofList (cs : List Char) : textBytes (String.ofList cs) = encodeChars cs := by
  simp [textBytes, String.toByteArray_ofList, List.utf8Encode, encodeChars]

theorem textBytes_eq (s : String) : textBytes s = encodeChars s.toList := by
  conv => lhs; rw [← String.ofList_toList (s := s)]
  exact textBytes_ofList _

theorem utf8ByteSize_eq_length (s : String) : s.utf8ByteSize = (encodeChars s.toList).length := by
  rw [← textBytes_eq, textBytes, Array.length_toList, ByteArray.size_data, String.size_toByteArray]

theorem encodeChars_isPrefix {cs ds : List Char} (pre : cs <+: ds) : encodeChars cs <+: encodeChars ds := by
  obtain ⟨rest, rfl⟩ := pre
  exact ⟨encodeChars rest, (encodeChars_append _ _).symm⟩

/-- The bytes of the first `m` characters are the bytes cut where they end. -/
theorem encodeChars_take (cs : List Char) (m : Nat) :
    encodeChars (cs.take m) = (encodeChars cs).take (encodeChars (cs.take m)).length := by
  rw [show encodeChars cs = encodeChars (cs.take m) ++ encodeChars (cs.drop m) by
    rw [← encodeChars_append, List.take_append_drop], List.take_append_length]

/-- One more character adds its own size. -/
theorem length_encodeChars_take_succ {cs : List Char} {m : Nat} (inside : m < cs.length) :
    (encodeChars (cs.take (m + 1))).length = (encodeChars (cs.take m)).length + cs[m].utf8Size := by
  rw [List.take_add_one, encodeChars_append, List.length_append, List.getElem?_eq_getElem inside]
  simp

/-- A text cut as the job table cuts it: its bytes are the first `k` bytes of `s`, where `k` is
the largest cut of at most `limit` bytes that is empty or ends on a whole character. Cutting a
text, that is the longest prefix of whole characters within `limit` bytes, and it falls short
of the limit by less than the largest size of a character. -/
structure CutOnChar (s t : String) (limit k : Nat) : Prop where
  bytes : textBytes t = (textBytes s).take k
  within : k ≤ limit
  ends : k = 0 ∨ EndsOnChar ((textBytes s).take k)
  largest : ∀ k', k < k' → k' ≤ limit → ¬ EndsOnChar ((textBytes s).take k')
  chars : t.toList <+: s.toList
  longest : ∀ u : String, u.toList <+: s.toList → u.utf8ByteSize ≤ limit → u.utf8ByteSize ≤ k
  near : limit - 3 ≤ k

/-- How the job table stores a display text `s` as `t`. -/
structure StoresCommand (s t : String) : Prop where
  /-- A text shorter than the limit is kept whole. -/
  short : s.utf8ByteSize < Table.commandLimit → t = s
  /-- A longer one is cut on a character within one byte less than the limit. -/
  long : Table.commandLimit ≤ s.utf8ByteSize → ∃ k, CutOnChar s t (Table.commandLimit - 1) k

/-- `prefixWithin` cuts a text that does not fit in the budget at the largest cut of its bytes,
within the budget, that ends on a character. -/
theorem prefixWithin_cut (s : String) {budget : Nat} (long : budget < s.utf8ByteSize) :
    CutOnChar s (String.ofList (prefixWithin s.toList budget)) budget
      (encodeChars (prefixWithin s.toList budget)).length := by
  rw [utf8ByteSize_eq_length] at long
  have pre := prefixWithin_isPrefix s.toList budget
  have taken : prefixWithin s.toList budget =
      s.toList.take (prefixWithin s.toList budget).length := List.prefix_iff_eq_take.mp pre
  have fits := prefixWithin_fits s.toList budget
  -- every cut after whole characters that fits is at most the one taken
  have maximal : ∀ m, (encodeChars (s.toList.take m)).length ≤ budget →
      (encodeChars (s.toList.take m)).length ≤ (encodeChars (prefixWithin s.toList budget)).length := by
    intro m fitsAt
    have shorter : s.toList.take m <+: prefixWithin s.toList budget := by
      rw [List.take_eq_take_min, taken]
      exact List.take_prefix_take_left (le_length_prefixWithin s.toList budget fitsAt)
    exact (encodeChars_isPrefix shorter).length_le
  refine ⟨?_, fits, ?_, ?_, ?_, ?_, ?_⟩
  · rw [textBytes_ofList, textBytes_eq]
    conv => lhs; rw [taken]
    rw [encodeChars_take, ← taken]
  · rcases Nat.eq_zero_or_pos (prefixWithin s.toList budget).length with empty | pos
    · left
      rw [List.length_eq_zero_iff.mp empty, encodeChars_nil, List.length_nil]
    · right
      rw [textBytes_eq, endsOnChar_take_iff s.toList (by omega)]
      exact ⟨_, pos, pre.length_le, by rw [← taken]⟩
  · intro k' after within ends
    rw [textBytes_eq, endsOnChar_take_iff s.toList (by omega)] at ends
    obtain ⟨m, -, -, len⟩ := ends
    have := maximal m (by omega)
    omega
  · rw [String.toList_ofList]
    exact pre
  · intro u chars fitsU
    rw [utf8ByteSize_eq_length, List.prefix_iff_eq_take.mp chars] at fitsU ⊢
    exact maximal _ fitsU
  · -- the next character does not fit, and it has at most four bytes
    have short : (prefixWithin s.toList budget).length < s.toList.length := by
      refine Nat.lt_of_le_of_ne pre.length_le fun same => ?_
      rw [pre.eq_of_length same] at fits
      omega
    have next := length_encodeChars_take_succ short
    have size := s.toList[(prefixWithin s.toList budget).length].utf8Size_le_four
    have pos := s.toList[(prefixWithin s.toList budget).length].utf8Size_pos
    rw [← taken] at next
    have beyond : budget < (encodeChars (s.toList.take ((prefixWithin s.toList budget).length + 1))).length := by
      refine Nat.lt_of_not_le fun fitsNext => ?_
      have := maximal _ fitsNext
      omega
    omega

/-! ## The stored bytes -/

/-- The loop on the bytes of a display text keeps the first `k` bytes for the largest `k`
within one byte less than the limit that is 0 or after which the bytes end on a character. -/
theorem truncateBytes_cut (p : List UInt8) (long : Table.commandLimit ≤ p.length) :
    ∃ k ≤ Table.commandLimit - 1, truncateBytes p = p.take k ∧
      (k = 0 ∨ EndsOnChar (p.take k)) ∧
      ∀ k', k < k' → k' ≤ Table.commandLimit - 1 → ¬ EndsOnChar (p.take k') := by
  have cut : (p.take (Table.commandLimit - 1)).length = Table.commandLimit - 1 := by
    rw [List.length_take]
    omega
  have takeCut : ∀ m, m ≤ Table.commandLimit - 1 → (p.take (Table.commandLimit - 1)).take m = p.take m := by
    intro m le
    rw [List.take_take, Nat.min_eq_left le]
  obtain ⟨k, within, trimmed, ends, largest⟩ := trimPartial_cut (p.take (Table.commandLimit - 1))
  rw [cut] at within largest
  refine ⟨k, within, ?_, ?_, fun k' after le => ?_⟩
  · rw [truncateBytes, if_neg (Nat.not_lt.mpr long), trimmed, takeCut k within]
  · rwa [takeCut k within] at ends
  · rw [← takeCut k' le]
    exact largest k' after le

/-- What the table keeps of the bytes `p` of a display text, as `q`, in the terms of the
decoder the loop calls: everything below the limit; otherwise the first `k` bytes, for the
largest `k` within one byte less than the limit that is 0 or after which the last character
decodes to something other than the one-byte replacement. -/
structure KeepsRunePrefix (p q : List UInt8) : Prop where
  short : p.length < Table.commandLimit → q = p
  long : Table.commandLimit ≤ p.length → ∃ k ≤ Table.commandLimit - 1, q = p.take k ∧
    (k = 0 ∨ decodeLastRune (p.take k) ≠ (runeError, 1)) ∧
    ∀ k', k < k' → k' ≤ Table.commandLimit - 1 → decodeLastRune (p.take k') = (runeError, 1)

theorem truncateBytes_keeps (p : List UInt8) : KeepsRunePrefix p (truncateBytes p) where
  short fits := by rw [truncateBytes, if_pos fits]
  long long := by
    obtain ⟨k, within, trimmed, ends, largest⟩ := truncateBytes_cut p long
    -- a cut of at least one byte keeps some bytes, where decoding and ending on a character agree
    have someBytes : ∀ m, 0 < m → m ≤ Table.commandLimit - 1 → p.take m ≠ [] := by
      intro m pos le empty
      have lengths := congrArg List.length empty
      rw [List.length_take, List.length_nil] at lengths
      unfold Table.commandLimit at long le
      omega
    refine ⟨k, within, trimmed, ?_, fun k' after le => ?_⟩
    · rcases Nat.eq_zero_or_pos k with zero | pos
      · exact .inl zero
      · exact .inr fun refused =>
          (decodeLastRune_eq_error_iff (someBytes k pos within)).mp refused (ends.resolve_left (by omega))
    · exact (decodeLastRune_eq_error_iff (someBytes k' (by omega) le)).mpr (largest k' after le)

theorem length_textBytes (s : String) : (textBytes s).length = s.utf8ByteSize := by
  rw [textBytes_eq, utf8ByteSize_eq_length]

/-- On the bytes of a text longer than the limit, the loop keeps the bytes of the longest
prefix of whole characters that fits: both cuts are the largest one that ends on a
character. -/
theorem truncateBytes_textBytes (s : String) (long : Table.commandLimit ≤ s.utf8ByteSize) :
    truncateBytes (textBytes s) =
      textBytes (String.ofList (prefixWithin s.toList (Table.commandLimit - 1))) := by
  have chars := prefixWithin_cut s (show Table.commandLimit - 1 < s.utf8ByteSize by
    unfold Table.commandLimit at long ⊢; omega)
  obtain ⟨k, within, trimmed, ends, largest⟩ :=
    truncateBytes_cut (textBytes s) (by rw [length_textBytes]; exact long)
  have same : k = (encodeChars (prefixWithin s.toList (Table.commandLimit - 1))).length := by
    rcases Nat.lt_trichotomy k (encodeChars (prefixWithin s.toList (Table.commandLimit - 1))).length
      with shorter | same | longer
    · exact absurd (chars.ends.resolve_left (by omega)) (largest _ shorter chars.within)
    · exact same
    · exact absurd (ends.resolve_left (by omega)) (chars.largest k longer within)
  rw [trimmed, chars.bytes, same]

theorem toByteArray_textBytes (t : String) : (textBytes t).toByteArray = t.toByteArray := by
  apply ByteArray.ext
  rw [List.data_toByteArray, textBytes, Array.toArray_toList]

/-- A text's own bytes read back as that text. -/
theorem fromUTF8_toByteArray (t : String) : String.fromUTF8! t.toByteArray = t := by
  rw [String.fromUTF8!, dif_pos t.isValidUTF8]
  rfl

/-- The stored text is the longest prefix of whole characters that fits, below the limit the
text itself. -/
theorem truncateCommand_eq_prefixWithin (s : String) : truncateCommand s =
    if s.utf8ByteSize < Table.commandLimit then s
    else String.ofList (prefixWithin s.toList (Table.commandLimit - 1)) := by
  unfold truncateCommand
  split
  · rfl
  · next long =>
    change String.fromUTF8! (truncateBytes (textBytes s)).toByteArray = _
    rw [truncateBytes_textBytes s (Nat.not_lt.mp long), toByteArray_textBytes,
      fromUTF8_toByteArray]


/-- The job table stores a display text whole below its limit, and otherwise cut at the
largest cut within one byte less than the limit that ends on a character. -/
theorem truncateCommand_stores (s : String) : StoresCommand s (truncateCommand s) where
  short fits := by rw [truncateCommand_eq_prefixWithin, if_pos fits]
  long long := ⟨_, by
    rw [truncateCommand_eq_prefixWithin, if_neg (Nat.not_lt.mpr long)]
    exact prefixWithin_cut s (by unfold Table.commandLimit at long ⊢; omega)⟩

/-- The bytes of the stored text are what the loop keeps of the text's bytes. -/
theorem textBytes_truncateCommand (s : String) :
    textBytes (truncateCommand s) = truncateBytes (textBytes s) := by
  rw [truncateCommand_eq_prefixWithin]
  split
  · next short => rw [truncateBytes, if_pos (by rw [length_textBytes]; exact short)]
  · next long => rw [truncateBytes_textBytes s (Nat.not_lt.mp long)]

/-- The job table cuts a display text on its bytes, valid UTF-8 or not: below the limit it
keeps it whole, and otherwise keeps the first `k` bytes for the largest `k` within one byte less
than the limit that is 0 or after which the last character decodes to something other than the
one-byte replacement. On the bytes of a text that cut is the stored text's bytes, and the stored
text is the longest prefix of whole characters within the limit, less than four bytes short of
it. -/
theorem truncate_keeps_rune_prefix :
    (∀ p : List UInt8, KeepsRunePrefix p (truncateBytes p)) ∧
    ∀ s : String, textBytes (truncateCommand s) = truncateBytes (textBytes s) ∧
      StoresCommand s (truncateCommand s) :=
  ⟨truncateBytes_keeps, fun s => ⟨textBytes_truncateCommand s, truncateCommand_stores s⟩⟩

end JobShell

import JobShell.Json.Decode

/-!
# Compact JSON text reads back

The reader inverts the compact writer: reading `v.compact html` gives `v` back, whatever the
escaping mode, for every value whose numbers are decimal integers (`JsonValue.Integral`), the
only numbers the job table writes (`JsonValue.read_compact`). Integer literals read back as
64-bit integers exactly when they fit (`JsonDecode.int64?_toString`).

The proof goes up from characters: each escaped character is read back by the string reader
(`stringBody_escapeChar`), a decimal integer is one number token (`number_toString`), and a
value with its text followed by a delimiter is read in full with any fuel above the text's
length (`value_compact`).
-/
namespace JobShell

namespace JsonText

theorem hex4_toList {n : Nat} (small : n < 65536) :
    (hex4 n).toList = [Nat.digitChar (n / 4096 % 16), Nat.digitChar (n / 256 % 16),
      Nat.digitChar (n / 16 % 16), Nat.digitChar (n % 16)] := by
  unfold hex4
  simp only [String.toList_ofList]
  have split16 : ∀ m, 16 ≤ m →
      Nat.toDigits 16 m = Nat.toDigits 16 (m / 16) ++ [Nat.digitChar (m % 16)] :=
    fun m large => Nat.toDigits_of_base_le (by decide) large
  -- the digits Nat.toDigits writes, padded with zeros to four
  by_cases one : n < 16
  · rw [Nat.toDigits_of_lt_base one, show n / 4096 % 16 = 0 by omega,
      show n / 256 % 16 = 0 by omega, show n / 16 % 16 = 0 by omega, Nat.mod_eq_of_lt one]
    rfl
  by_cases two : n < 256
  · rw [split16 n (by omega), Nat.toDigits_of_lt_base (by omega : n / 16 < 16),
      show n / 4096 % 16 = 0 by omega, show n / 256 % 16 = 0 by omega,
      show n / 16 % 16 = n / 16 by omega]
    rfl
  by_cases three : n < 4096
  · rw [split16 n (by omega), split16 (n / 16) (by omega),
      Nat.toDigits_of_lt_base (by omega : n / 16 / 16 < 16),
      show n / 4096 % 16 = 0 by omega, show n / 256 % 16 = n / 16 / 16 by omega]
    rfl
  · rw [split16 n (by omega), split16 (n / 16) (by omega), split16 (n / 16 / 16) (by omega),
      Nat.toDigits_of_lt_base (by omega : n / 16 / 16 / 16 < 16),
      show n / 4096 % 16 = n / 16 / 16 / 16 by omega,
      show n / 256 % 16 = n / 16 / 16 % 16 by omega]
    rfl

theorem toList_quote (html : Bool) (s : String) :
    (quote html s).toList =
      '"' :: s.toList.flatMap (fun c => (escapeChar html c).toList) ++ ['"'] := by
  simp [quote, List.flatMap_map]

end JsonText

namespace JsonRead

theorem hexValue_digitChar : ∀ d < 16, hexValue (Nat.digitChar d) = some d := by decide

/-- Four hex digits as `JsonText.hex4` writes them read back as the code. -/
theorem hex4?_hex4 {n : Nat} (small : n < 65536) :
    ∃ a b c d, (JsonText.hex4 n).toList = [a, b, c, d] ∧ hex4? a b c d = some n := by
  refine ⟨_, _, _, _, JsonText.hex4_toList small, ?_⟩
  simp only [hex4?, hexValue_digitChar _ (Nat.mod_lt _ (by decide : 16 > 0)),
    Option.bind_eq_bind, Option.bind_some, Option.pure_def]
  congr 1
  omega

theorem stringBody_unicode (acc rest : List Char) (c : Char) (below : c.toNat < 0xD800) :
    stringBody acc (("\\u" ++ JsonText.hex4 c.toNat).toList ++ rest) =
      stringBody (c :: acc) rest := by
  obtain ⟨a, b, d, e, digits, read⟩ := hex4?_hex4 (n := c.toNat) (by omega)
  simp only [String.toList_append, digits, show "\\u".toList = ['\\', 'u'] from rfl,
    List.cons_append, List.nil_append]
  rw [stringBody.eq_3, read]
  simp only [show ¬ (55296 ≤ c.toNat) by omega, decide_false, Bool.false_and,
    Bool.false_eq_true, if_false, Char.ofNat_toNat]

theorem stringBody_simpleEscape (acc rest : List Char) {e ch : Char} (not_u : e ≠ 'u')
    (escape : simpleEscape e = some ch) :
    stringBody acc ('\\' :: e :: rest) = stringBody (ch :: acc) rest := by
  rw [stringBody.eq_5 _ _ _ (fun _ _ _ _ _ is_u => absurd is_u not_u) not_u, escape]

theorem stringBody_plain (acc rest : List Char) {c : Char} (not_quote : c ≠ '"')
    (not_backslash : c ≠ '\\') (printable : 32 ≤ c.toNat) :
    stringBody acc (c :: rest) = stringBody (c :: acc) rest := by
  rw [stringBody.eq_7 _ _ _ not_quote (fun _ _ _ _ _ is => absurd is not_backslash)
    (fun _ is => absurd is not_backslash) (fun _ _ is => absurd is not_backslash)
    (fun is => absurd is not_backslash), if_neg (by omega)]

/-- The string reader takes back one escaped character, in either escaping mode. -/
theorem stringBody_escapeChar (html : Bool) (c : Char) (acc rest : List Char) :
    stringBody acc ((JsonText.escapeChar html c).toList ++ rest) = stringBody (c :: acc) rest := by
  unfold JsonText.escapeChar
  split
  · exact stringBody_simpleEscape acc rest (by decide) rfl
  · exact stringBody_simpleEscape acc rest (by decide) rfl
  · exact stringBody_simpleEscape acc rest (by decide) rfl
  · exact stringBody_simpleEscape acc rest (by decide) rfl
  · exact stringBody_simpleEscape acc rest (by decide) rfl
  · exact stringBody_simpleEscape acc rest (by decide) rfl
  · exact stringBody_simpleEscape acc rest (by decide) rfl
  · rename_i not_quote not_backslash _ _ _ _ _
    split
    · exact stringBody_unicode acc rest c (by omega)
    split
    · rename_i html_char
      apply stringBody_unicode acc rest c
      simp only [Bool.and_eq_true, Bool.or_eq_true, beq_iff_eq] at html_char
      -- `<`, `>`, `&` and the two separators all lie below the surrogates
      rcases html_char.2 with (((less | greater) | amp) | sep) | sep
      all_goals first | (subst_vars; decide) | omega
    · rename_i control _
      simp only [Char.toString, String.toList_singleton, List.singleton_append]
      exact stringBody_plain acc rest not_quote not_backslash (by omega)

theorem stringBody_quoted (html : Bool) (cs acc rest : List Char) :
    stringBody acc (cs.flatMap (fun c => (JsonText.escapeChar html c).toList) ++ '"' :: rest) =
      .ok (String.ofList (acc.reverse ++ cs), rest) := by
  induction cs generalizing acc with
  | nil => rw [List.flatMap_nil, List.nil_append, stringBody.eq_2, List.append_nil]
  | cons c cs ih =>
    rw [List.flatMap_cons, List.append_assoc, stringBody_escapeChar, ih]
    simp

/-! ## Integers -/

theorem isDigit_eq (c : Char) : isDigit c = c.isDigit := by
  simp [isDigit, Char.isDigit, Char.le_def]

/-- What may follow a value in compact text: the end, a comma or a closing bracket. -/
def Delimited : List Char → Prop
  | [] => True
  | c :: _ => c = ',' ∨ c = ']' ∨ c = '}'

theorem digitRun_append {ds rest : List Char} (digits : ∀ d ∈ ds, isDigit d)
    (delimited : Delimited rest) : digitRun (ds ++ rest) = (ds, rest) := by
  induction ds with
  | nil =>
    cases rest with
    | nil => rfl
    | cons c cs =>
      have stop : isDigit c = false := by
        rcases delimited with rfl | rfl | rfl <;> rfl
      simp [digitRun, stop]
  | cons d ds ih =>
    simp [digitRun, digits d (by simp), ih (fun x member => digits x (by simp [member]))]

theorem numberTail_delimited {rest : List Char} (delimited : Delimited rest) :
    numberTail rest = .ok ([], rest) := by
  cases rest with
  | nil => rfl
  | cons c cs => rcases delimited with rfl | rfl | rfl <;> rfl

theorem toDigits_head (m : Nat) (positive : 0 < m) :
    ∃ d ds, Nat.toDigits 10 m = d :: ds ∧ d ≠ '0' := by
  induction m using Nat.strongRecOn with
  | ind m ih =>
    by_cases small : m < 10
    · rw [Nat.toDigits_of_lt_base small]
      have leading : ∀ k < 10, 0 < k → Nat.digitChar k ≠ '0' := by decide
      exact ⟨_, [], rfl, leading m small positive⟩
    · obtain ⟨d, ds, digits, nonzero⟩ := ih (m / 10) (by omega) (by omega)
      rw [Nat.toDigits_of_base_le (by decide) (by omega), digits]
      exact ⟨d, ds ++ _, rfl, nonzero⟩

theorem digits_isDigit (m : Nat) : ∀ d ∈ Nat.toDigits 10 m, isDigit d := fun d member => by
  rw [isDigit_eq]
  exact Nat.isDigit_of_mem_toDigits (by decide) (by decide) member

/-- The digits of a natural number after an optional minus sign are one number token. -/
theorem number_digits (sign : List Char) (signs : sign = [] ∨ sign = ['-']) (m : Nat)
    {rest : List Char} (delimited : Delimited rest) :
    number (sign ++ Nat.toDigits 10 m ++ rest) =
      .ok (String.ofList (sign ++ Nat.toDigits 10 m), rest) := by
  by_cases zero : m = 0
  · subst zero
    rcases signs with rfl | rfl <;>
      simp [number, Nat.toDigits_zero, numberTail_delimited delimited]
  · obtain ⟨d, ds, digits, nonzero⟩ := toDigits_head m (by omega)
    have digit : isDigit d := digits_isDigit m d (by simp [digits])
    have not_minus : d ≠ '-' := fun minus => by subst minus; contradiction
    have run : digitRun (d :: (ds ++ rest)) = (d :: ds, rest) := by
      have := @digitRun_append (d :: ds) rest (digits ▸ digits_isDigit m) delimited
      simpa using this
    rw [digits]
    rcases signs with rfl | rfl
    · simp [number, nonzero, not_minus, digit, run, numberTail_delimited delimited]
    · simp [number, nonzero, digit, run, numberTail_delimited delimited]

theorem toList_toString_int (n : Int) :
    (toString n).toList =
      (if 0 ≤ n then [] else ['-']) ++ Nat.toDigits 10 n.natAbs := by
  rw [Int.toString_eq_repr, Int.repr_eq_if]
  by_cases nonneg : 0 ≤ n
  · simp only [nonneg, if_true, Nat.toList_repr, List.nil_append]
    congr 1
    omega
  · simp only [nonneg, if_false, String.toList_append, Nat.toList_repr]
    congr 2
    omega

/-- Folding the decimal digits of a number from the left gives the number back. -/
theorem foldl_toDigits (m : Nat) :
    (Nat.toDigits 10 m).foldl (fun acc c => acc * 10 + (c.toNat - '0'.toNat)) 0 = m := by
  have := Nat.ofDigitChars_ten_toDigits (n := m)
  simp only [Nat.ofDigitChars] at this
  rw [← this]
  congr
  funext acc c
  rw [Nat.mul_comm]

/-- A decimal integer is read as one number token with its own text. -/
theorem number_toString (n : Int) {rest : List Char} (delimited : Delimited rest) :
    number ((toString n).toList ++ rest) = .ok (toString n, rest) := by
  have signs : (if 0 ≤ n then [] else ['-']) = ([] : List Char) ∨
      (if 0 ≤ n then [] else ['-']) = ['-'] := by
    by_cases nonneg : 0 ≤ n <;> simp [nonneg]
  rw [toList_toString_int, number_digits _ signs n.natAbs delimited, ← toList_toString_int,
    String.ofList_toList]

/-! ## Values -/

theorem skipBlanks_cons {c : Char} (not_blank : isBlank c = false) (cs : List Char) :
    skipBlanks (c :: cs) = c :: cs := by
  simp [skipBlanks, not_blank]

theorem isBlank_of_numeric {c : Char} (numeric : c = '-' ∨ isDigit c) : isBlank c = false := by
  cases blank : isBlank c
  · rfl
  · simp only [isBlank, Bool.or_eq_true, beq_iff_eq] at blank
    rcases blank with ((rfl | rfl) | rfl) | rfl <;> simp [isDigit] at numeric

theorem value_number (fuel : Nat) {c : Char} (cs : List Char) (numeric : c = '-' ∨ isDigit c) :
    value (fuel + 1) (c :: cs) = (number (c :: cs)).map fun (n, r) => (.number n, r) := by
  rw [value, skipBlanks_cons (isBlank_of_numeric numeric)]
  split
  · rename_i same; cases same
  -- each reserved first character is no digit
  iterate 6 (rename_i same; injection same with head; subst head; simp [isDigit] at numeric)
  rename_i same
  injection same with head tail
  subst head tail
  have taken : (c == '-' || isDigit c) = true := by
    rcases numeric with rfl | digit <;> simp [*]
  rw [if_pos taken]

end JsonRead

namespace JsonValue

open JsonRead

/-- Every number of the value is a decimal integer, as `JsonValue.ofInt` writes it. -/
inductive Integral : JsonValue → Prop
  | null : Integral .null
  | bool (b : Bool) : Integral (.bool b)
  | int (n : Int) : Integral (.ofInt n)
  | string (s : String) : Integral (.string s)
  | array {items : List JsonValue} : (∀ x ∈ items, Integral x) → Integral (.array items)
  | object {members : List (String × JsonValue)} :
      (∀ m ∈ members, Integral m.2) → Integral (.object members)

theorem compact_array (html : Bool) (items : List JsonValue) :
    (JsonValue.array items).compact html =
      "[" ++ ",".intercalate (items.map (compact html)) ++ "]" := by
  rw [compact]
  simp

theorem compact_object (html : Bool) (members : List (String × JsonValue)) :
    (JsonValue.object members).compact html =
      "\x7b" ++ ",".intercalate (members.map fun m =>
        JsonText.quote html m.1 ++ ":" ++ compact html m.2) ++ "\x7d" := by
  rw [compact]
  simp only [List.map_attach_eq_pmap, List.pmap_eq_map]

/-- The compact text of a value starts with a character that opens a value, and read with
any fuel above its length and followed by a delimiter it gives the value back. -/
def ReadsBack (html : Bool) (v : JsonValue) : Prop :=
  (∃ c cs, (v.compact html).toList = c :: cs ∧ isBlank c = false ∧ c ≠ ']' ∧ c ≠ '\x7d') ∧
  ∀ fuel rest, (v.compact html).length < fuel → Delimited rest →
    value fuel ((v.compact html).toList ++ rest) = .ok (v, rest)

/-- What follows the first of comma-joined texts that a `close` character ends: the close,
or a comma and the other texts. -/
def joinedAfter (ys : List String) (close : Char) (rest : List Char) : List Char :=
  match ys with
  | [] => close :: rest
  | _ :: _ => ',' :: ((",".intercalate ys).toList ++ close :: rest)

theorem joined_cons (x : String) (ys : List String) (close : Char) (rest : List Char) :
    (",".intercalate (x :: ys)).toList ++ close :: rest =
      x.toList ++ joinedAfter ys close rest := by
  cases ys with
  | nil => simp [joinedAfter]
  | cons y zs => simp [joinedAfter, String.intercalate_cons_cons]

theorem joined_cons_length (x : String) (ys : List String) (close : Char) :
    (",".intercalate (x :: ys)).length + 1 = x.length + (joinedAfter ys close []).length := by
  have lengths := congrArg List.length (joined_cons x ys close [])
  simp only [List.length_append, String.length_toList, List.length_singleton] at lengths
  exact lengths

theorem joinedAfter_delimited (ys : List String) {close : Char} (rest : List Char)
    (closing : close = ']' ∨ close = '\x7d') : Delimited (joinedAfter ys close rest) := by
  cases ys with
  | nil => exact Or.inr closing
  | cons y zs => exact Or.inl rfl

/-- The items of a non-empty array after its `[`, each read back, then the closing bracket. -/
theorem items_joined (html : Bool) {xs : List JsonValue} (each : ∀ x ∈ xs, ReadsBack html x)
    (nonempty : xs ≠ []) :
    ∀ fuel acc first rest, (",".intercalate (xs.map (compact html))).length + 1 < fuel →
      Delimited rest →
      items fuel acc first ((",".intercalate (xs.map (compact html))).toList ++ ']' :: rest) =
        .ok (.array (acc.reverse ++ xs), rest) := by
  induction xs with
  | nil => exact absurd rfl nonempty
  | cons x ys ih =>
    intro fuel acc first rest long delimited
    obtain ⟨f, rfl⟩ : ∃ f, fuel = f + 1 := ⟨fuel - 1, by omega⟩
    obtain ⟨⟨c, cs, starts, not_blank, not_close, -⟩, reads⟩ := each x (by simp)
    rw [List.map_cons, joined_cons_length _ _ ']'] at long
    have item_length : (x.compact html).length < f := by
      cases ys <;> simp [joinedAfter] at long <;> omega
    rw [List.map_cons, joined_cons, items, starts, List.cons_append, skipBlanks_cons not_blank]
    split
    · rename_i same; cases same
    · rename_i same; injection same with head; exact absurd head not_close
    rw [← List.cons_append, ← starts,
      reads f _ item_length (joinedAfter_delimited _ rest (.inl rfl))]
    cases ys with
    | nil =>
      simp only [List.map_nil, joinedAfter, skipBlanks_cons (c := ']') rfl]
      simp
    | cons y zs =>
      have rest_long : (",".intercalate ((y :: zs).map (compact html))).length + 1 < f := by
        simp only [List.map_cons, joinedAfter, List.length_cons, List.length_append,
          String.length_toList, List.length_nil] at long ⊢
        omega
      simp only [List.map_cons, joinedAfter, skipBlanks_cons (c := ',') rfl]
      show items f (x :: acc) false _ = _
      rw [← List.map_cons, ih (fun z member => each z (by simp [member])) (by simp) f (x :: acc)
        false rest rest_long delimited]
      simp

/-- The members of a non-empty object after its opening brace, each key quoted and each value
read back, then the closing brace, whatever follows it. -/
theorem members_joined (html : Bool) {ms : List (String × JsonValue)}
    (each : ∀ m ∈ ms, ReadsBack html m.2) (nonempty : ms ≠ []) :
    ∀ fuel acc first rest,
      (",".intercalate (ms.map fun m => JsonText.quote html m.1 ++ ":" ++ compact html m.2)).length
        + 1 < fuel →
      members fuel acc first
        ((",".intercalate (ms.map fun m => JsonText.quote html m.1 ++ ":" ++
          compact html m.2)).toList ++ '\x7d' :: rest) =
        .ok (.object (acc.reverse ++ ms), rest) := by
  induction ms with
  | nil => exact absurd rfl nonempty
  | cons m ys ih =>
    intro fuel acc first rest long
    obtain ⟨f, rfl⟩ : ∃ f, fuel = f + 1 := ⟨fuel - 1, by omega⟩
    obtain ⟨key, v⟩ := m
    have reads := (each (key, v) (by simp)).2
    let body := key.toList.flatMap (fun c => (JsonText.escapeChar html c).toList)
    have member_text : (JsonText.quote html key ++ ":" ++ compact html v).toList =
        '"' :: (body ++ '"' :: ':' :: (v.compact html).toList) := by
      simp [body, JsonText.toList_quote]
    have quoted : 2 ≤ (JsonText.quote html key).length := by
      rw [← String.length_toList, JsonText.toList_quote]
      simp
    rw [List.map_cons, joined_cons_length _ _ '\x7d'] at long
    have value_length : (v.compact html).length < f := by
      have colon : ":".length = 1 := rfl
      simp only [String.length_append] at long
      cases ys <;> simp [joinedAfter] at long <;> omega
    have key_read :
        ∀ tail, stringBody [] (body ++ '"' :: ':' :: tail) = .ok (key, ':' :: tail) := by
      intro tail
      rw [stringBody_quoted]
      simp
    rw [List.map_cons, joined_cons, member_text, members]
    simp only [List.cons_append, List.append_assoc, skipBlanks_cons (c := '"') rfl, key_read,
      skipBlanks_cons (c := ':') rfl,
      reads f _ value_length (joinedAfter_delimited _ rest (.inr rfl))]
    cases ys with
    | nil =>
      simp only [List.map_nil, joinedAfter, skipBlanks_cons (c := '\x7d') rfl]
      simp
    | cons y zs =>
      have rest_long : (",".intercalate ((y :: zs).map fun m => JsonText.quote html m.1 ++ ":" ++
          compact html m.2)).length + 1 < f := by
        simp only [List.map_cons, joinedAfter, List.length_cons, List.length_append,
          String.length_toList, List.length_nil] at long ⊢
        omega
      simp only [List.map_cons, joinedAfter, skipBlanks_cons (c := ',') rfl]
      have next := ih (fun z member => each z (by simp [member])) (by simp) f ((key, v) :: acc)
        false rest rest_long
      simp only [List.map_cons] at next
      rw [next]
      simp

theorem isDigit_head_toString (n : Int) :
    ∃ c cs, (toString n).toList = c :: cs ∧ (c = '-' ∨ isDigit c) := by
  rw [toList_toString_int]
  by_cases nonneg : 0 ≤ n
  · simp only [nonneg, if_true, List.nil_append]
    obtain ⟨c, cs, digits⟩ : ∃ c cs, Nat.toDigits 10 n.natAbs = c :: cs :=
      List.exists_cons_of_ne_nil Nat.toDigits_ne_nil
    exact ⟨c, cs, digits, Or.inr (digits_isDigit n.natAbs c (by simp [digits]))⟩
  · simp only [nonneg, if_false, List.cons_append, List.nil_append]
    exact ⟨'-', _, rfl, Or.inl rfl⟩

/-- A value reads back when its compact text opens with a character that starts a value and
the reader, one step of fuel spent on that character, reads the rest. -/
private theorem ReadsBack.of_text {html : Bool} {v : JsonValue} {c : Char} {cs : List Char}
    (text : (v.compact html).toList = c :: cs)
    (opens : isBlank c = false ∧ c ≠ ']' ∧ c ≠ '\x7d')
    (reads : ∀ f rest, cs.length < f → Delimited rest →
      value (f + 1) (c :: (cs ++ rest)) = .ok (v, rest)) :
    ReadsBack html v := by
  refine ⟨⟨c, cs, text, opens⟩, fun fuel rest long delimited => ?_⟩
  have length : (v.compact html).length = cs.length + 1 := by
    rw [← String.length_toList, text, List.length_cons]
  obtain ⟨f, rfl⟩ : ∃ f, fuel = f + 1 := ⟨fuel - 1, by omega⟩
  rw [text, List.cons_append]
  exact reads f rest (by omega) delimited

theorem toList_compact_object (html : Bool) (ms : List (String × JsonValue)) :
    ((JsonValue.object ms).compact html).toList =
      '\x7b' :: ((",".intercalate (ms.map fun m => JsonText.quote html m.1 ++ ":" ++
        compact html m.2)).toList ++ ['\x7d']) := by
  simp [compact_object]

/-- An object whose member values read back is read back whatever follows it: the reader
stops at the closing brace. -/
theorem value_object {html : Bool} {ms : List (String × JsonValue)}
    (each : ∀ m ∈ ms, ReadsBack html m.2) (fuel : Nat) (rest : List Char)
    (long : ((JsonValue.object ms).compact html).length < fuel) :
    value fuel (((JsonValue.object ms).compact html).toList ++ rest) = .ok (.object ms, rest) := by
  rw [← String.length_toList, toList_compact_object, List.length_cons] at long
  obtain ⟨f, rfl⟩ : ∃ f, fuel = f + 1 := ⟨fuel - 1, by omega⟩
  rw [toList_compact_object, List.cons_append, value, skipBlanks_cons (c := '\x7b') rfl,
    List.append_assoc]
  by_cases empty : ms = []
  · subst empty
    obtain ⟨g, rfl⟩ : ∃ g, f = g + 1 := ⟨f - 1, by simp at long; omega⟩
    simp [members, skipBlanks_cons (c := '\x7d') rfl]
  · have inner : (",".intercalate (ms.map fun m => JsonText.quote html m.1 ++ ":" ++
        compact html m.2)).length + 1 < f := by
      rw [List.length_append, String.length_toList, List.length_singleton] at long
      omega
    simpa using members_joined html each empty f [] true rest inner

/-- Every value whose numbers are integers reads back from its compact text. -/
theorem readsBack {v : JsonValue} (integral : v.Integral) (html : Bool) : ReadsBack html v := by
  induction integral with
  | null =>
    exact ReadsBack.of_text (show _ = 'n' :: "ull".toList by simp [compact])
      ⟨rfl, by decide, by decide⟩ fun _ _ _ _ => rfl
  | bool b =>
    cases b
    · exact ReadsBack.of_text (show _ = 'f' :: "alse".toList by simp [compact])
        ⟨rfl, by decide, by decide⟩ fun _ _ _ _ => rfl
    · exact ReadsBack.of_text (show _ = 't' :: "rue".toList by simp [compact])
        ⟨rfl, by decide, by decide⟩ fun _ _ _ _ => rfl
  | int n =>
    obtain ⟨c, cs, head, numeric⟩ := isDigit_head_toString n
    have text : ((JsonValue.ofInt n).compact html).toList = (toString n).toList := by
      simp [ofInt, compact]
    refine ReadsBack.of_text (text.trans head) ⟨isBlank_of_numeric numeric, ?_, ?_⟩
      fun f rest _ delimited => ?_
    · rintro rfl; simp [isDigit] at numeric
    · rintro rfl; simp [isDigit] at numeric
    rw [value_number f _ numeric, ← List.cons_append, ← head, number_toString n delimited]
    rfl
  | string s =>
    have text : ((JsonValue.string s).compact html).toList =
        '"' :: (s.toList.flatMap (fun c => (JsonText.escapeChar html c).toList) ++ ['"']) := by
      simp only [compact, JsonText.toList_quote, List.cons_append]
    refine ReadsBack.of_text text ⟨rfl, by decide, by decide⟩ fun f rest _ _ => ?_
    rw [value, skipBlanks_cons (c := '"') rfl]
    simp [stringBody_quoted, Except.map]
  | array each ih =>
    rename_i items
    have text : ((JsonValue.array items).compact html).toList =
        '[' :: ((",".intercalate (items.map (compact html))).toList ++ [']']) := by
      simp [compact_array]
    refine ReadsBack.of_text text ⟨rfl, by decide, by decide⟩ fun f rest long delimited => ?_
    rw [value, skipBlanks_cons (c := '[') rfl, List.append_assoc]
    by_cases empty : items = []
    · subst empty
      obtain ⟨g, rfl⟩ : ∃ g, f = g + 1 := ⟨f - 1, by simp at long; omega⟩
      simp [items, skipBlanks_cons (c := ']') rfl]
    · have inner : (",".intercalate (items.map (compact html))).length + 1 < f := by
        rwa [List.length_append, String.length_toList, List.length_singleton] at long
      simpa using items_joined html ih empty f [] true rest inner delimited
  | object each ih =>
    rename_i ms
    refine ReadsBack.of_text (toList_compact_object html ms) ⟨rfl, by decide, by decide⟩
      fun f rest long _ => ?_
    rw [← List.cons_append, ← toList_compact_object]
    exact value_object ih (f + 1) rest (by
      rw [← String.length_toList, toList_compact_object, List.length_cons]; omega)

/-- Reading the compact text of a value with integer numbers gives the value back. -/
theorem read_compact {v : JsonValue} (integral : v.Integral) (html : Bool) :
    JsonValue.read (v.compact html) = .ok v := by
  unfold JsonValue.read
  have reads := (readsBack integral html).2 ((v.compact html).toList.length + 1) []
    (by rw [String.length_toList]; omega) trivial
  rw [List.append_nil] at reads
  simp only [reads]
  rfl

end JsonValue

namespace JsonDecode

/-- An integer written in decimal reads back as itself exactly when it fits in 64 bits. -/
theorem int64?_toString (n : Int) :
    int64? (toString n) =
      if -9223372036854775808 ≤ n ∧ n < 9223372036854775808 then some n else none := by
  obtain ⟨c, cs, head⟩ : ∃ c cs, Nat.toDigits 10 n.natAbs = c :: cs :=
    List.exists_cons_of_ne_nil Nat.toDigits_ne_nil
  have digit : JsonRead.isDigit c := JsonRead.digits_isDigit n.natAbs c (by simp [head])
  have digits_ok : (c :: cs).all isDigitChar = true := by
    rw [List.all_eq_true, ← head]
    intro d member
    have := JsonRead.digits_isDigit n.natAbs d member
    simpa [JsonRead.isDigit, isDigitChar] using this
  have value : (c :: cs).foldl (fun acc c => acc * 10 + (c.toNat - '0'.toNat)) 0 = n.natAbs := by
    rw [← head, JsonRead.foldl_toDigits]
  unfold int64?
  rw [JsonRead.toList_toString_int, head]
  by_cases nonneg : 0 ≤ n
  · simp only [nonneg, if_true, List.nil_append]
    split
    · -- a natural number's digits never start with a minus sign
      rename_i same
      injection same with minus
      subst minus
      simp [JsonRead.isDigit] at digit
    · have natural : ((n.natAbs : Nat) : Int) = n := by omega
      simp only [List.isEmpty_cons, digits_ok, value, natural, Bool.not_true, Bool.or_false,
        Bool.false_eq_true, if_false]
      by_cases fits : -9223372036854775808 ≤ n ∧ n < 9223372036854775808
      · rw [if_pos fits, if_neg (by simp only [Bool.or_eq_true, decide_eq_true_eq]; omega)]
      · rw [if_neg fits, if_pos (by simp only [Bool.or_eq_true, decide_eq_true_eq]; omega)]
  · have negative : -((n.natAbs : Nat) : Int) = n := by omega
    simp only [nonneg, if_false, List.cons_append, List.nil_append, List.isEmpty_cons, digits_ok,
      value, negative, Bool.not_true, Bool.or_false, Bool.false_eq_true, if_false, if_true]
    by_cases fits : -9223372036854775808 ≤ n ∧ n < 9223372036854775808
    · rw [if_pos fits, if_neg (by simp only [Bool.or_eq_true, decide_eq_true_eq]; omega)]
    · rw [if_neg fits, if_pos (by simp only [Bool.or_eq_true, decide_eq_true_eq]; omega)]

end JsonDecode

end JobShell

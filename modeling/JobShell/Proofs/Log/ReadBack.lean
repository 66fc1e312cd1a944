import JobShell.Proofs.Log.Lawful
import JobShell.Proofs.Num.IntegerText

/-!
# The shell's own JSON form of a record

The shell's own `Protojson` follows the library's rules (`Protojson.builtin_lawful`). An entry
whose values are texts, flags and integers of magnitude at most `2^53`, each name at most once,
is written as the compact text of a JSON object with its members sorted, and read back as those
sorted members.

Two readers see each line. The stream reader checks it as JSON and finds where it ends:
the line is the compact text of a JSON object, which `JsonValue.value_object` reads whatever
follows it. The record reader then tokenizes the same text again; its strings, numerals and
words come back token by token, and its members by induction on the fields.
-/
namespace JobShell.Log

open JobShell.Num

theorem toList_toString_nat (m : Nat) : (toString m).toList = Nat.toDigits 10 m :=
  Nat.toList_repr

/-- An integer up to `2^53` in magnitude is written in a log line as its numeral. -/
theorem numberText_ofInt {n : Int} (small : n.natAbs ≤ 2 ^ 53) :
    numberText (Value.ofInt n) = toString n := by
  rw [Value.ofInt_exact small]
  show formatJson _ = _
  by_cases zero : n = 0
  · subst zero
    rw [Int.natAbs_zero, Nat.zero_mul]
    rfl
  · rw [formatJson_int (Int.natAbs_pos.mpr zero) small]
    apply String.toList_inj.mp
    rw [String.toList_append, JsonRead.toList_toString_int, toList_toString_nat]
    by_cases negative : n < 0
    · simp [negative, show ¬ 0 ≤ n by omega]
    · simp [negative, show 0 ≤ n by omega]

/-! ## The line as JSON -/

theorem intercalate_comma_cons (x : String) (xs : List String) :
    ",".intercalate (x :: xs) = x ++ String.join (xs.map fun y => "," ++ y) := by
  induction xs generalizing x with
  | nil => simp
  | cons y ys ih => rw [String.intercalate_cons_cons, ih]; simp [String.append_assoc]

/-- A scalar is written as the compact text of a JSON value with an integer number. -/
theorem LogValue.Scalar.render_compact {v : LogValue} (scalar : v.Scalar) :
    ∃ j : JsonValue, j.Integral ∧ v.render = j.compact false := by
  cases scalar with
  | string s => exact ⟨.string s, .string s, by simp [LogValue.render, JsonValue.compact]⟩
  | bool b => exact ⟨.bool b, .bool b, by simp [LogValue.render, JsonValue.compact]⟩
  | @int n small =>
    exact ⟨.ofInt n, .int n, by
      simp [LogValue.ofInt, LogValue.render, numberText_ofInt small, JsonValue.ofInt,
        JsonValue.compact]⟩

/-- Fields of scalars are written as the members of a JSON object: comma-joined for the
first field, each after a comma for the others. -/
theorem renderFields_compact {fs : List (String × LogValue)} (scalar : ∀ f ∈ fs, f.2.Scalar) :
    ∃ ms : List (String × JsonValue), (∀ m ∈ ms, m.2.Integral) ∧
      LogValue.renderFields true fs =
        ",".intercalate (ms.map fun m => JsonText.quote false m.1 ++ ":" ++ m.2.compact false) ∧
      LogValue.renderFields false fs =
        String.join (ms.map fun m => "," ++ (JsonText.quote false m.1 ++ ":" ++ m.2.compact false)) := by
  induction fs with
  | nil => exact ⟨[], by simp, by simp [LogValue.renderFields], by simp [LogValue.renderFields]⟩
  | cons f rest ih =>
    obtain ⟨j, integral, text⟩ := (scalar f (by simp)).render_compact
    obtain ⟨ms, each, first, later⟩ := ih fun g member => scalar g (by simp [member])
    refine ⟨(f.1, j) :: ms, ?_, ?_, ?_⟩
    · simp only [List.mem_cons, forall_eq_or_imp]
      exact ⟨integral, each⟩
    · rw [LogValue.renderFields, later, text, List.map_cons, intercalate_comma_cons, List.map_map]
      simp [Function.comp_def, String.append_assoc]
    · rw [LogValue.renderFields, later, text, List.map_cons, String.join_cons]
      simp [String.append_assoc]

/-- The text of a record of scalars is the compact text of a JSON object of integer values. -/
theorem render_struct_compact {fs : List (String × LogValue)} (scalar : ∀ f ∈ fs, f.2.Scalar) :
    ∃ ms : List (String × JsonValue), (∀ m ∈ ms, m.2.Integral) ∧
      LogValue.render (.struct fs) = (JsonValue.object ms).compact false := by
  obtain ⟨ms, each, first, -⟩ := renderFields_compact scalar
  exact ⟨ms, each, by rw [LogValue.render, first, JsonValue.compact_object]⟩

/-! ## Strings -/

theorem stringBody_unicode (start : Nat) (acc rest : List Char) (c : Char)
    (below : c.toNat < 0xD800) :
    stringBody start acc (("\\u" ++ JsonText.hex4 c.toNat).toList ++ rest) =
      stringBody start (c :: acc) rest := by
  obtain ⟨a, b, d, e, digits, read⟩ := JsonRead.hex4?_hex4 (n := c.toNat) (by omega)
  simp only [String.toList_append, digits, show "\\u".toList = ['\\', 'u'] from rfl,
    List.cons_append, List.nil_append]
  rw [stringBody.eq_3, read]
  simp only [show ¬ (55296 ≤ c.toNat) by omega, decide_false, Bool.false_and,
    Bool.false_eq_true, if_false, Char.ofNat_toNat]

theorem stringBody_simpleEscape (start : Nat) (acc rest : List Char) {e ch : Char}
    (not_u : e ≠ 'u') (escape : JsonRead.simpleEscape e = some ch) :
    stringBody start acc ('\\' :: e :: rest) = stringBody start (ch :: acc) rest := by
  rw [stringBody.eq_4 _ _ _ _ (fun _ _ _ _ _ is_u => absurd is_u not_u), escape]

theorem stringBody_plain (start : Nat) (acc rest : List Char) {c : Char} (not_quote : c ≠ '"')
    (not_backslash : c ≠ '\\') :
    stringBody start acc (c :: rest) = stringBody start (c :: acc) rest :=
  stringBody.eq_6 _ _ _ _ not_quote (fun _ _ _ _ _ is => absurd is not_backslash)
    (fun _ _ is => absurd is not_backslash) (fun is => absurd is not_backslash)

/-- The record reader takes back one escaped character, in either escaping mode. -/
theorem stringBody_escapeChar (html : Bool) (c : Char) (start : Nat) (acc rest : List Char) :
    stringBody start acc ((JsonText.escapeChar html c).toList ++ rest) =
      stringBody start (c :: acc) rest := by
  unfold JsonText.escapeChar
  split
  · exact stringBody_simpleEscape start acc rest (by decide) rfl
  · exact stringBody_simpleEscape start acc rest (by decide) rfl
  · exact stringBody_simpleEscape start acc rest (by decide) rfl
  · exact stringBody_simpleEscape start acc rest (by decide) rfl
  · exact stringBody_simpleEscape start acc rest (by decide) rfl
  · exact stringBody_simpleEscape start acc rest (by decide) rfl
  · exact stringBody_simpleEscape start acc rest (by decide) rfl
  · rename_i not_quote not_backslash _ _ _ _ _
    split
    · exact stringBody_unicode start acc rest c (by omega)
    split
    · rename_i html_char
      apply stringBody_unicode start acc rest c
      simp only [Bool.and_eq_true, Bool.or_eq_true, beq_iff_eq] at html_char
      -- `<`, `>`, `&` and the two separators all lie below the surrogates
      rcases html_char.2 with (((less | greater) | amp) | sep) | sep
      all_goals first | (subst_vars; decide) | omega
    · simp only [Char.toString, String.toList_singleton, List.singleton_append]
      exact stringBody_plain start acc rest not_quote not_backslash

theorem stringBody_quoted (html : Bool) (cs : List Char) (start : Nat) (acc rest : List Char) :
    stringBody start acc
        (cs.flatMap (fun c => (JsonText.escapeChar html c).toList) ++ '"' :: rest) =
      .ok (String.ofList (acc.reverse ++ cs), rest) := by
  induction cs generalizing acc with
  | nil => rw [List.flatMap_nil, List.nil_append, stringBody.eq_2, List.append_nil]
  | cons c cs ih =>
    rw [List.flatMap_cons, List.append_assoc, stringBody_escapeChar, ih]
    simp

/-! ## Tokens -/

/-- A character that starts a token of a written entry: a quote, a brace, the first letter
of `true` or `false`, or the first character of a numeral. -/
def TokenStart (ch : Char) : Prop :=
  ch = '"' ∨ ch = '\x7b' ∨ ch = '\x7d' ∨ ch = 't' ∨ ch = 'f' ∨ ch = '-' ∨ ch.isDigit

theorem TokenStart.not_skipped {ch : Char} (start : TokenStart ch) :
    (ch == ' ' || ch == '\t' || ch == '\n' || ch == '\r' || ch == ',' || ch == ':') = false := by
  rcases start with rfl | rfl | rfl | rfl | rfl | rfl | digit
  any_goals rfl
  cases skipped : (ch == ' ' || ch == '\t' || ch == '\n' || ch == '\r' || ch == ',' || ch == ':')
  · rfl
  · simp only [Bool.or_eq_true, beq_iff_eq] at skipped
    rcases skipped with (((((rfl | rfl) | rfl) | rfl) | rfl) | rfl) <;> simp at digit

/-- Skipping stops at once before a token. -/
theorem skip_of_start {c : Cursor} {ch : Char} {cs : List Char} (rest : c.rest = ch :: cs)
    (start : TokenStart ch) : c.skip = c := by
  obtain ⟨r, p⟩ := c
  subst rest
  simp [Cursor.skip, start.not_skipped]

/-- Skipping passes one separator before a token. -/
theorem skip_sep {c : Cursor} {s ch : Char} {cs : List Char} (rest : c.rest = s :: ch :: cs)
    (sep : s = ',' ∨ s = ':') (start : TokenStart ch) : c.skip.rest = ch :: cs := by
  obtain ⟨r, p⟩ := c
  subst rest
  rcases sep with rfl | rfl <;> simp [Cursor.skip, start.not_skipped]

theorem nextToken_open {c : Cursor} {more : List Char} (h : c.skip.rest = '\x7b' :: more) :
    ∃ raw start c', nextToken c = .ok (.open_ '\x7b', raw, start, c') ∧ c'.rest = more := by
  unfold nextToken
  simp only [h]
  exact ⟨_, _, _, rfl, rfl⟩

theorem nextToken_close {c : Cursor} {more : List Char} (h : c.skip.rest = '\x7d' :: more) :
    ∃ raw start c', nextToken c = .ok (.close '\x7d', raw, start, c') ∧ c'.rest = more := by
  unfold nextToken
  simp only [h]
  exact ⟨_, _, _, rfl, rfl⟩

/-- A quoted text is one string token. -/
theorem nextToken_string {c : Cursor} (s : String) {tail : List Char}
    (h : c.skip.rest = (JsonText.quote false s).toList ++ tail) :
    ∃ raw start c', nextToken c = .ok (.str s, raw, start, c') ∧ c'.rest = tail := by
  rw [JsonText.toList_quote, List.append_assoc, List.singleton_append] at h
  have body := stringBody_quoted false s.toList c.skip.pos [] tail
  rw [List.reverse_nil, List.nil_append, String.ofList_toList] at body
  unfold nextToken
  simp [h, body]

/-- A word is read up to the delimiter after it. -/
theorem takeWhile_word {w tail : List Char}
    (inWord : ∀ x ∈ w, (x.isAlphanum || x == '-' || x == '+' || x == '.') = true)
    (ends : JsonRead.Delimited tail) :
    (w ++ tail).takeWhile (fun x => x.isAlphanum || x == '-' || x == '+' || x == '.') = w := by
  rw [List.takeWhile_append_of_pos inWord]
  cases tail with
  | nil => simp
  | cons t ts =>
    rcases ends with rfl | rfl | rfl <;> simp

theorem nextToken_bool {c : Cursor} (b : Bool) {tail : List Char}
    (h : c.skip.rest = (if b then "true" else "false").toList ++ tail)
    (ends : JsonRead.Delimited tail) :
    ∃ raw start c', nextToken c = .ok (.lit (.bool b), raw, start, c') ∧ c'.rest = tail := by
  cases b
  · have word := takeWhile_word (w := "false".toList) (by simp) ends
    simp only [Bool.false_eq_true, if_false] at h
    unfold nextToken
    simp only [h, word]
    simp
  · have word := takeWhile_word (w := "true".toList) (by simp) ends
    simp only [if_true] at h
    unfold nextToken
    simp only [h, word]
    simp

theorem numeral_inWord (n : Int) :
    ∀ x ∈ (toString n).toList, (x.isAlphanum || x == '-' || x == '+' || x == '.') = true := by
  intro x member
  rw [JsonRead.toList_toString_int, List.mem_append] at member
  rcases member with sign | digit
  · split at sign <;> simp_all
  · have := Nat.isDigit_of_mem_toDigits (by decide) (by decide) digit
    simp [Char.isAlphanum, this]

/-- A numeral is one number token, the double nearest it. -/
theorem nextToken_int {c : Cursor} (n : Int) {tail : List Char}
    (h : c.skip.rest = (toString n).toList ++ tail) (ends : JsonRead.Delimited tail) :
    ∃ raw start c', nextToken c = .ok (.num (Value.ofInt n), raw, start, c') ∧ c'.rest = tail := by
  obtain ⟨ch, cs, head, numeric⟩ := JsonValue.isDigit_head_toString n
  have word := takeWhile_word (numeral_inWord n) ends
  have text : String.ofList (ch :: cs) = toString n := by rw [← head, String.ofList_toList]
  rw [head, List.cons_append] at h word
  -- the numeral starts with a minus sign or a digit, neither a bracket, a quote nor a letter
  have bounds : 45 ≤ ch.toNat ∧ ch.toNat ≤ 57 := by
    rcases numeric with rfl | digit
    · decide
    · simp [JsonRead.isDigit, Char.le_def, UInt32.le_iff_toNat_le] at digit
      change 48 ≤ ch.toNat ∧ ch.toNat ≤ 57 at digit
      omega
  have other : ∀ d : Char, (d.toNat < 45 ∨ 57 < d.toNat) → (ch == d) = false := by
    intro d far
    refine beq_eq_false_iff_ne.mpr fun same => ?_
    have := congrArg Char.toNat same
    omega
  have not_word : ∀ w : String, w.toList.head? = some 'n' ∨ w.toList.head? = some 't' ∨
      w.toList.head? = some 'f' → (toString n == w) = false := by
    intro w heads
    refine beq_eq_false_iff_ne.mpr fun same => ?_
    rw [← same, head, List.head?_cons] at heads
    simp only [Option.some.injEq] at heads
    rcases heads with rfl | rfl | rfl <;> simp at bounds
  unfold nextToken
  simp only [h, word, text, other '\x7b' (by decide), other '[' (by decide),
    other '\x7d' (by decide), other ']' (by decide), other '"' (by decide), Bool.or_false,
    Bool.false_eq_true, if_false, not_word "null" (by decide), not_word "true" (by decide),
    not_word "false" (by decide), Value.ofText?_toString]
  exact ⟨_, _, _, rfl, by simp⟩

/-! ## Records -/

/-- The text of a scalar starts a token. -/
theorem LogValue.Scalar.render_start {v : LogValue} (scalar : v.Scalar) :
    ∃ ch cs, v.render.toList = ch :: cs ∧ TokenStart ch := by
  cases scalar with
  | string s =>
    exact ⟨'"', s.toList.flatMap (fun c => (JsonText.escapeChar false c).toList) ++ ['"'],
      by rw [LogValue.render, JsonText.toList_quote, List.cons_append], Or.inl rfl⟩
  | bool b =>
    cases b
    · exact ⟨'f', ['a', 'l', 's', 'e'], by simp [LogValue.render], by simp [TokenStart]⟩
    · exact ⟨'t', ['r', 'u', 'e'], by simp [LogValue.render], by simp [TokenStart]⟩
  | @int n small =>
    obtain ⟨ch, cs, head, numeric⟩ := JsonValue.isDigit_head_toString n
    refine ⟨ch, cs, by rw [LogValue.ofInt, LogValue.render, numberText_ofInt small, head], ?_⟩
    rcases numeric with minus | digit
    · exact .inr (.inr (.inr (.inr (.inr (.inl minus)))))
    · exact .inr (.inr (.inr (.inr (.inr (.inr (by rwa [← JsonRead.isDigit_eq]))))))

/-- A scalar is read back as itself, up to the delimiter after it. -/
theorem readValue_scalar {v : LogValue} (scalar : v.Scalar) (fuel : Nat) {c : Cursor}
    {tail : List Char} (h : c.skip.rest = v.render.toList ++ tail)
    (ends : JsonRead.Delimited tail) :
    ∃ c', readValue (fuel + 1) c = .ok (v, c') ∧ c'.rest = tail := by
  cases scalar with
  | string s =>
    obtain ⟨raw, start, c', token, rest⟩ := nextToken_string s (by simpa [LogValue.render] using h)
    exact ⟨c', by rw [readValue, token]; rfl, rest⟩
  | bool b =>
    obtain ⟨raw, start, c', token, rest⟩ := nextToken_bool b (by simpa [LogValue.render] using h) ends
    exact ⟨c', by rw [readValue, token]; rfl, rest⟩
  | @int n small =>
    rw [LogValue.ofInt, LogValue.render, numberText_ofInt small] at h
    obtain ⟨raw, start, c', token, rest⟩ := nextToken_int n h ends
    refine ⟨c', ?_, rest⟩
    rw [readValue, token, LogValue.ofInt]
    -- name the double, so that its magnitude is never evaluated
    have finite := Value.ofInt_exact small
    generalize Value.ofInt n = v at finite ⊢
    subst finite
    rfl

theorem delimited_renderFields (fs : List (String × LogValue)) (tail : List Char) :
    JsonRead.Delimited ((LogValue.renderFields false fs).toList ++ '\x7d' :: tail) := by
  cases fs with
  | nil => exact Or.inr (Or.inr rfl)
  | cons f rest => simp [LogValue.renderFields, JsonRead.Delimited]

/-- The members of a record of scalars with new names, each after a comma but the first, are
read back in order up to the closing brace. -/
theorem readMembers_fields {fs : List (String × LogValue)} (scalar : ∀ f ∈ fs, f.2.Scalar) :
    ∀ (fuel : Nat) (acc : Entry) (first : Bool) (c : Cursor) (tail : List Char),
      fs.length < fuel → ((acc ++ fs).map (·.1)).Nodup →
      c.rest = (LogValue.renderFields first fs).toList ++ '\x7d' :: tail →
      ∃ c', readMembers fuel acc c = .ok (acc ++ fs, c') ∧ c'.rest = tail := by
  induction fs with
  | nil =>
    intro fuel acc first c tail long _ text
    obtain ⟨n, rfl⟩ : ∃ n, fuel = n + 1 := ⟨fuel - 1, by simp at long; omega⟩
    simp only [LogValue.renderFields, String.toList_empty, List.nil_append] at text
    obtain ⟨raw, start, c', token, rest⟩ :=
      nextToken_close (by rw [skip_of_start text (Or.inr (Or.inr (Or.inl rfl)))]; exact text)
    refine ⟨c', ?_, rest⟩
    rw [readMembers, token, List.append_nil]
    rfl
  | cons f rest ih =>
    intro fuel acc first c tail long distinct text
    obtain ⟨n, rfl⟩ : ∃ n, fuel = n + 2 := ⟨fuel - 2, by simp at long; omega⟩
    obtain ⟨key, v⟩ := f
    have value_scalar : v.Scalar := scalar (key, v) (by simp)
    obtain ⟨ch, cs, value_head, value_start⟩ := value_scalar.render_start
    obtain ⟨qs, quoted⟩ : ∃ qs, (JsonText.quote false key).toList = '"' :: qs :=
      ⟨_, by rw [JsonText.toList_quote, List.cons_append]⟩
    -- what follows the key: a colon, the value, the other members and the closing brace
    generalize after_def : ':' :: ((v.render).toList ++
      ((LogValue.renderFields false rest).toList ++ '\x7d' :: tail)) = after
    have key_text : c.skip.rest = (JsonText.quote false key).toList ++ after := by
      rw [LogValue.renderFields] at text
      simp only [String.toList_append, List.append_assoc, quoted] at text
      rw [quoted, List.cons_append, ← after_def]
      cases first
      · exact skip_sep (by simpa using text) (.inl rfl) (Or.inl rfl)
      · simp only [if_true, String.toList_empty, List.nil_append] at text
        rw [skip_of_start (by simpa using text) (Or.inl rfl)]
        simpa using text
    obtain ⟨raw, start, c₁, key_token, key_rest⟩ := nextToken_string key key_text
    have value_text : c₁.skip.rest =
        v.render.toList ++ ((LogValue.renderFields false rest).toList ++ '\x7d' :: tail) := by
      rw [value_head] at after_def ⊢
      exact skip_sep (by rw [key_rest, ← after_def]; rfl) (.inr rfl) value_start
    obtain ⟨c₂, value_read, value_rest⟩ :=
      readValue_scalar value_scalar n value_text (delimited_renderFields rest tail)
    have fresh : acc.any (·.1 == key) = false := by
      rw [List.map_append, List.nodup_append] at distinct
      simp only [List.any_eq_false, beq_iff_eq]
      intro f member same
      exact distinct.2.2 f.1 (List.mem_map_of_mem member) key (by simp) same
    obtain ⟨c₃, members_read, members_rest⟩ :=
      ih (fun f member => scalar f (by simp [member])) (n + 1) (acc ++ [(key, v)]) false c₂ tail
        (by simp at long; omega) (by simpa using distinct) value_rest
    refine ⟨c₃, ?_, members_rest⟩
    rw [readMembers, key_token]
    simp only [bind, Except.bind, fresh, Bool.false_eq_true, if_false, value_read, members_read]
    simp

theorem length_le_renderFields (first : Bool) (fs : List (String × LogValue)) :
    fs.length ≤ (LogValue.renderFields first fs).length := by
  induction fs generalizing first with
  | nil => simp
  | cons f rest ih =>
    have quoted : 2 ≤ (JsonText.quote false f.1).length := by
      rw [← String.length_toList, JsonText.toList_quote]
      simp
    have := ih false
    simp only [LogValue.renderFields, String.length_append, List.length_cons]
    omega

/-- A record of scalars with distinct names is read back as its fields, in order. -/
theorem readEntry_render {fs : Entry} (plain : fs.Plain) :
    readEntry (LogValue.render (.struct fs)).toList = .ok fs := by
  have text : (LogValue.render (.struct fs)).toList =
      '\x7b' :: ((LogValue.renderFields true fs).toList ++ ['\x7d']) := by
    simp [LogValue.render]
  obtain ⟨raw, start, c, opening, inside⟩ :=
    nextToken_open (c := { rest := (LogValue.render (.struct fs)).toList, pos := 0 })
      (by rw [skip_of_start text (Or.inr (Or.inl rfl))]; exact text)
  have long : fs.length < (LogValue.render (.struct fs)).toList.length + 1 := by
    have := length_le_renderFields true fs
    rw [text, List.length_cons, List.length_append, String.length_toList]
    omega
  obtain ⟨c', members, -⟩ := readMembers_fields plain.scalar _ [] true c [] long
    (by simpa using plain.names_nodup) inside
  rw [readEntry, opening]
  simp only [bind, Except.bind, members, List.nil_append]
  rfl

/-! ## Sorted fields -/

theorem sortFields_perm (e : Entry) : (sortFields e).Perm e := List.mergeSort_perm _ _

theorem Entry.Plain.sortFields {e : Entry} (plain : e.Plain) : Entry.Plain (sortFields e) where
  names_nodup := ((sortFields_perm e).map _).nodup_iff.mpr plain.names_nodup
  scalar f member := plain.scalar f ((sortFields_perm e).mem_iff.mp member)

/-- With distinct names, a field's value is the one paired with its name. -/
theorem Entry.get_of_mem {e : Entry} (names : (e.map (·.1)).Nodup) {k : String} {v : LogValue}
    (member : (k, v) ∈ e) : e.get k = v := by
  induction e with
  | nil => simp at member
  | cons f rest ih =>
    rw [List.map_cons, List.nodup_cons] at names
    rcases List.mem_cons.mp member with here | later
    · subst here
      simp [Entry.get]
    · have other : f.1 ≠ k := fun same => names.1 (same ▸ List.mem_map_of_mem later)
      have skipped : (f.1 == k) = false := by simpa using other
      have := ih names.2 later
      simp only [Entry.get, List.find?_cons, skipped] at this ⊢
      exact this

theorem Entry.get_of_not_mem {e : Entry} {k : String} (absent : k ∉ e.map (·.1)) :
    e.get k = .null := by
  have none : e.find? (·.1 == k) = none :=
    List.find?_eq_none.mpr fun f member same =>
      absent (List.mem_map.mpr ⟨f, member, by simpa using same⟩)
  simp [Entry.get, none]

/-- Sorting the fields of an entry with distinct names keeps the value of every name. -/
theorem get_sortFields {e : Entry} (names : (e.map (·.1)).Nodup) (k : String) :
    Entry.get (sortFields e) k = e.get k := by
  have sorted_names := ((sortFields_perm e).map (·.1)).nodup_iff.mpr names
  by_cases present : k ∈ e.map (·.1)
  · obtain ⟨⟨k', v⟩, member, same⟩ := List.mem_map.mp present
    simp only at same
    subst same
    rw [Entry.get_of_mem names member,
      Entry.get_of_mem sorted_names ((sortFields_perm e).mem_iff.mpr member)]
  · rw [Entry.get_of_not_mem present,
      Entry.get_of_not_mem (by rwa [((sortFields_perm e).map _).mem_iff])]

/-! ## The rules -/

/-- The shell's own JSON form follows the library's rules. -/
theorem Protojson.builtin_lawful : Protojson.Lawful where
  opens e _ := ⟨(LogValue.renderFields true (sortFields e)).toList ++ ['\x7d'], by
    simp [Protojson.marshal, LogValue.render]⟩
  frames e plain rest := by
    obtain ⟨ms, each, compact⟩ := render_struct_compact plain.sortFields.scalar
    have text : (Protojson.marshal e).toList = ((JsonValue.object ms).compact false).toList := by
      rw [← compact]
      rfl
    refine ⟨.object ms, ?_⟩
    rw [text]
    exact JsonValue.value_object (fun m member => JsonValue.readsBack (each m member) false) _ rest
      (by rw [List.length_append, String.length_toList]; omega)
  round_trip e plain := by
    refine ⟨sortFields e, ?_, get_sortFields plain.names_nodup⟩
    show (readEntry (LogValue.render (.struct (sortFields e))).toList).mapError _ = _
    rw [readEntry_render plain.sortFields]
    rfl

end JobShell.Log

import JobShell.Num.Binary64
import Mathlib.Data.Nat.Log
import Mathlib.Data.Nat.Digits.Defs
import Mathlib.Data.List.TakeWhile
import JobShell.Proofs.Json.Roundtrip

/-!
# Integers as doubles and as text

An integer of magnitude at most `2^53` is a double exactly, and its JSON text is its decimal
numeral: the shortest digits that read back as it are the numeral without its trailing
zeros, and the plain form puts the zeros back. Reading the numeral gives the same double.

The shortest-digits search rounds each candidate back to the format and compares. An
integer that rounds to an integer `m` of at most `mant` bits is `m`, or the tie
`2^mant + 1`, which is odd and so never a candidate with a zero dropped.

Facts about rounding are proved for any format with room for its integers
(`Format.Roomy`) and then used at `double`: unfolding `double` inside a proof about a free
integer would make the kernel evaluate `2^1074` against it.
-/
namespace JobShell.Num

theorem log2_eq_of_bounds {n L : Nat} (lo : 2 ^ L ≤ n) (hi : n < 2 ^ (L + 1)) : n.log2 = L := by
  have pos : n ≠ 0 := by have := Nat.one_le_two_pow (n := L); omega
  have ge : L ≤ n.log2 := (Nat.le_log2 pos).mpr lo
  have lt : n.log2 < L + 1 := (Nat.log2_lt pos).mpr hi
  omega

theorem log2_mul_two_pow {v : Nat} (pos : 0 < v) (k : Nat) : (v * 2 ^ k).log2 = v.log2 + k := by
  have lo := Nat.log2_self_le pos.ne'
  have hi := Nat.lt_log2_self (n := v)
  apply log2_eq_of_bounds
  · rw [Nat.pow_add]; exact Nat.mul_le_mul_right _ lo
  · rw [show v.log2 + k + 1 = v.log2 + 1 + k by omega, Nat.pow_add]
    exact Nat.mul_lt_mul_of_pos_right hi (Nat.two_pow_pos k)

theorem bitLength_of_pos {n : Nat} (pos : 0 < n) : bitLength n = n.log2 + 1 := by
  simp [bitLength, pos.ne']

structure Format.Roomy (f : Format) : Prop where
  mant_pos : 0 < f.mant
  mant_le_shift : f.mant ≤ f.shift
  shift_lt_max : f.shift < f.maxUnit

theorem round_int (f : Format) (roomy : f.Roomy) {v : Nat} (pos : 0 < v) :
    f.round v 1 =
      let p := v.log2 + f.shift + 1 - f.mant
      let q := divRoundEven (v * 2 ^ f.shift) (2 ^ p)
      if q = 2 ^ f.mant then
        if p + 1 > f.maxUnit then none else some (2 ^ (f.mant - 1) * 2 ^ (p + 1))
      else if p > f.maxUnit then none else some (q * 2 ^ p) := by
  have len : bitLength (v * 2 ^ f.shift / 1) = v.log2 + f.shift + 1 := by
    rw [Nat.div_one, bitLength_of_pos (Nat.mul_pos pos (Nat.two_pow_pos _)), log2_mul_two_pow pos]
  have long : v.log2 + f.shift + 1 > f.mant := by have := roomy.mant_le_shift; omega
  rw [Format.round]
  simp only [Nat.pow_eq, len, Nat.one_mul, long, if_true]
  split
  · rename_i same
    simp only [beq_iff_eq] at same
    simp only [same, if_true]
  · rename_i other
    simp only [beq_iff_eq] at other
    simp only [other, if_false]

theorem divRoundEven_mul_left (a : Nat) {b : Nat} (pos : 0 < b) : divRoundEven (a * b) b = a := by
  simp [divRoundEven, pos.ne', Nat.mul_div_cancel _ pos]
  omega

theorem div_le_divRoundEven (a b : Nat) : a / b ≤ divRoundEven a b := by
  unfold divRoundEven
  split
  · rename_i zero
    simp only [beq_iff_eq] at zero
    simp [zero]
  · dsimp only
    split <;> omega

theorem divRoundEven_mul_mul (a b : Nat) {c : Nat} (pos : 0 < c) :
    divRoundEven (a * c) (b * c) = divRoundEven a b := by
  by_cases zero : b = 0
  · simp [divRoundEven, zero]
  have bc : b * c ≠ 0 := Nat.mul_ne_zero zero pos.ne'
  simp only [divRoundEven, beq_iff_eq, bc, zero, if_false, Nat.mul_div_mul_right _ _ pos,
    Nat.mul_mod_mul_right]
  have greater : (2 * (a % b * c) > b * c) = (2 * (a % b) > b) := by
    rw [← Nat.mul_assoc]
    exact propext (Nat.mul_lt_mul_right pos)
  have equal : (2 * (a % b * c) == b * c) = (2 * (a % b) == b) := by
    rw [← Nat.mul_assoc]
    simp [Nat.mul_left_inj pos.ne']
  simp only [greater, equal]

theorem round_int_exact (f : Format) (roomy : f.Roomy) {v : Nat} (pos : 0 < v)
    (small : v ≤ 2 ^ f.mant) : f.round v 1 = some (v * 2 ^ f.shift) := by
  have shift := roomy.mant_le_shift
  have room := roomy.shift_lt_max
  have wide := roomy.mant_pos
  have log_le : v.log2 ≤ f.mant := by
    have := (Nat.log2_lt pos.ne').mpr (show v < 2 ^ (f.mant + 1) by rw [Nat.pow_succ]; omega)
    omega
  -- the significand: `v` with as many zero bits below it as fill `mant` bits
  obtain ⟨q, scaled, fits⟩ : ∃ q, v * 2 ^ f.shift = q * 2 ^ (v.log2 + f.shift + 1 - f.mant) ∧
      q < 2 ^ f.mant := by
    by_cases below : v < 2 ^ f.mant
    · have log_lt : v.log2 < f.mant := (Nat.log2_lt pos.ne').mpr below
      refine ⟨v * 2 ^ (f.mant - 1 - v.log2), ?_, ?_⟩
      · rw [Nat.mul_assoc, ← Nat.pow_add]
        congr 2
        omega
      · calc v * 2 ^ (f.mant - 1 - v.log2)
            < 2 ^ (v.log2 + 1) * 2 ^ (f.mant - 1 - v.log2) :=
              Nat.mul_lt_mul_of_pos_right Nat.lt_log2_self (Nat.two_pow_pos _)
          _ = 2 ^ f.mant := by rw [← Nat.pow_add]; congr 1; omega
    · have top : v = 2 ^ f.mant := by omega
      have log_eq : v.log2 = f.mant := by rw [top, Nat.log2_two_pow]
      refine ⟨2 ^ (f.mant - 1), ?_, Nat.pow_lt_pow_right (by decide) (by omega)⟩
      rw [log_eq, top, ← Nat.pow_add, ← Nat.pow_add]
      congr 1
      omega
  rw [round_int f roomy pos]
  dsimp only
  rw [scaled, divRoundEven_mul_left q (Nat.two_pow_pos _), if_neg fits.ne, if_neg (by omega)]

theorem round_zero (f : Format) : f.round 0 1 = some 0 := by
  rw [Format.round]
  have never : (0 = 2 ^ f.mant) = False := by
    simp only [eq_iff_iff, iff_false]
    exact (Nat.two_pow_pos _).ne
  simp [bitLength, divRoundEven, never]

/-- Two products of positive factors where each factor of one is at least its partner in the
other are equal only factor by factor. -/
theorem eq_of_mul_eq_of_le {a b c d : Nat} (same : a * b = c * d) (ac : c ≤ a) (bd : d ≤ b)
    (cpos : 0 < c) (dpos : 0 < d) : a = c ∧ b = d := by
  have left : c * b ≤ a * b := Nat.mul_le_mul_right b ac
  have right : c * d ≤ c * b := Nat.mul_le_mul_left c bd
  have cb : c * b = c * d := by omega
  have b_eq : b = d := Nat.eq_of_mul_eq_mul_left cpos cb
  subst b_eq
  exact ⟨Nat.eq_of_mul_eq_mul_right (by omega) (by omega), rfl⟩

/-- An integer that rounds to an integer of at most `mant` bits is that integer, or it is
`2^mant + 1`, the tie just above `2^mant` that goes down to its even neighbour. -/
theorem eq_of_round_int (f : Format) (roomy : f.Roomy) {v m : Nat} (mpos : 0 < m)
    (small : m ≤ 2 ^ f.mant) (rounds : f.round v 1 = some (m * 2 ^ f.shift)) :
    v = m ∨ v = 2 ^ f.mant + 1 := by
  have shift := roomy.mant_le_shift
  have wide := roomy.mant_pos
  rcases Nat.eq_zero_or_pos v with rfl | pos
  · rw [round_zero] at rounds
    have := Nat.mul_pos mpos (Nat.two_pow_pos f.shift)
    simp at rounds
    omega
  by_cases fits : v ≤ 2 ^ f.mant
  · left
    rw [round_int_exact f roomy pos fits] at rounds
    exact Nat.eq_of_mul_eq_mul_right (Nat.two_pow_pos _) (Option.some.inj rounds)
  right
  have log_ge : f.mant ≤ v.log2 := (Nat.le_log2 pos.ne').mpr (by omega)
  -- the significand is `v` divided by `2^(p - shift)`, rounded, and at least `2^(mant-1)`
  have split_pow : 2 ^ (v.log2 + f.shift + 1 - f.mant) =
      2 ^ (v.log2 + 1 - f.mant) * 2 ^ f.shift := by
    rw [← Nat.pow_add]; congr 1; omega
  have low : 2 ^ (f.mant - 1) ≤ divRoundEven v (2 ^ (v.log2 + 1 - f.mant)) := by
    refine le_trans ?_ (div_le_divRoundEven _ _)
    rw [Nat.le_div_iff_mul_le (Nat.two_pow_pos _), ← Nat.pow_add,
      show f.mant - 1 + (v.log2 + 1 - f.mant) = v.log2 by omega]
    exact Nat.log2_self_le pos.ne'
  have bound : m * 2 ^ f.shift ≤ 2 ^ (f.mant - 1) * 2 ^ (f.shift + 1) := by
    calc m * 2 ^ f.shift ≤ 2 ^ f.mant * 2 ^ f.shift := Nat.mul_le_mul_right _ small
      _ = 2 ^ (f.mant - 1) * 2 ^ (f.shift + 1) := by
        rw [← Nat.pow_add, ← Nat.pow_add]; congr 1; omega
  rw [round_int f roomy pos] at rounds
  dsimp only at rounds
  have significand : divRoundEven (v * 2 ^ f.shift) (2 ^ (v.log2 + f.shift + 1 - f.mant)) =
      divRoundEven v (2 ^ (v.log2 + 1 - f.mant)) := by
    rw [split_pow, divRoundEven_mul_mul _ _ (Nat.two_pow_pos _)]
  rw [significand] at rounds
  split at rounds
  · -- a significand that rounds up to `2^mant` lands above every such integer
    split at rounds
    · cases rounds
    injection rounds with value
    have above : 2 ^ (f.mant - 1) * 2 ^ (f.shift + 1) < 2 ^ (f.mant - 1) * 2 ^ (v.log2 + f.shift + 1 - f.mant + 1) :=
      Nat.mul_lt_mul_of_pos_left (Nat.pow_lt_pow_right (by decide) (by omega)) (Nat.two_pow_pos _)
    omega
  · split at rounds
    · cases rounds
    injection rounds with value
    have exp_ge : 2 ^ (f.shift + 1) ≤ 2 ^ (v.log2 + f.shift + 1 - f.mant) :=
      Nat.pow_le_pow_right (by decide) (by omega)
    have least : 2 ^ (f.mant - 1) * 2 ^ (f.shift + 1) ≤
        divRoundEven v (2 ^ (v.log2 + 1 - f.mant)) * 2 ^ (v.log2 + f.shift + 1 - f.mant) :=
      Nat.mul_le_mul low exp_ge
    obtain ⟨q_eq, p_eq⟩ := eq_of_mul_eq_of_le (by omega : _ = 2 ^ (f.mant - 1) * 2 ^ (f.shift + 1)) low exp_ge
      (Nat.two_pow_pos _) (Nat.two_pow_pos _)
    have log_eq : v.log2 = f.mant := by
      have := Nat.pow_right_injective (le_refl 2) p_eq
      omega
    rw [log_eq, show f.mant + 1 - f.mant = 1 by omega] at q_eq
    have half := div_le_divRoundEven v (2 ^ 1)
    rw [q_eq] at half
    have : 2 ^ f.mant = 2 * 2 ^ (f.mant - 1) := by
      rw [← Nat.pow_succ']; congr 1; omega
    omega

/-! ## The decimal exponent -/

theorem atLeastPow10_int (f : Format) {m : Nat} (pos : 0 < m) (t : Int) :
    atLeastPow10 f (m * 2 ^ f.shift) t = decide (t ≤ (Nat.log 10 m : Int)) := by
  unfold atLeastPow10
  by_cases nonneg : t ≥ 0
  · rw [if_pos nonneg]
    have scaled : (m * 2 ^ f.shift ≥ Nat.pow 10 t.toNat * Nat.pow 2 f.shift) ↔ 10 ^ t.toNat ≤ m := by
      simp only [Nat.pow_eq, ge_iff_le]
      exact Nat.mul_le_mul_right_iff (Nat.two_pow_pos _)
    have logged : 10 ^ t.toNat ≤ m ↔ t ≤ (Nat.log 10 m : Int) := by
      rw [← Nat.le_log_iff_pow_le (by decide) pos.ne']
      omega
    exact decide_eq_decide.mpr (scaled.trans logged)
  · rw [if_neg nonneg]
    have always : m * 2 ^ f.shift * Nat.pow 10 (-t).toNat ≥ Nat.pow 2 f.shift := by
      simp only [Nat.pow_eq]
      calc 2 ^ f.shift = 1 * 2 ^ f.shift * 1 := by simp
        _ ≤ m * 2 ^ f.shift * 10 ^ (-t).toNat :=
          Nat.mul_le_mul (Nat.mul_le_mul_right _ pos) (Nat.one_le_pow _ _ (by decide))
    simp only [always, decide_true]
    exact (decide_eq_true (by omega)).symm

theorem adjust_int (f : Format) {m : Nat} (pos : 0 < m) :
    ∀ (n : Nat) (e : Int), (e - Nat.log 10 m).natAbs ≤ n →
      decimalExponent.adjust f (m * 2 ^ f.shift) n e = Nat.log 10 m
  | 0, e, close => by
    rw [decimalExponent.adjust]
    omega
  | n + 1, e, close => by
    rw [decimalExponent.adjust, atLeastPow10_int f pos, atLeastPow10_int f pos]
    by_cases up : e + 1 ≤ Nat.log 10 m
    · rw [if_pos (decide_eq_true up)]
      exact adjust_int f pos n (e + 1) (by omega)
    · rw [if_neg (by simpa using up)]
      by_cases down : e ≤ Nat.log 10 m
      · rw [if_neg (by simpa using down)]
        omega
      · rw [if_pos (by simpa using down)]
        exact adjust_int f pos n (e - 1) (by omega)

/-- The writer's estimate of the decimal exponent from the bit length, `⌊b · 0.30103⌋`, is
within one of the true exponent for every bit length of an integer up to `2^54`. -/
theorem estimate_close : ∀ L < 54,
    10 ^ (L * 30103 / 100000) ≤ 10 * 2 ^ L ∧ 2 ^ (L + 1) ≤ 10 ^ (L * 30103 / 100000 + 2) := by
  decide

theorem decimalExponent_int (f : Format) {m : Nat} (pos : 0 < m) (small : m < 2 ^ 54) :
    decimalExponent f (m * 2 ^ f.shift) = Nat.log 10 m := by
  unfold decimalExponent
  rw [bitLength_of_pos (Nat.mul_pos pos (Nat.two_pow_pos _)), log2_mul_two_pow pos]
  have log_lt : m.log2 < 54 := (Nat.log2_lt pos.ne').mpr small
  obtain ⟨low, high⟩ := estimate_close m.log2 log_lt
  have estimate : Int.fdiv ((((m.log2 + f.shift + 1 : Nat) : Int) - 1 - f.shift) * 30103) 100000 =
      ((m.log2 * 30103 / 100000 : Nat) : Int) := by
    rw [show ((m.log2 + f.shift + 1 : Nat) : Int) - 1 - f.shift = (m.log2 : Int) by omega,
      Int.fdiv_eq_ediv_of_nonneg _ (by decide)]
    omega
  dsimp only
  apply adjust_int f pos 8
  rw [estimate]
  -- both exponents bound the same integer, so they are at most one apart
  have pow_log := Nat.pow_log_le_self 10 pos.ne'
  have lt_pow := Nat.lt_pow_succ_log_self (by decide : 1 < 10) m
  have two_low := Nat.log2_self_le pos.ne'
  have two_high := Nat.lt_log2_self (n := m)
  have above : Nat.log 10 m < m.log2 * 30103 / 100000 + 2 :=
    (Nat.pow_lt_pow_iff_right (by decide : 1 < 10)).mp (by omega)
  have below : m.log2 * 30103 / 100000 < Nat.log 10 m + 2 := by
    apply (Nat.pow_lt_pow_iff_right (by decide : 1 < 10)).mp
    rw [Nat.pow_succ, Nat.pow_succ]
    omega
  omega

/-! ## The shortest digits of an integer -/

section Shortest

variable (f : Format) (roomy : f.Roomy) {m : Nat} (pos : 0 < m) (small : m ≤ 2 ^ f.mant)
  (short : m < 2 ^ 54)

include pos short in
/-- With as many digits as the integer has, its digits are the integer itself. -/
theorem roundDigits_int_all :
    roundDigits f (m * 2 ^ f.shift) (Nat.log 10 m + 1) = (m, 0) := by
  unfold roundDigits
  rw [decimalExponent_int f pos short]
  have lt_pow := Nat.lt_pow_succ_log_self (by decide : 1 < 10) m
  have none_dropped : ((Nat.log 10 m + 1 : Nat) : Int) - 1 - (Nat.log 10 m : Int) = 0 := by omega
  simp only [none_dropped, Nat.pow_eq, ge_iff_le, Int.le_refl, if_true, Int.toNat_zero,
    Nat.pow_zero, Nat.mul_one, divRoundEven_mul_left m (Nat.two_pow_pos _)]
  simp [lt_pow.ne]

include pos short in
/-- With fewer digits, the last digit kept stands at least one place above the units. -/
theorem roundDigits_int_fewer {k : Nat} (fewer : k ≤ Nat.log 10 m) :
    1 ≤ (roundDigits f (m * 2 ^ f.shift) k).2 := by
  unfold roundDigits
  rw [decimalExponent_int f pos short]
  simp only [ge_iff_le, show ¬ (0 ≤ (k : Int) - 1 - Nat.log 10 m) by omega, if_false]
  split <;> omega

include roomy pos small in
/-- An integer rounded to the format and back is itself when the digits written for it are
a multiple of ten: the one other integer that rounds to it, `2^mant + 1`, is odd. -/
theorem shortest_check_int {d j : Nat} (tens : 1 ≤ j)
    (rounds : f.round (d * 10 ^ j) 1 = some (m * 2 ^ f.shift)) : d * 10 ^ j = m := by
  rcases eq_of_round_int f roomy pos small rounds with same | odd
  · exact same
  · exfalso
    have tenfold : d * 10 ^ j = d * 10 ^ (j - 1) * 10 := by
      rw [Nat.mul_assoc, ← Nat.pow_succ]; congr 2; omega
    have twofold : 2 ^ f.mant = 2 ^ (f.mant - 1) * 2 := by
      rw [← Nat.pow_succ]; congr 1; have := roomy.mant_pos; omega
    omega

include roomy pos small short in
theorem shortest_go_int : ∀ (fuel k : Nat), 1 ≤ k → k ≤ Nat.log 10 m + 1 →
    Nat.log 10 m + 1 - k ≤ fuel →
    ∃ d e : Nat, shortest.go f (m * 2 ^ f.shift) fuel k = (d, (e : Int)) ∧ d * 10 ^ e = m
  | 0, k, _, most, _ => by
    rw [shortest.go, show k = Nat.log 10 m + 1 by omega, roundDigits_int_all f pos short]
    exact ⟨m, 0, rfl, by simp⟩
  | fuel + 1, k, least, most, enough => by
    rw [shortest.go]
    by_cases last : k = Nat.log 10 m + 1
    · subst last
      rw [roundDigits_int_all f pos short]
      simp only [ge_iff_le, le_refl, if_true, Int.toNat_zero, Nat.pow_eq, Nat.pow_zero, Nat.mul_one,
        round_int_exact f roomy pos small, beq_self_eq_true, if_true]
      exact ⟨m, 0, rfl, by simp⟩
    · have tens := roundDigits_int_fewer f pos short (k := k) (by omega)
      generalize roundDigits f (m * 2 ^ f.shift) k = r at tens ⊢
      obtain ⟨d, e⟩ := r
      dsimp only at tens ⊢
      obtain ⟨j, rfl⟩ : ∃ j : Nat, e = j := ⟨e.toNat, by omega⟩
      simp only [ge_iff_le, Int.natCast_nonneg, if_true, Int.toNat_natCast, Nat.pow_eq]
      split
      · rename_i matched
        refine ⟨d, j, rfl, shortest_check_int f roomy pos small (by omega) ?_⟩
        simpa using matched
      · exact shortest_go_int fuel (k + 1) (by omega) (by omega) (by omega)

include roomy pos small short in
/-- The shortest digits of an integer up to `2^mant` name the integer: some `d` and `e ≥ 0`
with `d · 10^e` the integer. -/
theorem shortest_int : ∃ d e : Nat, shortest f (m * 2 ^ f.shift) = (d, (e : Int)) ∧ d * 10 ^ e = m := by
  have few : Nat.log 10 m < 17 :=
    (Nat.log_lt_iff_lt_pow (by decide) pos.ne').mpr (Nat.lt_of_lt_of_le short (by decide))
  exact shortest_go_int f roomy pos small short 17 1 (Nat.le_refl 1) (by omega) (by omega)

end Shortest

/-! ## Digits in plain notation -/

/-- The digits of `d · 10^e` are those of `d` followed by `e` zeros. -/
theorem toDigits_mul_pow_ten {d : Nat} (pos : 0 < d) (e : Nat) :
    Nat.toDigits 10 (d * 10 ^ e) = Nat.toDigits 10 d ++ List.replicate e '0' := by
  induction e with
  | zero => simp
  | succ e ih =>
    have grown : d * 10 ^ (e + 1) = 10 * (d * 10 ^ e) + 0 := by
      rw [Nat.pow_succ, ← Nat.mul_assoc, Nat.mul_comm _ 10, Nat.add_zero]
    rw [grown, ← Nat.toDigits_append_toDigits (by decide)
      (Nat.mul_pos pos (Nat.pow_pos (by decide))) (by decide), ih, Nat.toDigits_zero,
      List.replicate_succ', List.append_assoc]

/-- A text is its part before its trailing zeros, then those zeros. -/
theorem take_append_trailing_zeros (s : List Char) :
    s.take (s.length - (s.reverse.takeWhile (· == '0')).length) ++
      List.replicate (s.reverse.takeWhile (· == '0')).length '0' = s := by
  have whole := List.takeWhile_append_dropWhile (p := (· == '0')) (l := s.reverse)
  have all_zero := List.all_takeWhile (p := (· == '0')) (l := s.reverse)
  generalize s.reverse.takeWhile (· == '0') = zeros at whole all_zero ⊢
  have zeros_rep : zeros.reverse = List.replicate zeros.length '0' := by
    rw [List.eq_replicate_iff]
    refine ⟨List.length_reverse, fun x member => ?_⟩
    simpa using List.all_eq_true.mp all_zero x (List.mem_reverse.mp member)
  have split : s = (s.reverse.dropWhile (· == '0')).reverse ++ List.replicate zeros.length '0' := by
    rw [← zeros_rep, ← List.reverse_append, whole, List.reverse_reverse]
  calc s.take (s.length - zeros.length) ++ List.replicate zeros.length '0'
      = (s.reverse.dropWhile (· == '0')).reverse ++ List.replicate zeros.length '0' := by
        congr 1
        conv_lhs => rw [split]
        simp
    _ = s := split.symm

theorem map_range_getD (t : List Char) {P : Nat} (fits : t.length ≤ P) :
    (List.range P).map (fun i => (t[i]?).getD '0') = t ++ List.replicate (P - t.length) '0' := by
  apply List.ext_getElem
  · simp; omega
  · intro i lhs rhs
    simp only [List.getElem_map, List.getElem_range, List.getElem_append]
    split
    · rename_i inside
      simp [inside]
    · rename_i outside
      simp [outside]

/-- With no digits after the point, `%f` writes the digits up to the point, padded with zeros. -/
theorem formF_zero (ds : Digits) (positive : 0 < ds.point) :
    ds.formF 0 = String.ofList ((List.range ds.point.toNat).map ds.at) := by
  simp [Digits.formF, positive]

/-- The plain form of `d · 10^e` from its digits without trailing zeros is its numeral. -/
theorem formF_ofParts {d : Nat} (pos : 0 < d) (e : Nat) :
    (Digits.ofParts d e).formF
        (max 0 (((Digits.ofParts d e).count : Int) - (Digits.ofParts d e).point)).toNat =
      toString (d * 10 ^ e) := by
  have nonzero : (d == 0) = false := by simpa using pos.ne'
  have digits : (toString d).toList = Nat.toDigits 10 d := by simp [Nat.toString_eq_repr]
  have some_digit : 0 < (Nat.toDigits 10 d).length := Nat.length_toDigits_pos
  have whole := take_append_trailing_zeros (Nat.toDigits 10 d)
  simp only [Digits.ofParts, nonzero, Bool.false_eq_true, if_false, digits, Digits.count]
  generalize ((Nat.toDigits 10 d).reverse.takeWhile (· == '0')).length = zeros at whole ⊢
  have zeros_le : zeros ≤ (Nat.toDigits 10 d).length := by
    have := congrArg List.length whole
    simp at this
    omega
  generalize kept_def : List.take ((Nat.toDigits 10 d).length - zeros) (Nat.toDigits 10 d) = kept
    at whole ⊢
  have kept_length : kept.length = (Nat.toDigits 10 d).length - zeros := by
    rw [← kept_def, List.length_take]; omega
  rw [show max 0 (((String.ofList kept).length : Int) - ((Nat.toDigits 10 d).length + e)) = 0 by
      simp only [String.length_ofList, kept_length]; omega,
    Int.toNat_zero, formF_zero _ (by simp only; omega)]
  have at_kept : (Digits.mk (String.ofList kept) ((Nat.toDigits 10 d).length + e)).at =
      fun i => (kept[i]?).getD '0' := funext fun i => by simp [Digits.at]
  rw [at_kept, show ((Nat.toDigits 10 d).length + (e : Int)).toNat = (Nat.toDigits 10 d).length + e by omega,
    map_range_getD kept (by omega), show (Nat.toDigits 10 d).length + e - kept.length = zeros + e by omega,
    List.replicate_append_replicate.symm, ← List.append_assoc, whole, ← toDigits_mul_pow_ten pos,
    Nat.toString_eq_ofList_toDigits]

/-! ## Integers in JSON -/

theorem double_roomy : double.Roomy := ⟨by decide, by decide, by decide⟩

/-- A double holding an integer up to `2^53` is written as that integer's numeral. -/
theorem formatJson_int {m : Nat} (pos : 0 < m) (small : m ≤ 2 ^ 53) (neg : Bool) :
    formatJson (.finite neg (m * 2 ^ double.shift)) = (if neg then "-" else "") ++ toString m := by
  obtain ⟨d, e, digits, named⟩ :=
    shortest_int double double_roomy pos small (Nat.lt_of_le_of_lt small (by decide))
  have log_small : Nat.log 10 m < 16 :=
    Nat.log_lt_of_lt_pow pos.ne' (Nat.lt_of_le_of_lt small (by decide))
  have dpos : 0 < d := Nat.pos_of_ne_zero fun zero => by simp [zero] at named; omega
  have nonzero : (m * 2 ^ double.shift == 0) = false :=
    beq_eq_false_iff_ne.mpr (Nat.mul_ne_zero pos.ne' (Nat.two_pow_pos _).ne')
  -- rewrite every occurrence of the scaled value away before any simplification, which
  -- would otherwise evaluate `2 ^ 1074`
  rw [formatJson, render, nonzero, if_neg Bool.false_ne_true, digits, atLeastPow10_int double pos,
    atLeastPow10_int double pos,
    show decide ((21 : Int) ≤ Nat.log 10 m) = false from decide_eq_false (by omega),
    show decide ((-6 : Int) ≤ Nat.log 10 m) = true from decide_eq_true (by omega)]
  dsimp only
  rw [formF_ofParts dpos e, named]
  rfl

/-- A positive integer no wider than the significand, read as decimal digits with no
exponent, is a value of the format exactly. -/
theorem ofDecimal_int (f : Format) (roomy : f.Roomy) {v : Nat} (pos : 0 < v)
    (small : v ≤ 2 ^ f.mant) (narrow : (toString v).length ≤ 400) (neg : Bool) :
    f.ofDecimal neg v 0 = .finite neg (v * 2 ^ f.shift) := by
  rw [Format.ofDecimal, if_neg (by simp [pos.ne']), if_neg (by omega),
    if_pos (Int.le_refl 0)]
  dsimp only
  rw [show Nat.pow 10 (Int.toNat 0) = 1 from rfl, Nat.mul_one, round_int_exact f roomy pos small]

/-- An integer up to `2^53` in magnitude is a double exactly. -/
theorem Value.ofInt_exact {n : Int} (small : n.natAbs ≤ 2 ^ 53) :
    Value.ofInt n = .finite (decide (n < 0)) (n.natAbs * 2 ^ double.shift) := by
  rw [Value.ofInt]
  by_cases zero : n.natAbs = 0
  · rw [Format.ofDecimal, if_pos (by simp [zero]), zero, Nat.zero_mul]
  · have narrow : (toString n.natAbs).length ≤ 16 :=
      Nat.repr_length n.natAbs 16 (by decide) (Nat.lt_of_le_of_lt small (by decide))
    exact ofDecimal_int double double_roomy (Nat.pos_of_ne_zero zero) small (by omega) _

/-! ## Reading integers -/

/-- The decimal text of an integer is read as its sign, its magnitude and no exponent. -/
theorem parseDecimal_toString (n : Int) :
    parseDecimal (toString n) = some (decide (n < 0), n.natAbs, 0) := by
  obtain ⟨c, cs, head⟩ : ∃ c cs, Nat.toDigits 10 n.natAbs = c :: cs :=
    List.exists_cons_of_ne_nil Nat.toDigits_ne_nil
  have digits : ∀ d ∈ c :: cs, d.isDigit := fun d member =>
    Nat.isDigit_of_mem_toDigits (by decide) (by decide) (head ▸ member)
  have unsigned : c ≠ '-' ∧ c ≠ '+' := by
    have := digits c (by simp)
    constructor <;> rintro rfl <;> simp [Char.isDigit] at this
  have whole : (c :: cs).takeWhile Char.isDigit = c :: cs := List.takeWhile_eq_self_iff.mpr digits
  have value := JsonRead.foldl_toDigits n.natAbs
  rw [head] at value
  unfold parseDecimal
  rw [JsonRead.toList_toString_int, head]
  by_cases nonneg : 0 ≤ n
  · simp only [nonneg, if_true, List.nil_append]
    split
    · rename_i same; injection same with minus; exact absurd minus unsigned.1
    · rename_i same; injection same with plus; exact absurd plus unsigned.2
    · simpa [whole, show decide (n < 0) = false by simpa using nonneg] using value
  · simp only [nonneg, if_false, List.cons_append, List.nil_append]
    simpa [whole, show decide (n < 0) = true by simpa using nonneg] using value

/-- Every integer's decimal text reads back as the double nearest it. -/
theorem Value.ofText?_toString (n : Int) : Value.ofText? (toString n) = some (Value.ofInt n) := by
  rw [Value.ofText?, parseDecimal_toString]
  rfl

end JobShell.Num

import FluentSql.Proofs.Binary.Cell
import Mathlib.Data.Nat.Cast.Order.Field
import Mathlib.Tactic.FieldSimp
import Mathlib.Tactic.NormNum

/-! The shortest decimal of a number. The search goes down the decimal places and looks at the two
neighbours of the number there, so it meets every decimal that is the only one of its length in the
cell of the number. -/
namespace FluentSql.Binary

/-- A multiple of a decimal place is one of every finer place. -/
theorem mul_zpow_of_le (k : ℕ) {place e : ℤ} (le : place ≤ e) :
    (k : ℚ) * 10 ^ e = (k * 10 ^ (e - place).toNat : ℕ) * 10 ^ place := by
  have exponent : ((e - place).toNat : ℤ) = e - place := by omega
  rw [Nat.cast_mul,Nat.cast_pow,Nat.cast_ofNat,mul_assoc,← zpow_natCast,
    ← zpow_add₀ (by norm_num),exponent,sub_add_cancel]

namespace Scientific

theorem dropZeros_spec (fuel c dropped : ℕ) :
    ((dropZeros fuel c dropped).1 * 10 ^ (dropZeros fuel c dropped).2 = c * 10 ^ dropped) ∧
      (dropZeros fuel c dropped).1 ≤ c := by
  induction fuel generalizing c dropped with
  | zero => exact ⟨rfl,Nat.le_refl c⟩
  | succ fuel ih =>
    rw [dropZeros]
    split
    next zero =>
      obtain ⟨same,le⟩ := ih (c / 10) (dropped + 1)
      refine ⟨?_,Nat.le_trans le (Nat.div_le_self c 10)⟩
      rw [same,Nat.pow_succ',← Nat.mul_assoc,Nat.div_mul_cancel (Nat.dvd_of_mod_eq_zero zero)]
    next => exact ⟨rfl,Nat.le_refl c⟩

theorem value_trimmed (s : Scientific) : s.trimmed.value = s.value := by
  obtain ⟨same,-⟩ := dropZeros_spec s.digits.length s.coefficient 0
  rw [Nat.pow_zero,Nat.mul_one] at same
  have same : ((dropZeros s.digits.length s.coefficient 0).1 : ℚ) *
      10 ^ (dropZeros s.digits.length s.coefficient 0).2 = s.coefficient := by exact_mod_cast same
  rw [value,value,← same]
  change _ * (10 : ℚ) ^ (s.exponent + ((dropZeros s.digits.length s.coefficient 0).2 : ℤ)) = _
  rw [zpow_add₀ (by decide),zpow_natCast]
  change ((dropZeros s.digits.length s.coefficient 0).1 : ℚ) * _ = _
  ring

theorem coefficient_trimmed_le (s : Scientific) : s.trimmed.coefficient ≤ s.coefficient :=
  (dropZeros_spec s.digits.length s.coefficient 0).2

theorem value_pos_iff (s : Scientific) : 0 < s.value ↔ 0 < s.coefficient := by
  have power : (0 : ℚ) < 10 ^ s.exponent := by positivity
  rw [value,mul_pos_iff_of_pos_right power,Nat.cast_pos]

theorem coefficient_trimmed_pos (s : Scientific) :
    0 < s.trimmed.coefficient ↔ 0 < s.coefficient := by
  rw [← value_pos_iff,value_trimmed,value_pos_iff]

end Scientific

namespace Cell

variable {c : Cell} {tie : Tie} {place : ℤ}

/-- The two decimals of a place that lie next to the number. -/
theorem candidates_cases (tie : Tie) (place : ℤ) (whole : 0 < c.whole) : ∃ k : ℕ,
    k * 10 ^ place ≤ c.number ∧ c.number < (k + 1) * 10 ^ place ∧
    (c.candidates tie place = (⟨k,place⟩,⟨k + 1,place⟩) ∨
      c.candidates tie place = (⟨k + 1,place⟩,⟨k,place⟩)) := by
  have power : (0 : ℚ) < 10 ^ place := by positivity
  have den : 0 < c.whole * Nat.pow 10 place.toNat := Nat.mul_pos whole (Nat.pow_pos (by decide))
  have den_pos : (0 : ℚ) < (c.whole * Nat.pow 10 place.toNat : ℕ) := Nat.cast_pos.mpr den
  have quotient : ((c.value * Nat.pow 10 (-place).toNat : ℕ) : ℚ) /
      (c.whole * Nat.pow 10 place.toNat : ℕ) = c.number / 10 ^ place := by
    have whole_ne : (c.whole : ℚ) ≠ 0 := Nat.cast_ne_zero.mpr (Nat.ne_of_gt whole)
    rw [number,Nat.pow_eq,Nat.pow_eq,Nat.cast_mul,Nat.cast_mul,Nat.cast_pow,Nat.cast_pow,
      Nat.cast_ofNat,← ten_zpow_mul place]
    field_simp
  refine ⟨c.value * Nat.pow 10 (-place).toNat / (c.whole * Nat.pow 10 place.toNat),?_,?_,?_⟩
  · rw [← le_div_iff₀ power,← quotient]
    exact Nat.cast_div_le
  · rw [← div_lt_iff₀ power,← quotient,div_lt_iff₀ den_pos]
    exact_mod_cast Nat.lt_mul_of_div_lt (Nat.lt_succ_self _) den
  · simp only [candidates]
    split
    · exact .inl rfl
    · exact .inr rfl

theorem leadingExponent_bounds (whole : 0 < c.whole)
    (large : c.whole ≤ c.value * Nat.pow 10 c.whole.log2) :
    (10 : ℚ) ^ c.leadingExponent ≤ c.number ∧ c.number < 10 ^ (c.leadingExponent + 1) := by
  have whole_pos : (0 : ℚ) < c.whole := Nat.cast_pos.mpr whole
  obtain ⟨places,same⟩ : ∃ places, c.whole.log2 = places := ⟨_,rfl⟩
  obtain ⟨n,floor⟩ : ∃ n, c.value * Nat.pow 10 places / c.whole = n := ⟨_,rfl⟩
  have some : 1 ≤ n := floor ▸ (Nat.one_le_div_iff whole).mpr (same ▸ large)
  have length := List.length_pos_of_ne_nil (Nat.toDigits_ne_nil (b := 10) (n := n))
  have below : n < 10 ^ (Nat.toDigits 10 n).length :=
    (Nat.length_toDigits_le_iff (by decide) length).mp (Nat.le_refl _)
  have above : 10 ^ ((Nat.toDigits 10 n).length - 1) ≤ n := by
    rcases Nat.eq_or_lt_of_le (Nat.succ_le_of_lt length) with one | more
    · rw [← one]
      exact some
    · apply Nat.not_lt.mp
      intro short
      have := (Nat.length_toDigits_le_iff (b := 10) (by decide) (Nat.sub_pos_of_lt more)).mpr short
      omega
  have scaled : c.number * 10 ^ places = (c.value * Nat.pow 10 places : ℕ) / c.whole := by
    rw [number,Nat.pow_eq,Nat.cast_mul,Nat.cast_pow,Nat.cast_ofNat,div_mul_eq_mul_div]
  have power : (0 : ℚ) < 10 ^ places := by positivity
  rw [leadingExponent,same,floor]
  generalize (Nat.toDigits 10 n).length = digits at *
  constructor
  · rw [← mul_le_mul_iff_of_pos_right power,scaled,← zpow_natCast,← zpow_add₀ (by norm_num)]
    have exponent : (digits : ℤ) - 1 - places + places = (digits - 1 : ℕ) := by omega
    rw [exponent,zpow_natCast]
    exact le_trans (by exact_mod_cast above) (floor ▸ Nat.cast_div_le)
  · rw [← mul_lt_mul_iff_of_pos_right power,scaled,← zpow_natCast,← zpow_add₀ (by norm_num)]
    have exponent : (digits : ℤ) - 1 - places + 1 + places = (digits : ℕ) := by omega
    rw [exponent,zpow_natCast,div_lt_iff₀ whole_pos]
    exact_mod_cast Nat.lt_mul_of_div_lt (floor ▸ below) whole

/-- The search ends at a candidate of some place. -/
theorem search_cases (tie : Tie) (c : Cell) (fuel : ℕ) (place : ℤ) : ∃ at' : ℤ,
    place - fuel ≤ at' ∧ at' ≤ place ∧ (c.search tie fuel place = (c.candidates tie at').1 ∨
      c.search tie fuel place = (c.candidates tie at').2) := by
  induction fuel generalizing place with
  | zero => exact ⟨place,by simp,le_refl place,.inl rfl⟩
  | succ fuel ih =>
    simp only [search]
    split
    · exact ⟨place,by omega,le_refl place,.inl rfl⟩
    · split
      · exact ⟨place,by omega,le_refl place,.inr rfl⟩
      · obtain ⟨at',low,high,found⟩ := ih (place - 1)
        exact ⟨at',by push_cast; omega,by omega,found⟩

/-- What the search finds has at least one digit and at most one for each place it looks at. -/
theorem search_coefficient (tie : Tie) (fuel : ℕ) (whole : 0 < c.whole)
    (low : 10 ^ place ≤ c.number) (high : c.number < 10 ^ (place + 1)) :
    0 < (c.search tie fuel place).coefficient ∧
      (c.search tie fuel place).coefficient ≤ 10 ^ (fuel + 1) := by
  obtain ⟨at',after,before,found⟩ := search_cases tie c fuel place
  obtain ⟨k,floor,ceiling,pair⟩ := candidates_cases tie at' whole
  have power : (0 : ℚ) < 10 ^ at' := by positivity
  have some : 0 < k := by
    have reached : (1 : ℚ) * 10 ^ at' < (k + 1) * 10 ^ at' := by
      rw [one_mul]
      exact ((zpow_le_zpow_right₀ (by norm_num) before).trans low).trans_lt ceiling
    have := (mul_lt_mul_iff_of_pos_right power).mp reached
    exact_mod_cast (by linarith : (0 : ℚ) < k)
  have short : k < 10 ^ (fuel + 1) := by
    have reached : (k : ℚ) * 10 ^ at' < (10 ^ (fuel + 1) : ℕ) * 10 ^ at' := by
      rw [Nat.cast_pow,Nat.cast_ofNat,← zpow_natCast,← zpow_add₀ (by norm_num)]
      refine (floor.trans_lt high).trans_le (zpow_le_zpow_right₀ (by norm_num) ?_)
      push_cast
      omega
    exact_mod_cast (mul_lt_mul_iff_of_pos_right power).mp reached
  rcases found with found | found <;> rw [found] <;> rcases pair with pair | pair <;> rw [pair] <;>
    simp only <;> omega

/-- A cell that is narrower than a decimal place holds one decimal of that place at most. -/
theorem Holds.unique {j k : ℕ} (narrow : (c.high : ℚ) - c.low < 10 ^ place * c.whole)
    (one : c.Holds (j * 10 ^ place)) (other : c.Holds (k * 10 ^ place)) : j = k := by
  have whole : (0 : ℚ) ≤ c.whole := Nat.cast_nonneg _
  have power : (0 : ℚ) < 10 ^ place := by positivity
  have apart {a b : ℕ} (low : c.Holds (a * 10 ^ place)) (high : c.Holds (b * 10 ^ place)) : b ≤ a := by
    have width : ((b : ℚ) - a) * (10 ^ place * c.whole) < 1 * (10 ^ place * c.whole) := by
      have := low.between.1
      have := high.between.2
      linarith
    have scale : 0 < (10 : ℚ) ^ place * c.whole := by
      refine (mul_nonneg power.le whole).lt_of_ne fun zero => ?_
      rw [← zero] at width
      simp at width
    have := (mul_lt_mul_iff_of_pos_right scale).mp width
    exact Nat.lt_succ_iff.mp (by exact_mod_cast (by linarith : (b : ℚ) < a + 1))
  exact Nat.le_antisymm (apart other one) (apart one other)

/-- A decimal in such a cell lies next to the number. -/
theorem Holds.adjacent {j k : ℕ} (holds : c.Holds (k * 10 ^ place)) (whole : 0 < c.whole)
    (narrow : (c.high : ℚ) - c.low < 10 ^ place * c.whole)
    (inside : c.low ≤ c.value ∧ c.value ≤ c.high) (floor : j * 10 ^ place ≤ c.number)
    (ceiling : c.number < (j + 1) * 10 ^ place) : k = j ∨ k = j + 1 := by
  have whole_pos : (0 : ℚ) < c.whole := Nat.cast_pos.mpr whole
  have power : (0 : ℚ) < 10 ^ place := by positivity
  have scale : (0 : ℚ) < 10 ^ place * c.whole := mul_pos power whole_pos
  have value : c.number * c.whole = c.value := div_mul_cancel₀ _ whole_pos.ne'
  have low : (c.low : ℚ) ≤ c.value := Nat.cast_le.mpr inside.1
  have high : (c.value : ℚ) ≤ c.high := Nat.cast_le.mpr inside.2
  have floor' := mul_le_mul_of_nonneg_right floor whole_pos.le
  have ceiling' := mul_lt_mul_of_pos_right ceiling whole_pos
  obtain ⟨above,below⟩ := holds.between
  have upper : (k : ℚ) * (10 ^ place * c.whole) < (j + 2) * (10 ^ place * c.whole) := by linarith
  have lower : ((j : ℚ) - 1) * (10 ^ place * c.whole) < k * (10 ^ place * c.whole) := by linarith
  have less : k < j + 2 := by exact_mod_cast (mul_lt_mul_iff_of_pos_right scale).mp upper
  have more : j < k + 1 := by
    have := (mul_lt_mul_iff_of_pos_right scale).mp lower
    exact_mod_cast (by linarith : (j : ℚ) < k + 1)
  omega

theorem search_value {k : ℕ} {least : ℤ} {fuel : ℕ} (whole : 0 < c.whole)
    (narrow : (c.high : ℚ) - c.low < 10 ^ least * c.whole) (holds : c.Holds (k * 10 ^ least))
    (inside : c.low ≤ c.value ∧ c.value ≤ c.high) (above : least ≤ place) (near : place < least + fuel) :
    (c.search tie fuel place).value = k * 10 ^ least := by
  -- a candidate that reads back is the one decimal of the least place in the cell
  have found {s : Scientific} (contained : c.contains s = true) (coarse : least ≤ s.exponent) :
      s.value = k * 10 ^ least := by
    have same := (contains_iff s).mp contained
    rw [Scientific.value,mul_zpow_of_le s.coefficient coarse] at same ⊢
    rw [same.unique narrow holds]
  induction fuel generalizing place with
  | zero => omega
  | succ fuel ih =>
    obtain ⟨j,floor,ceiling,pair⟩ := candidates_cases tie place whole
    have exponents : (c.candidates tie place).1.exponent = place ∧
        (c.candidates tie place).2.exponent = place := by
      rcases pair with pair | pair <;> rw [pair] <;> exact ⟨rfl,rfl⟩
    simp only [search]
    split
    next contained => exact found contained (by omega)
    next nearMissed =>
      split
      next contained => exact found contained (by omega)
      next farMissed =>
        rcases Int.lt_or_eq_of_le above with finer | rfl
        · exact ih (by omega) (by push_cast at near; omega)
        · have adjacent := holds.adjacent whole narrow inside floor ceiling
          have contained : c.contains ⟨k,least⟩ = true := (contains_iff ⟨k,least⟩).mpr holds
          rcases pair with pair | pair <;> rw [pair] at nearMissed farMissed <;>
            rcases adjacent with rfl | rfl <;> contradiction

end Cell
open Cell

theorem Format.units_pos (f : Format) {m : ℕ} (some : 0 < m) : 0 < f.units m := by
  obtain ⟨n,rfl⟩ := Nat.exists_eq_succ_of_ne_zero (Nat.ne_of_gt some)
  rw [Nat.succ_eq_add_one,f.units_succ]
  exact Nat.add_pos_right _ (Nat.two_pow_pos _)

theorem Cell.inside_ofMagnitude (f : Format) {m : ℕ} (some : 0 < m) :
    (Cell.ofMagnitude f m).low ≤ (Cell.ofMagnitude f m).value ∧
      (Cell.ofMagnitude f m).value ≤ (Cell.ofMagnitude f m).high := by
  obtain ⟨n,rfl⟩ := Nat.exists_eq_succ_of_ne_zero (Nat.ne_of_gt some)
  have down := f.units_succ n
  have up := f.units_succ (n + 1)
  simp only [ofMagnitude,Nat.succ_eq_add_one,Nat.add_sub_cancel]
  generalize 2 ^ f.binade n = step at down
  generalize 2 ^ f.binade (n + 1) = step' at up
  omega

theorem Cell.leadingExponent_ofMagnitude (f : Format) {m : ℕ} (some : 0 < m) :
    (10 : ℚ) ^ (Cell.ofMagnitude f m).leadingExponent ≤ (Cell.ofMagnitude f m).number ∧
      (Cell.ofMagnitude f m).number < 10 ^ ((Cell.ofMagnitude f m).leadingExponent + 1) := by
  have whole : 0 < (Cell.ofMagnitude f m).whole := Nat.mul_pos (by decide) f.grain_pos
  refine leadingExponent_bounds whole ?_
  have value : 2 ≤ (Cell.ofMagnitude f m).value := Nat.le_mul_of_pos_right 2 (f.units_pos some)
  generalize Cell.ofMagnitude f m = c at *
  calc c.whole ≤ 2 ^ (c.whole.log2 + 1) := Nat.le_of_lt Nat.lt_log2_self
    _ = 2 * 2 ^ c.whole.log2 := Nat.pow_succ'
    _ ≤ c.value * Nat.pow 10 c.whole.log2 :=
      Nat.mul_le_mul value (Nat.pow_le_pow_left (by decide) _)

/-- No number needs more than seventeen digits. -/
theorem coefficient_shortest (tie : Tie) (f : Format) {m : ℕ} (some : 0 < m) :
    0 < (shortest tie f m).coefficient ∧ (shortest tie f m).coefficient ≤ 10 ^ 17 := by
  have whole : 0 < (Cell.ofMagnitude f m).whole := Nat.mul_pos (by decide) f.grain_pos
  obtain ⟨low,high⟩ := leadingExponent_ofMagnitude f some
  obtain ⟨positive,short⟩ := search_coefficient tie 16 whole low high
  exact ⟨(Scientific.coefficient_trimmed_pos _).mpr positive,
    Nat.le_trans (Scientific.coefficient_trimmed_le _) short⟩

/-- The cell of a number is narrow against the number, by all the bits of its significand. -/
theorem Cell.width_ofMagnitude {m : ℕ} (normal : double.implicitBit ≤ m) :
    (((Cell.ofMagnitude double m).high : ℚ) - (Cell.ofMagnitude double m).low) * 2 ^ 52 ≤
      (Cell.ofMagnitude double m).value := by
  have bit : double.implicitBit = 2 ^ 52 := rfl
  have width := double.high_sub_low_le (Nat.lt_of_lt_of_le double.implicitBit_pos normal)
  have significand : 2 ^ 52 ≤ double.significand m := by
    have parts := double.binade_mul_add m
    rcases (double.canonical_parts m).lowest with zero | least
    · rw [zero] at parts
      omega
    · exact least
  have value : 2 ^ 52 * 2 ^ double.binade m ≤ double.units m := by
    rw [Format.units_def]
    exact Nat.mul_le_mul_right _ significand
  have cast : ((double.units m + double.units (m + 1) : ℕ) : ℚ) ≤
      (double.units (m - 1) + double.units m : ℕ) + (2 * 2 ^ double.binade m : ℕ) := by
    exact_mod_cast width
  have cast' : ((2 ^ 52 * 2 ^ double.binade m : ℕ) : ℚ) ≤ double.units m := by exact_mod_cast value
  simp only [ofMagnitude]
  push_cast at cast cast' ⊢
  linarith

/-- Up to fifteen digits survive the way to a double and back. -/
theorem shortest_value (tie : Tie) {m k : ℕ} {e : ℤ} (normal : double.implicitBit ≤ m)
    (short : k < 10 ^ 15) (holds : (Cell.ofMagnitude double m).Holds (k * 10 ^ e)) :
    (shortest tie double m).value = k * 10 ^ e := by
  have some : 0 < m := Nat.lt_of_lt_of_le double.implicitBit_pos normal
  have whole : 0 < (Cell.ofMagnitude double m).whole := Nat.mul_pos (by decide) double.grain_pos
  have inside := inside_ofMagnitude double some
  have width := width_ofMagnitude normal
  obtain ⟨lead,lead'⟩ := leadingExponent_ofMagnitude double some
  rw [shortest,Scientific.value_trimmed]
  generalize Cell.ofMagnitude double m = c at *
  have whole_pos : (0 : ℚ) < c.whole := Nat.cast_pos.mpr whole
  have value : c.number * c.whole = c.value := div_mul_cancel₀ _ whole_pos.ne'
  obtain ⟨low,high⟩ := holds.between
  have power : (0 : ℚ) < 10 ^ e := by positivity
  have unit : 0 < (10 : ℚ) ^ e * c.whole := mul_pos power whole_pos
  have leading : 0 < (10 : ℚ) ^ c.leadingExponent * c.whole := mul_pos (by positivity) whole_pos
  have digits : (k + 1 : ℚ) ≤ 10 ^ 15 := by exact_mod_cast short
  have size : (k : ℚ) * 10 ^ e * c.whole ≤ (10 ^ 15 - 1) * (10 ^ e * c.whole) := by
    rw [mul_assoc]
    exact mul_le_mul_of_nonneg_right (by linarith) unit.le
  have most : (c.value : ℚ) ≤ c.high := Nat.cast_le.mpr inside.2
  have fine : (c.high : ℚ) - c.low < 10 ^ e * c.whole := by linarith
  have reached : (10 : ℚ) ^ c.leadingExponent * c.whole ≤ c.value :=
    value ▸ mul_le_mul_of_nonneg_right lead whole_pos.le
  rcases Int.lt_or_le c.leadingExponent e with coarse | ordered
  · -- the decimal is a power of ten that the number just misses
    have passed : (c.value : ℚ) < 10 * (10 ^ c.leadingExponent * c.whole) := by
      rw [← mul_assoc,← zpow_one_add₀ (by norm_num),add_comm,← value]
      exact mul_lt_mul_of_pos_right lead' whole_pos
    have finer : (c.high : ℚ) - c.low < 10 ^ c.leadingExponent * c.whole := by linarith
    rw [mul_zpow_of_le k coarse.le] at holds ⊢
    exact search_value whole finer holds inside (le_refl _) (by omega)
  · refine search_value whole fine holds inside ordered ?_
    by_contra far
    have long : (10 : ℚ) ^ (16 : ℕ) * (10 ^ e * c.whole) ≤ 10 ^ c.leadingExponent * c.whole := by
      rw [← mul_assoc,← zpow_natCast,← zpow_add₀ (by norm_num)]
      refine mul_le_mul_of_nonneg_right (zpow_le_zpow_right₀ (by norm_num) ?_) whole_pos.le
      push_cast at far ⊢
      omega
    linarith

end FluentSql.Binary

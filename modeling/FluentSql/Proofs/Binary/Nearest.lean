import FluentSql.Proofs.Binary.Widening
import Mathlib.Data.Nat.Dist

/-! Rounding to the nearest number of a format. No finite magnitude is closer to the exact value
than the one that rounding gives, and a value that the format holds is kept. -/
namespace FluentSql

theorem roundDiv_bounds (tie : Tie) (num den : Nat) :
    num / den ≤ roundDiv tie num den ∧ roundDiv tie num den ≤ num / den + 1 := by
  simp only [roundDiv]
  split
  · omega
  · split
    · omega
    · split <;> omega

theorem roundDiv_mul_right (tie : Tie) (num den : Nat) {k : Nat} (positive : 0 < k) :
    roundDiv tie (num * k) (den * k) = roundDiv tie num den := by
  have less (a b : Nat) : 2 * (a * k) < b * k ↔ 2 * a < b := by
    rw [← Nat.mul_assoc,Nat.mul_lt_mul_right positive]
  have more (a b : Nat) : b * k < 2 * (a * k) ↔ b < 2 * a := by
    rw [← Nat.mul_assoc,Nat.mul_lt_mul_right positive]
  simp only [roundDiv,Nat.mul_div_mul_right _ _ positive,Nat.mul_mod_mul_right,less,more]

/-- Of all multiples of the denominator none is closer to the numerator. -/
theorem roundDiv_closest (tie : Tie) (num k : Nat) {den : Nat} (positive : 0 < den) :
    Nat.dist (roundDiv tie num den * den) num ≤ Nat.dist (k * den) num := by
  have whole : num / den * den + num % den = num := Nat.div_add_mod' num den
  have rest := Nat.mod_lt num positive
  have next : (num / den + 1) * den = num / den * den + den := Nat.succ_mul ..
  have between : k * den ≤ num / den * den ∨ num / den * den + den ≤ k * den := by
    rcases Nat.lt_or_ge (num / den) k with above | below
    · exact .inr (next ▸ Nat.mul_le_mul_right den above)
    · exact .inl (Nat.mul_le_mul_right den below)
  simp only [roundDiv,Nat.dist]
  split
  · omega
  · split
    · omega
    · split <;> omega

namespace Binary.Format

variable {f : Format}

/-- Rounding up may reach the first significand of the next binade. -/
theorem units_of_le {s b : Nat} (most : s ≤ 2 * f.implicitBit)
    (lowest : b = 0 ∨ f.implicitBit ≤ s) : f.units (b * f.implicitBit + s) = s * 2 ^ b := by
  have positive := f.implicitBit_pos
  rcases Nat.lt_or_eq_of_le most with below | rfl
  · exact Canonical.units_eq ⟨below,lowest⟩
  · have canonical : f.Canonical f.implicitBit (b + 1) := ⟨by omega,.inr (Nat.le_refl _)⟩
    have next : b * f.implicitBit + 2 * f.implicitBit =
        (b + 1) * f.implicitBit + f.implicitBit := by
      rw [Nat.succ_mul b]
      omega
    rw [next,canonical.units_eq,Nat.pow_succ',← Nat.mul_assoc,Nat.mul_comm f.implicitBit]

/-- The binade of a quotient leaves so many bits of it as the format has. -/
theorem binade_bounds (wide : 0 < f.precision) (q : Nat) :
    q < 2 * f.implicitBit * 2 ^ (q.log2 + 1 - f.precision) ∧
      (q.log2 + 1 - f.precision = 0 ∨ f.implicitBit * 2 ^ (q.log2 + 1 - f.precision) ≤ q) := by
  constructor
  · rw [two_mul_implicitBit wide,← Nat.pow_add]
    exact Nat.lt_of_lt_of_le Nat.lt_log2_self (Nat.pow_le_pow_right (by decide) (by omega))
  · rcases Nat.eq_zero_or_pos (q.log2 + 1 - f.precision) with zero | some
    · exact .inl zero
    · right
      have nonzero : q ≠ 0 := by
        rintro rfl
        rw [Nat.log2_zero] at some
        omega
      have same : f.precision - 1 + (q.log2 + 1 - f.precision) = q.log2 := by omega
      calc f.implicitBit * 2 ^ (q.log2 + 1 - f.precision)
          = 2 ^ (f.precision - 1 + (q.log2 + 1 - f.precision)) := (Nat.pow_add ..).symm
        _ ≤ q := by
          rw [same]
          exact Nat.log2_self_le nonzero

/-- The significand that a value is rounded to. -/
theorem rounded_bounds (wide : 0 < f.precision) (scaled : Nat) {den b : Nat}
    (binade : (scaled / den).log2 + 1 - f.precision = b) :
    roundDiv .even scaled (den * 2 ^ b) ≤ 2 * f.implicitBit ∧
      (b = 0 ∨ f.implicitBit ≤ roundDiv .even scaled (den * 2 ^ b)) := by
  obtain ⟨above,lowest⟩ := binade_bounds wide (scaled / den)
  rw [binade] at above lowest
  have quotient : scaled / (den * 2 ^ b) = scaled / den / 2 ^ b := (Nat.div_div_eq_div_mul ..).symm
  obtain ⟨floor,ceiling⟩ := roundDiv_bounds .even scaled (den * 2 ^ b)
  rw [quotient] at floor ceiling
  constructor
  · rw [Nat.mul_comm] at above
    exact Nat.le_trans ceiling (Nat.div_lt_of_lt_mul above)
  · refine lowest.imp_right fun normal => ?_
    exact Nat.le_trans ((Nat.le_div_iff_mul_le (Nat.two_pow_pos b)).mpr normal) floor

theorem nearest_closest (wide : 0 < f.precision) (num : Nat) {den : Nat} (positive : 0 < den)
    (finite : f.nearest num den < f.infinity) (m : Nat) :
    Nat.dist (f.units (f.nearest num den) * den) (num * f.grain) ≤
      Nat.dist (f.units m * den) (num * f.grain) := by
  simp only [nearest] at finite ⊢
  generalize num * f.grain = scaled at finite ⊢
  generalize binade : (scaled / den).log2 + 1 - f.precision = b at finite ⊢
  obtain ⟨most,least⟩ := rounded_bounds wide scaled binade
  have value : f.units (min f.infinity
      (b * f.implicitBit + roundDiv .even scaled (den * Nat.pow 2 b))) * den =
      roundDiv .even scaled (den * 2 ^ b) * (den * 2 ^ b) := by
    rw [Nat.min_eq_right (by omega)]
    change f.units (b * f.implicitBit + roundDiv .even scaled (den * 2 ^ b)) * den = _
    rw [units_of_le most least,Nat.mul_assoc,Nat.mul_comm (2 ^ b)]
  have closest := fun k =>
    roundDiv_closest .even scaled k (Nat.mul_pos positive (Nat.two_pow_pos b))
  have below := (f.canonical_parts m).below
  rw [value,units_def]
  rcases Nat.lt_or_ge (f.binade m) b with coarse | fine
  · -- a number of a lower binade lies below the least number of this one
    have normal : f.implicitBit * 2 ^ b ≤ scaled / den := by
      obtain ⟨_,lowest⟩ := binade_bounds wide (scaled / den)
      rw [binade] at lowest
      exact lowest.resolve_left (by omega)
    have bound : f.significand m * 2 ^ f.binade m * den ≤ f.implicitBit * (den * 2 ^ b) := by
      calc f.significand m * 2 ^ f.binade m * den
          ≤ 2 * f.implicitBit * 2 ^ f.binade m * den :=
            Nat.mul_le_mul_right _ (Nat.mul_le_mul_right _ (Nat.le_of_lt below))
        _ = f.implicitBit * (den * 2 ^ (f.binade m + 1)) := by
          rw [Nat.pow_succ]
          ac_rfl
        _ ≤ f.implicitBit * (den * 2 ^ b) :=
            Nat.mul_le_mul_left _ (Nat.mul_le_mul_left _ (Nat.pow_le_pow_right (by decide) coarse))
    have reached : f.implicitBit * (den * 2 ^ b) ≤ scaled := by
      calc f.implicitBit * (den * 2 ^ b) = f.implicitBit * 2 ^ b * den := by ac_rfl
        _ ≤ scaled := (Nat.le_div_iff_mul_le positive).mp normal
    have := closest f.implicitBit
    simp only [Nat.dist] at this ⊢
    omega
  · have multiple : f.significand m * 2 ^ f.binade m * den =
        f.significand m * 2 ^ (f.binade m - b) * (den * 2 ^ b) := by
      rw [← Nat.sub_add_cancel fine,Nat.pow_add,Nat.add_sub_cancel]
      ac_rfl
    rw [multiple]
    exact closest _

theorem nearest_zero (wide : 0 < f.precision) {den : Nat} (positive : 0 < den) :
    f.nearest 0 den = 0 := by
  refine nearest_of_exact wide positive ?_ (Nat.zero_le _)
  rw [units_def,significand,Nat.zero_sub,Nat.zero_mul,Nat.zero_mul,Nat.zero_mul]

/-- Rounding depends on the quotient only. -/
theorem nearest_mul_right (f : Format) (num den : Nat) {k : Nat} (positive : 0 < k) :
    f.nearest (num * k) (den * k) = f.nearest num den := by
  simp only [nearest]
  rw [Nat.mul_right_comm num k,Nat.mul_div_mul_right _ _ positive,Nat.mul_right_comm den k,
    roundDiv_mul_right _ _ _ positive]

/-- Values of so few bits do not overflow. -/
theorem nearest_lt_infinity_of_lt (wide : 0 < f.precision) {num den d : Nat} (positive : 0 < den)
    (small : num < 2 ^ d * den)
    (room : d + Nat.pow 2 (f.exponentWidth - 1) + 2 < Nat.pow 2 f.exponentWidth) :
    f.nearest num den < f.infinity := by
  have bias : 0 < Nat.pow 2 (f.exponentWidth - 1) := Nat.pow_pos (by decide)
  have binade : (num * f.grain / den).log2 + 1 - f.precision = _ := rfl
  obtain ⟨most,_⟩ := rounded_bounds wide (num * f.grain) binade
  have exponent : (num * f.grain / den).log2 <
      d + (Nat.pow 2 (f.exponentWidth - 1) + f.precision - 3) + 1 := by
    rcases Nat.eq_zero_or_pos (num * f.grain / den) with zero | some
    · rw [zero,Nat.log2_zero]
      exact Nat.succ_pos _
    · apply Nat.lt_succ_of_lt
      apply (Nat.log2_lt (Nat.ne_of_gt some)).mpr
      rw [Nat.div_lt_iff_lt_mul positive]
      calc num * f.grain < 2 ^ d * den * f.grain := Nat.mul_lt_mul_of_pos_right small f.grain_pos
        _ = 2 ^ d * f.grain * den := Nat.mul_right_comm ..
        _ = 2 ^ (d + (Nat.pow 2 (f.exponentWidth - 1) + f.precision - 3)) * den :=
          congrArg (· * den) (Nat.pow_add ..).symm
  simp only [nearest]
  generalize binade : (num * f.grain / den).log2 + 1 - f.precision = b at most
  apply Nat.lt_of_le_of_lt (Nat.min_le_right ..)
  calc b * f.implicitBit + roundDiv .even (num * f.grain) (den * Nat.pow 2 b)
      ≤ b * f.implicitBit + 2 * f.implicitBit := Nat.add_le_add_left most _
    _ = (b + 2) * f.implicitBit := (Nat.add_mul ..).symm
    _ < (Nat.pow 2 f.exponentWidth - 1) * f.implicitBit :=
      Nat.mul_lt_mul_of_pos_right (by omega) f.implicitBit_pos

theorem nearest_lt_infinity (wide : 0 < f.precision) {num d : Nat} (small : num < 2 ^ d)
    (room : d + Nat.pow 2 (f.exponentWidth - 1) + 2 < Nat.pow 2 f.exponentWidth) :
    f.nearest num 1 < f.infinity :=
  nearest_lt_infinity_of_lt wide Nat.one_pos (by rwa [Nat.mul_one]) room

/-- The integers that a format holds are those that have no more digits than its significands,
but for zeros at the end. -/
theorem units_nearest_eq_iff (wide : 0 < f.precision) {num : Nat}
    (finite : f.nearest num 1 < f.infinity) : f.units (f.nearest num 1) = num * f.grain ↔
      ∃ s b : Nat, s < 2 ^ f.precision ∧ num = s * 2 ^ b := by
  obtain ⟨g,grain⟩ : ∃ g, f.grain = 2 ^ g := ⟨_,rfl⟩
  constructor
  · intro exact
    have below := (f.canonical_parts (f.nearest num 1)).below
    rw [units_def,grain] at exact
    rw [two_mul_implicitBit wide] at below
    generalize f.significand (f.nearest num 1) = s at exact below
    generalize f.binade (f.nearest num 1) = b at exact
    rcases Nat.le_total g b with whole | fraction
    · refine ⟨s,b - g,below,?_⟩
      apply Nat.eq_of_mul_eq_mul_right (Nat.two_pow_pos g)
      rw [← exact,Nat.mul_assoc,← Nat.pow_add,Nat.sub_add_cancel whole]
    · have shifted : s = num * 2 ^ (g - b) := by
        apply Nat.eq_of_mul_eq_mul_right (Nat.two_pow_pos b)
        rw [exact,Nat.mul_assoc,← Nat.pow_add,Nat.sub_add_cancel fraction]
      have short := Nat.le_mul_of_pos_right num (Nat.two_pow_pos (g - b))
      exact ⟨num,0,by omega,(Nat.mul_one num).symm⟩
  · rintro ⟨s,b,fits,rfl⟩
    obtain ⟨m,same,_⟩ := exists_units_eq wide (b + g) fits
    have closest := nearest_closest wide (s * 2 ^ b) Nat.one_pos finite m
    have held : f.units m = s * 2 ^ b * f.grain := by rw [same,grain,Nat.pow_add,Nat.mul_assoc]
    rw [held,Nat.mul_one,Nat.mul_one,Nat.dist_self] at closest
    exact Nat.eq_of_dist_eq_zero (Nat.le_zero.mp closest)

end Binary.Format
end FluentSql

import FluentSql.Binary.Basic
import Mathlib.Algebra.Group.Nat.Defs

/-! Numbers that a format holds exactly. A magnitude is a significand and a power of two, and
rounding a value that some magnitude has gives that magnitude back. -/
namespace FluentSql.Binary.Format

variable {f : Format}

theorem implicitBit_pos (f : Format) : 0 < f.implicitBit := Nat.pow_pos (by decide)

theorem two_mul_implicitBit (wide : 0 < f.precision) : 2 * f.implicitBit = 2 ^ f.precision := by
  obtain ⟨p,same⟩ := Nat.exists_eq_succ_of_ne_zero (Nat.ne_of_gt wide)
  rw [implicitBit,same,Nat.succ_sub_one,Nat.pow_succ']
  rfl

/-- A significand that goes with a binade: one below the implicit bit has the lowest binade. -/
structure Canonical (f : Format) (s b : Nat) : Prop where
  below : s < 2 * f.implicitBit
  lowest : b = 0 ∨ f.implicitBit ≤ s

namespace Canonical

variable {s b : Nat}

theorem binade_eq (canonical : f.Canonical s b) : f.binade (b * f.implicitBit + s) = b := by
  have positive := f.implicitBit_pos
  have below := canonical.below
  rw [binade,Nat.add_comm,Nat.add_mul_div_right _ _ positive]
  rcases Nat.lt_or_ge s f.implicitBit with small | large
  · have zero : b = 0 := canonical.lowest.resolve_right (by omega)
    rw [Nat.div_eq_of_lt small,zero]
  · have one : s / f.implicitBit = 1 := by
      rw [Nat.div_eq_iff positive]
      omega
    omega

theorem significand_eq (canonical : f.Canonical s b) :
    f.significand (b * f.implicitBit + s) = s := by
  rw [significand,canonical.binade_eq,Nat.add_sub_cancel_left]

theorem units_eq (canonical : f.Canonical s b) :
    f.units (b * f.implicitBit + s) = s * 2 ^ b := by
  rw [units,canonical.significand_eq,canonical.binade_eq]
  rfl

end Canonical

theorem canonical_parts (f : Format) (m : Nat) : f.Canonical (f.significand m) (f.binade m) := by
  have positive := f.implicitBit_pos
  have parts : f.implicitBit * (m / f.implicitBit) + m % f.implicitBit = m := Nat.div_add_mod ..
  have rest := Nat.mod_lt m positive
  rw [Nat.mul_comm] at parts
  rcases Nat.eq_zero_or_pos (m / f.implicitBit) with zero | some
  · have lowest : f.binade m = 0 := by rw [binade,zero]
    refine ⟨?_,.inl lowest⟩
    rw [significand,lowest,Nat.zero_mul]
    rw [zero,Nat.zero_mul] at parts
    omega
  · obtain ⟨b,same⟩ := Nat.exists_eq_succ_of_ne_zero (Nat.ne_of_gt some)
    have binade : f.binade m = b := by rw [binade,same,Nat.succ_sub_one]
    rw [same,Nat.succ_mul] at parts
    have significand : f.significand m = f.implicitBit + m % f.implicitBit := by
      rw [significand,binade]
      omega
    exact ⟨by omega,.inr (by omega)⟩

theorem binade_mul_add (f : Format) (m : Nat) :
    f.binade m * f.implicitBit + f.significand m = m := by
  have parts : f.binade m * f.implicitBit ≤ m := by
    rw [binade,Nat.sub_mul,Nat.one_mul]
    exact Nat.le_trans (Nat.sub_le _ _) (Nat.div_mul_le_self m _)
  rw [significand]
  omega

theorem units_def (f : Format) (m : Nat) : f.units m = f.significand m * 2 ^ f.binade m := rfl

/-- The binade is found again from the value. -/
theorem log2_units (wide : 0 < f.precision) (m : Nat) :
    (f.units m).log2 + 1 - f.precision = f.binade m := by
  obtain ⟨below,lowest⟩ := f.canonical_parts m
  rw [two_mul_implicitBit wide] at below
  rw [units_def]
  rcases lowest with zero | normal
  · rw [zero,Nat.pow_zero,Nat.mul_one]
    rcases Nat.eq_zero_or_pos (f.significand m) with none | some
    · rw [none,Nat.log2_zero]
      omega
    · have := (Nat.log2_lt (Nat.ne_of_gt some)).mpr below
      omega
  · have positive := f.implicitBit_pos
    have power : 0 < 2 ^ f.binade m := Nat.two_pow_pos _
    have nonzero : f.significand m * 2 ^ f.binade m ≠ 0 :=
      Nat.ne_of_gt (Nat.mul_pos (Nat.lt_of_lt_of_le positive normal) power)
    have exponent : (f.significand m * 2 ^ f.binade m).log2 = f.precision - 1 + f.binade m := by
      rw [Nat.log2_eq_iff nonzero,Nat.add_right_comm,Nat.sub_add_cancel wide,Nat.pow_add,
        Nat.pow_add]
      exact ⟨Nat.mul_le_mul_right _ normal,Nat.mul_lt_mul_of_pos_right below power⟩
    rw [exponent]
    omega

/-- A value that a magnitude has is rounded to that magnitude. -/
theorem nearest_of_exact (wide : 0 < f.precision) {num den m : Nat} (positive : 0 < den)
    (exact : num * f.grain = f.units m * den) (bounded : m ≤ f.infinity) :
    f.nearest num den = m := by
  have quotient : num * f.grain / den = f.units m := by rw [exact,Nat.mul_div_cancel _ positive]
  have rounded : roundDiv .even (num * f.grain) (den * Nat.pow 2 (f.binade m)) =
      f.significand m := by
    rw [exact,units_def,Nat.mul_right_comm,Nat.mul_assoc]
    exact roundDiv_mul_self _ _ (Nat.mul_pos positive (Nat.pow_pos (by decide)))
  simp only [nearest]
  rw [quotient,log2_units wide,rounded,binade_mul_add,Nat.min_eq_right bounded]

/-- A number of no more digits than the precision is the value of some magnitude. -/
theorem exists_units_eq (wide : 0 < f.precision) {s : Nat} (b : Nat) (fits : s < 2 ^ f.precision) :
    ∃ m, f.units m = s * 2 ^ b ∧ m < (b + 2) * f.implicitBit := by
  have twice := two_mul_implicitBit wide
  have positive := f.implicitBit_pos
  rcases Nat.eq_zero_or_pos s with rfl | some
  · refine ⟨0,?_,Nat.mul_pos (by omega) positive⟩
    rw [units_def,significand,Nat.zero_sub,Nat.zero_mul,Nat.zero_mul]
  · have exponent : s.log2 < f.precision := (Nat.log2_lt (Nat.ne_of_gt some)).mpr fits
    -- shifting moves digits from the power of two to the significand, as far as there are any
    let shift := min b (f.precision - 1 - s.log2)
    have upper : s * 2 ^ shift < 2 ^ f.precision := by
      calc s * 2 ^ shift < 2 ^ (s.log2 + 1) * 2 ^ shift :=
            Nat.mul_lt_mul_of_pos_right Nat.lt_log2_self (Nat.two_pow_pos _)
        _ = 2 ^ (s.log2 + 1 + shift) := (Nat.pow_add ..).symm
        _ ≤ 2 ^ f.precision := Nat.pow_le_pow_right (by decide) (by omega)
    have canonical : f.Canonical (s * 2 ^ shift) (b - shift) := by
      refine ⟨by omega,?_⟩
      rcases Nat.le_total b (f.precision - 1 - s.log2) with low | high
      · exact .inl (by omega)
      · right
        have same : f.precision - 1 = s.log2 + shift := by omega
        calc f.implicitBit = 2 ^ (s.log2 + shift) := by rw [implicitBit,same]; rfl
          _ = 2 ^ s.log2 * 2 ^ shift := Nat.pow_add ..
          _ ≤ s * 2 ^ shift := Nat.mul_le_mul_right _ (Nat.log2_self_le (Nat.ne_of_gt some))
    refine ⟨(b - shift) * f.implicitBit + s * 2 ^ shift,?_,?_⟩
    · rw [canonical.units_eq,Nat.mul_assoc,← Nat.pow_add,Nat.add_sub_cancel' (Nat.min_le_left ..)]
    · calc (b - shift) * f.implicitBit + s * 2 ^ shift
          < (b - shift) * f.implicitBit + 2 * f.implicitBit := by omega
        _ = (b - shift + 2) * f.implicitBit := (Nat.add_mul ..).symm
        _ ≤ (b + 2) * f.implicitBit := Nat.mul_le_mul_right _ (by omega)

theorem nearest_le_infinity (f : Format) (num den : Nat) : f.nearest num den ≤ f.infinity :=
  Nat.min_le_left ..

end FluentSql.Binary.Format

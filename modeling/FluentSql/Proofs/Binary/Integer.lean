import FluentSql.Proofs.Binary.Nearest
import FluentSql.Proofs.Value.Number
import Mathlib.Algebra.Order.AbsoluteValue.Basic
import Mathlib.Algebra.Order.Field.Basic
import Mathlib.Algebra.Order.Ring.Rat

/-! Integers as floats. The float of an integer is the closest number of the format, and is the
integer itself where the digits of the integer fit in a significand. -/
namespace FluentSql

theorem abs_withSign_sub (negative : Bool) (a b : ℚ) :
    |withSign negative a - withSign negative b| = |a - b| := by
  cases negative with
  | false => rfl
  | true =>
    have flipped : -a - -b = -(a - b) := by rw [neg_sub_neg,neg_sub]
    rw [withSign,withSign,if_pos rfl,if_pos rfl,flipped,abs_neg]

/-- Signs only take magnitudes further apart. -/
theorem abs_sub_le_abs_withSign_sub {a b : ℚ} (ha : 0 ≤ a) (hb : 0 ≤ b) (s t : Bool) :
    |a - b| ≤ |withSign s a - withSign t b| := by
  have sizes (negative : Bool) {c : ℚ} (hc : 0 ≤ c) : |withSign negative c| = c := by
    cases negative with
    | false => exact abs_of_nonneg hc
    | true => exact (abs_neg c).trans (abs_of_nonneg hc)
  have apart := abs_abs_sub_abs_le_abs_sub (withSign s a) (withSign t b)
  rwa [sizes s ha,sizes t hb] at apart

theorem intCast_eq_withSign (n : ℤ) : (n : ℚ) = withSign (decide (n < 0)) n.natAbs := by
  rcases Int.lt_or_le n 0 with below | above
  · have size : n = -(n.natAbs : ℤ) := by omega
    rw [decide_eq_true below,withSign,if_pos rfl,← Int.cast_natCast (R := ℚ),← Int.cast_neg]
    exact congrArg Int.cast size
  · have size : n = (n.natAbs : ℤ) := by omega
    rw [decide_eq_false (Int.not_lt.mpr above),← Int.cast_natCast (R := ℚ)]
    exact congrArg Int.cast size

namespace Binary.Format

/-- The number of a magnitude with a sign, up to the last before infinity. -/
def number? (f : Format) (negative : Bool) (m : ℕ) : Option ℚ :=
  if m < f.infinity then some (withSign negative (f.units m / f.grain)) else none

theorem abs_units_div_sub (f : Format) (m n : ℕ) :
    |(f.units m / f.grain : ℚ) - n| = Nat.dist (f.units m) (n * f.grain) / f.grain := by
  have positive : (0 : ℚ) < f.grain := Nat.cast_pos.mpr f.grain_pos
  have apart (a b : ℕ) : |(a : ℚ) - b| = Nat.dist a b := by
    rcases Nat.le_total a b with le | ge
    · rw [Nat.dist_eq_sub_of_le le,Nat.cast_sub le,abs_sub_comm,
        abs_of_nonneg (sub_nonneg.mpr (Nat.cast_le.mpr le))]
    · rw [Nat.dist_eq_sub_of_le_right ge,Nat.cast_sub ge,
        abs_of_nonneg (sub_nonneg.mpr (Nat.cast_le.mpr ge))]
  rw [← apart,eq_div_iff (ne_of_gt positive),← abs_of_pos positive,← abs_mul,abs_of_pos positive,
    sub_mul,div_mul_cancel₀ _ (ne_of_gt positive),Nat.cast_mul]

/-- What rounding an integer gives. -/
structure Rounds (f : Format) (n : ℤ) (q : ℚ) : Prop where
  /-- No number of the format is closer. -/
  closest : ∀ (negative : Bool) (m : ℕ) (r : ℚ), f.number? negative m = some r →
    |q - n| ≤ |r - n|
  /-- It is the integer where that fits, up to zeros at the end. -/
  exact_iff : q = n ↔ ∃ s b : ℕ, s < 2 ^ f.precision ∧ n.natAbs = s * 2 ^ b

theorem exists_rounds {f : Format} (wide : 0 < f.precision) {n : ℤ}
    (finite : f.nearest n.natAbs 1 < f.infinity) :
    ∃ q, f.number? (decide (n < 0)) (f.nearest n.natAbs 1) = some q ∧ f.Rounds n q := by
  have grain : (0 : ℚ) < f.grain := Nat.cast_pos.mpr f.grain_pos
  have size (m : ℕ) : (0 : ℚ) ≤ f.units m / f.grain := div_nonneg (Nat.cast_nonneg _) grain.le
  refine ⟨_,if_pos finite,?_,?_⟩
  · intro negative m r number
    rw [number?] at number
    split at number
    next =>
      obtain rfl := Option.some.inj number
      have closest := nearest_closest wide n.natAbs Nat.one_pos finite m
      rw [Nat.mul_one,Nat.mul_one] at closest
      rw [intCast_eq_withSign n,abs_withSign_sub]
      calc |(f.units (f.nearest n.natAbs 1) / f.grain : ℚ) - n.natAbs|
          ≤ |(f.units m / f.grain : ℚ) - n.natAbs| := by
            rw [abs_units_div_sub,abs_units_div_sub]
            exact div_le_div_of_nonneg_right (Nat.cast_le.mpr closest) grain.le
        _ ≤ _ := abs_sub_le_abs_withSign_sub (size m) (Nat.cast_nonneg _) ..
    next => cases number
  · rw [← units_nearest_eq_iff wide finite,intCast_eq_withSign n,← sub_eq_zero,← abs_eq_zero,
      abs_withSign_sub,abs_eq_zero,sub_eq_zero,div_eq_iff (ne_of_gt grain)]
    exact_mod_cast Iff.rfl

end Binary.Format

open Binary

namespace Binary64

theorem number?_eq_format (x : Binary64) : x.number? = double.number? x.negative x.magnitude := by
  rw [number?_eq,Format.number?,isFinite,units]
  simp only [decide_eq_true_eq]

theorem exists_number?_ofInt {n : ℤ} (small : n.natAbs < 2 ^ 64) :
    ∃ q, (ofInt n).number? = some q ∧ double.Rounds n q := by
  have finite := double.nearest_lt_infinity (by decide) small (by decide)
  have fits : double.nearest n.natAbs 1 < 2 ^ 63 := Nat.lt_trans finite (by decide)
  obtain ⟨q,number,rounds⟩ := Format.exists_rounds (by decide) finite
  refine ⟨q,?_,rounds⟩
  rw [number?_eq_format,ofInt,ofRatio,negative_ofMagnitude _ fits,magnitude_ofMagnitude _ fits,number]

end Binary64

namespace Binary32

def exponent (x : Binary32) : ℕ := x.magnitude / 2 ^ 23
def fraction (x : Binary32) : ℕ := x.magnitude % 2 ^ 23

/-- What the bits stand for, as in double precision with other widths. -/
def number? (x : Binary32) : Option ℚ :=
  if x.exponent = 255 then none
  else if x.exponent = 0 then some (withSign x.negative (x.fraction * 2 ^ (-149 : ℤ)))
  else some (withSign x.negative ((2 ^ 23 + x.fraction : ℕ) * 2 ^ (x.exponent - 150 : ℤ)))

theorem number?_eq_format (x : Binary32) : x.number? = single.number? x.negative x.magnitude := by
  obtain ⟨g,grain,size⟩ : ∃ g : ℕ, single.grain = Nat.pow 2 g ∧ g = 149 :=
    ⟨_,Format.grain.eq_1 single,rfl⟩
  have value := single.units_div_grain x.magnitude grain
  change _ = if x.exponent = 0 then x.fraction * (2 : ℚ) ^ (-g : ℤ)
    else (2 ^ 23 + x.fraction : ℕ) * (2 : ℚ) ^ (x.exponent - 1 - g : ℤ) at value
  have finite : x.magnitude < single.infinity ↔ x.exponent ≠ 255 := by
    have below := x.magnitude_lt
    rw [Format.infinity_single,exponent]
    omega
  rw [number?,Format.number?]
  by_cases infinite : x.exponent = 255
  · rw [if_pos infinite,if_neg fun small => finite.mp small infinite]
  · rw [if_neg infinite,if_pos (finite.mpr infinite),value]
    have step : (x.exponent - 150 : ℤ) = x.exponent - 1 - g := by omega
    rw [step,size]
    split <;> rfl

theorem exists_number?_ofInt {n : ℤ} (small : n.natAbs < 2 ^ 64) :
    ∃ q, (ofInt n).number? = some q ∧ single.Rounds n q := by
  have finite := single.nearest_lt_infinity (by decide) small (by decide)
  have fits : single.nearest n.natAbs 1 < 2 ^ 31 := Nat.lt_trans finite (by decide)
  obtain ⟨q,number,rounds⟩ := Format.exists_rounds (by decide) finite
  refine ⟨q,?_,rounds⟩
  rw [number?_eq_format,ofInt,negative_ofMagnitude _ fits,magnitude_ofMagnitude _ fits,number]

end Binary32
end FluentSql

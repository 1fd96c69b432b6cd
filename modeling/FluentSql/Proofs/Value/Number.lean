import FluentSql.Proofs.Binary.Widening
import FluentSql.Proofs.Text.Numeral
import FluentSql.Text.Blank
import FluentSql.Value
import Mathlib.Algebra.Field.Rat
import Mathlib.Algebra.GroupWithZero.Units.Basic
import Mathlib.Data.Nat.Cast.Field

/-! The numbers that values denote, as exact rationals. Integers, decimals and finite floats
denote one, and so does a text that is a numeral but for the blanks around it. -/
namespace FluentSql
open Binary

def withSign (negative : Bool) (magnitude : ℚ) : ℚ := if negative then -magnitude else magnitude

/-- A fraction is an integer where its denominator divides its numerator. -/
theorem withSign_div_eq_intCast_iff {negative : Bool} {num den : ℕ} (positive : 0 < den) {k : ℤ} :
    withSign negative (num / den) = k ↔
      num % den = 0 ∧ (if negative then -((num / den : ℕ) : ℤ) else (num / den : ℕ)) = k := by
  have nonzero : (den : ℚ) ≠ 0 := Nat.cast_ne_zero.mpr (Nat.ne_of_gt positive)
  constructor
  · intro value
    have product : (num : ℤ) = (if negative then -k else k) * den := by
      have ratio : (num / den : ℚ) = ((if negative then -k else k : ℤ) : ℚ) := by
        cases negative with
        | false => exact value
        | true =>
          rw [if_pos rfl,Int.cast_neg,← value]
          exact (neg_neg _).symm
      exact_mod_cast (div_eq_iff nonzero).mp ratio
    have divides : den ∣ num := Int.natCast_dvd_natCast.mp ⟨_,by rw [product,mul_comm]⟩
    have quotient : ((num / den : ℕ) : ℤ) = if negative then -k else k := by
      rw [Int.natCast_ediv,product,Int.mul_ediv_cancel _ (by omega)]
    refine ⟨Nat.mod_eq_zero_of_dvd divides,?_⟩
    rw [quotient]
    cases negative <;> simp
  · rintro ⟨whole,rfl⟩
    rw [← Nat.cast_div (Nat.dvd_of_mod_eq_zero whole) nonzero]
    cases negative <;> simp only [withSign,if_true,Bool.false_eq_true,if_false,Int.cast_neg,
      Int.cast_natCast]

namespace Binary.Format

/-- A power of two below the grain is a fraction of the grain. -/
private theorem mul_zpow_eq (s : ℕ) {b g : ℕ} {e : ℤ} (same : e = b - g) :
    (s * 2 ^ e : ℚ) = (s * Nat.pow 2 b : ℕ) / (Nat.pow 2 g : ℕ) := by
  have power (n : ℕ) : ((Nat.pow 2 n : ℕ) : ℚ) = 2 ^ (n : ℤ) := by
    rw [zpow_natCast]
    exact Nat.cast_pow 2 n
  rw [Nat.cast_mul,power,power,same,zpow_sub₀ (by decide),mul_div_assoc]

/-- The value of a magnitude by its exponent and its fraction. The step between neighbours grows
with the exponent, from that of the least numbers, which have no leading one. -/
theorem units_div_grain (f : Format) (m : ℕ) {g : ℕ} (grain : f.grain = Nat.pow 2 g) :
    (f.units m / f.grain : ℚ) =
      if m / f.implicitBit = 0 then (m % f.implicitBit : ℕ) * (2 : ℚ) ^ (-g : ℤ)
      else (f.implicitBit + m % f.implicitBit : ℕ) *
        (2 : ℚ) ^ ((m / f.implicitBit : ℕ) - 1 - g : ℤ) := by
  have whole : m / f.implicitBit * f.implicitBit + m % f.implicitBit = m := Nat.div_add_mod' ..
  have parts := f.binade_mul_add m
  have binade : f.binade m = m / f.implicitBit - 1 := rfl
  rw [units_def,grain]
  split
  next least =>
    have step : (-g : ℤ) = (0 : ℕ) - g := by omega
    rw [least,Nat.zero_sub] at binade
    rw [least,Nat.zero_mul,Nat.zero_add] at whole
    rw [binade,Nat.zero_mul,Nat.zero_add] at parts
    rw [mul_zpow_eq _ step,binade,parts,whole]
    rfl
  next normal =>
    obtain ⟨e,exponent⟩ := Nat.exists_eq_succ_of_ne_zero normal
    have step : ((e + 1 : ℕ) - 1 - g : ℤ) = e - g := by omega
    rw [exponent,Nat.succ_sub_one] at binade
    rw [exponent,Nat.succ_mul] at whole
    rw [binade] at parts
    have significand : f.significand m = f.implicitBit + m % f.implicitBit := by omega
    rw [exponent,mul_zpow_eq _ step,binade,significand]
    rfl

end Binary.Format

namespace Binary64

def exponent (x : Binary64) : ℕ := x.magnitude / 2 ^ 52
def fraction (x : Binary64) : ℕ := x.magnitude % 2 ^ 52

/-- What the bits stand for. The greatest exponent is for infinities and for what is no number,
and the least for numbers without a leading one. -/
def number? (x : Binary64) : Option ℚ :=
  if x.exponent = 2047 then none
  else if x.exponent = 0 then some (withSign x.negative (x.fraction * 2 ^ (-1074 : ℤ)))
  else some (withSign x.negative ((2 ^ 52 + x.fraction : ℕ) * 2 ^ (x.exponent - 1075 : ℤ)))

theorem exponent_le (x : Binary64) : x.exponent ≤ 2047 := by
  have below : x.magnitude < 2 ^ 63 := Nat.mod_lt _ (by decide)
  rw [exponent]
  omega

theorem isFinite_iff {x : Binary64} : x.isFinite = true ↔ x.exponent ≠ 2047 := by
  have most := x.exponent_le
  rw [exponent] at most ⊢
  rw [isFinite,decide_eq_true_eq,Format.infinity_double]
  omega

theorem number?_eq (x : Binary64) :
    x.number? = if x.isFinite then some (withSign x.negative (x.units / double.grain)) else none := by
  -- the power is too large to be met as a numeral
  obtain ⟨g,grain,size⟩ : ∃ g : ℕ, double.grain = Nat.pow 2 g ∧ g = 1074 :=
    ⟨_,Format.grain.eq_1 double,rfl⟩
  have value := double.units_div_grain x.magnitude grain
  change _ = if x.exponent = 0 then x.fraction * (2 : ℚ) ^ (-g : ℤ)
    else (2 ^ 52 + x.fraction : ℕ) * (2 : ℚ) ^ (x.exponent - 1 - g : ℤ) at value
  rw [number?]
  by_cases infinite : x.exponent = 2047
  · rw [if_pos infinite,if_neg fun finite => isFinite_iff.mp finite infinite]
  · rw [if_neg infinite,if_pos (isFinite_iff.mpr infinite),units,value]
    have step : (x.exponent - 1075 : ℤ) = x.exponent - 1 - g := by omega
    rw [step,size]
    split <;> rfl

theorem number?_eq_intCast_iff {x : Binary64} {k : ℤ} :
    x.number? = some (k : ℚ) ↔ x.isInteger = true ∧ x.toInt = k := by
  rw [number?_eq,isInteger,Bool.and_eq_true,beq_iff_eq,toInt]
  by_cases finite : x.isFinite = true
  · rw [if_pos finite,Option.some_inj,withSign_div_eq_intCast_iff double.grain_pos]
    simp only [finite,true_and]
  · rw [if_neg finite]
    exact ⟨nofun,fun whole => absurd whole.1.1 finite⟩

/-- But for the two zeros no two doubles denote the same integer. -/
theorem eq_ofInt_of_number? {x : Binary64} {k : ℤ} (number : x.number? = some (k : ℚ))
    (nonzero : k ≠ 0) : x = .ofInt k := by
  obtain ⟨integral,value⟩ := number?_eq_intCast_iff.mp number
  simp only [isInteger,Bool.and_eq_true,beq_iff_eq] at integral
  obtain ⟨finite,whole⟩ := integral
  have sign : decide (k < 0) = x.negative := by
    rw [toInt] at value
    generalize x.units / double.grain = size at value
    cases negative : x.negative <;> simp only [negative,if_true,Bool.false_eq_true,if_false] at value
    · exact decide_eq_false (by omega)
    · exact decide_eq_true (by omega)
  have size : k.natAbs = x.units / double.grain := by
    rw [← value,toInt]
    split
    · rw [Int.natAbs_neg,Int.natAbs_natCast]
    · exact Int.natAbs_natCast _
  have exact : k.natAbs * double.grain = double.units x.magnitude * 1 := by
    rw [size,Nat.mul_one]
    exact Nat.div_mul_cancel (Nat.dvd_of_mod_eq_zero whole)
  have bounded : x.magnitude ≤ double.infinity := by
    rw [isFinite,decide_eq_true_eq] at finite
    exact Nat.le_of_lt finite
  rw [ofInt,ofRatio,sign,Format.nearest_of_exact (by decide) Nat.one_pos exact bounded,
    ofMagnitude_magnitude]

end Binary64

namespace Decimal

def number (d : Decimal) : ℚ := withSign d.negative (d.coefficient / d.unit)

theorem number_eq_intCast_iff {d : Decimal} {k : ℤ} :
    d.number = k ↔ d.isInteger = true ∧ d.toInt = k := by
  have positive : 0 < d.unit := Nat.pow_pos (by decide)
  rw [number,withSign_div_eq_intCast_iff positive,isInteger,beq_iff_eq,toInt]

theorem number_ofInt64 (n : Int64) : (ofInt64 n).number = n.toInt := by
  refine number_eq_intCast_iff.mpr ⟨?_,?_⟩
  · rw [isInteger,beq_iff_eq]
    exact Nat.mod_one _
  · have whole : (ofInt64 n).coefficient / (ofInt64 n).unit = n.toInt.natAbs := Nat.div_one _
    have sign : (ofInt64 n).negative = decide (n.toInt < 0) :=
      decide_eq_decide.mpr Int64.lt_iff_toInt_lt
    rw [toInt,whole,sign]
    simp only [decide_eq_true_eq]
    split <;> omega

end Decimal

/-- The number of a value, if it denotes one. -/
def Value.number? : Value → Option ℚ
  | .int n => some n.toInt
  | .float x => x.number?
  | .decimal d => some d.number
  | .text s => (Numeral.integer? (Text.trim s.toList)).map fun n : ℤ => (n : ℚ)
  | _ => none

end FluentSql

import FluentSql.Proofs.Binary.Exact

/-! Single-precision numbers in double precision and back. Widening is exact, so narrowing
returns the number; only a NaN that is not quiet becomes another one. -/
namespace FluentSql
open Binary

namespace Binary64

variable {m : Nat}

theorem magnitude_ofMagnitude (negative : Bool) (fits : m < 2 ^ 63) :
    (ofMagnitude negative m).magnitude = m := by
  rw [ofMagnitude,magnitude,UInt64.toNat_ofNat']
  cases negative <;> simp <;> omega

theorem negative_ofMagnitude (negative : Bool) (fits : m < 2 ^ 63) :
    (ofMagnitude negative m).negative = negative := by
  rw [ofMagnitude,Binary64.negative,UInt64.toNat_ofNat']
  cases negative <;> simp <;> omega

theorem ofMagnitude_magnitude (x : Binary64) : ofMagnitude x.negative x.magnitude = x := by
  have bound := x.bits.toNat_lt
  have whole : (if x.negative then 2 ^ 63 else 0) + x.magnitude = x.bits.toNat := by
    simp only [Binary64.negative,magnitude,decide_eq_true_eq]
    split <;> omega
  rw [ofMagnitude,whole,UInt64.ofNat_toNat]

end Binary64

namespace Binary32

variable {m : Nat} {y : Binary32}

theorem magnitude_ofMagnitude (negative : Bool) (fits : m < 2 ^ 31) :
    (ofMagnitude negative m).magnitude = m := by
  rw [ofMagnitude,magnitude,UInt32.toNat_ofNat']
  cases negative <;> simp <;> omega

theorem negative_ofMagnitude (negative : Bool) (fits : m < 2 ^ 31) :
    (ofMagnitude negative m).negative = negative := by
  rw [ofMagnitude,Binary32.negative,UInt32.toNat_ofNat']
  cases negative <;> simp <;> omega

theorem ofMagnitude_magnitude (y : Binary32) : ofMagnitude y.negative y.magnitude = y := by
  have bound := y.bits.toNat_lt
  have whole : (if y.negative then 2 ^ 31 else 0) + y.magnitude = y.bits.toNat := by
    simp only [negative,magnitude,decide_eq_true_eq]
    split <;> omega
  rw [ofMagnitude,whole,UInt32.ofNat_toNat]

theorem magnitude_lt (y : Binary32) : y.magnitude < 2 ^ 31 := Nat.mod_lt _ (by decide)

/-- Everything but the NaNs that a conversion would make quiet. -/
def Settled (y : Binary32) : Prop :=
  y.magnitude ≤ single.infinity ∨ single.infinity + 2 ^ 22 ≤ y.magnitude

end Binary32

namespace Binary.Format

theorem infinity_single : single.infinity = 255 * 2 ^ 23 := rfl

theorem infinity_double : double.infinity = 2047 * 2 ^ 52 := rfl

theorem grain_pos (f : Format) : 0 < f.grain := Nat.pow_pos (by decide)

/-- The grain of double precision is the finer one. -/
theorem exists_grain_double : ∃ k ≤ 925, double.grain = single.grain * 2 ^ k := by
  have exponent : Nat.pow 2 (double.exponentWidth - 1) + double.precision - 3 =
      Nat.pow 2 (single.exponentWidth - 1) + single.precision - 3 + 925 := rfl
  refine ⟨_,Nat.le_refl 925,?_⟩
  rw [grain,grain,exponent]
  generalize Nat.pow 2 (single.exponentWidth - 1) + single.precision - 3 = e
  exact Nat.pow_add 2 e 925

/-- Every finite single-precision number is a double-precision number. -/
theorem exists_units_double {m k : Nat} (finite : m < single.infinity) (fine : k ≤ 925) :
    ∃ n, double.units n = single.units m * 2 ^ k ∧ n < double.infinity := by
  have canonical := single.canonical_parts m
  have fits : single.significand m < 2 ^ double.precision := by
    have below : single.significand m < 2 * 2 ^ 23 := canonical.below
    have precision : double.precision = 53 := rfl
    rw [precision]
    omega
  obtain ⟨n,same,bound⟩ := exists_units_eq (f := double) (by decide) (single.binade m + k) fits
  refine ⟨n,?_,?_⟩
  · rw [same,units_def,Nat.pow_add,Nat.mul_assoc]
  · have binade : single.binade m = m / 2 ^ 23 - 1 := rfl
    have implicitBit : double.implicitBit = 2 ^ 52 := rfl
    rw [infinity_single] at finite
    rw [binade,implicitBit] at bound
    have small : m / 2 ^ 23 - 1 + k + 2 ≤ 2047 := by omega
    exact Nat.lt_of_lt_of_le bound (Nat.mul_le_mul_right _ small)

end Binary.Format

namespace Binary32
open Binary.Format

variable {y : Binary32}

private theorem widen_of_finite (finite : y.magnitude < single.infinity) {n k : Nat}
    (grain : double.grain = single.grain * 2 ^ k)
    (same : double.units n = single.units y.magnitude * 2 ^ k) (bound : n < double.infinity) :
    y.widen = .ofMagnitude y.negative n := by
  have exact : single.units y.magnitude * double.grain = double.units n * single.grain := by
    rw [same,grain,Nat.mul_right_comm,Nat.mul_assoc]
  have rounded := nearest_of_exact (f := double) (by decide) single.grain_pos exact
    (Nat.le_of_lt bound)
  simp only [widen,if_pos finite,Binary64.ofRatio,rounded]

private theorem ofDouble_of_finite (finite : y.magnitude < single.infinity) {n k : Nat}
    (grain : double.grain = single.grain * 2 ^ k)
    (same : double.units n = single.units y.magnitude * 2 ^ k) (bound : n < double.infinity) :
    ofDouble (.ofMagnitude y.negative n) = y := by
  have fits : n < 2 ^ 63 := by
    rw [infinity_double] at bound
    omega
  have exact : double.units n * single.grain = single.units y.magnitude * double.grain := by
    rw [same,grain,Nat.mul_assoc,Nat.mul_comm (2 ^ k)]
  have rounded := nearest_of_exact (f := single) (by decide) double.grain_pos exact
    (Nat.le_of_lt finite)
  simp only [ofDouble,Binary64.units,Binary64.magnitude_ofMagnitude y.negative fits,
    Binary64.negative_ofMagnitude y.negative fits,if_pos bound,rounded,ofMagnitude_magnitude]

/-- Narrowing a quiet NaN keeps the leading 22 bits of its payload. -/
private theorem ofDouble_nan (negative : Bool) {payload : Nat} (fits : payload < 2 ^ 22) :
    ofDouble (.ofMagnitude negative (double.infinity + 2 ^ 51 + payload * 2 ^ 29)) =
      ofMagnitude negative (single.infinity + 2 ^ 22 + payload) := by
  have shifted : payload * 2 ^ 29 < 2 ^ 51 := by omega
  have whole : double.infinity + 2 ^ 51 + payload * 2 ^ 29 < 2 ^ 63 :=
    Nat.lt_of_lt_of_le (Nat.add_lt_add_left shifted _) (by decide)
  have notFinite : ¬ double.infinity + 2 ^ 51 + payload * 2 ^ 29 < double.infinity := by omega
  have notInfinite : ¬ double.infinity + 2 ^ 51 + payload * 2 ^ 29 = double.infinity := by omega
  have kept : (double.infinity + 2 ^ 51 + payload * 2 ^ 29) % 2 ^ 51 / 2 ^ 29 = payload := by
    have multiple : double.infinity + 2 ^ 51 = 2 ^ 51 * 4095 := rfl
    rw [multiple,Nat.mul_add_mod,Nat.mod_eq_of_lt shifted,Nat.mul_div_cancel _ (by decide)]
  simp only [ofDouble,Binary64.magnitude_ofMagnitude _ whole,
    Binary64.negative_ofMagnitude _ whole,if_neg notFinite,if_neg notInfinite,kept]

private theorem add_mod_of_settled (quiet : single.infinity + 2 ^ 22 ≤ y.magnitude) :
    single.infinity + 2 ^ 22 + y.magnitude % 2 ^ 22 = y.magnitude := by
  have bound := y.magnitude_lt
  rw [infinity_single] at quiet ⊢
  omega

theorem ofDouble_widen (settled : y.Settled) : ofDouble y.widen = y := by
  rcases Nat.lt_trichotomy y.magnitude single.infinity with finite | infinite | nan
  · obtain ⟨k,fine,grain⟩ := exists_grain_double
    obtain ⟨n,same,bound⟩ := exists_units_double finite fine
    rw [widen_of_finite finite grain same bound,ofDouble_of_finite finite grain same bound]
  · have whole : double.infinity < 2 ^ 63 := by decide
    have notFinite : ¬ y.magnitude < single.infinity := by omega
    simp only [widen,if_neg notFinite,if_pos infinite,Binary64.infinity,ofDouble,
      Binary64.magnitude_ofMagnitude _ whole,Binary64.negative_ofMagnitude _ whole,
      Nat.lt_irrefl,if_false,if_true]
    rw [← infinite,ofMagnitude_magnitude]
  · have quiet : single.infinity + 2 ^ 22 ≤ y.magnitude := settled.resolve_left (by omega)
    have notFinite : ¬ y.magnitude < single.infinity := by omega
    have notInfinite : ¬ y.magnitude = single.infinity := by omega
    rw [widen,if_neg notFinite,if_neg notInfinite,ofDouble_nan _ (Nat.mod_lt _ (by decide)),
      add_mod_of_settled quiet,ofMagnitude_magnitude]

theorem settled_ofMagnitude_nearest (negative : Bool) (num den : Nat) :
    (ofMagnitude negative (single.nearest num den)).Settled := by
  have bounded := single.nearest_le_infinity num den
  have fits : single.nearest num den < 2 ^ 31 := Nat.lt_of_le_of_lt bounded (by decide)
  left
  rw [magnitude_ofMagnitude negative fits]
  exact bounded

theorem settled_ofInt (n : Int) : (ofInt n).Settled := settled_ofMagnitude_nearest _ _ _

theorem settled_ofDouble (x : Binary64) : (ofDouble x).Settled := by
  simp only [ofDouble]
  split
  · exact settled_ofMagnitude_nearest _ _ _
  · split
    · left
      exact Nat.le_of_eq (magnitude_ofMagnitude _ (by decide))
    · have payload : x.magnitude % 2 ^ 51 / 2 ^ 29 < 2 ^ 22 := by omega
      right
      rw [magnitude_ofMagnitude _ (by rw [infinity_single]; omega)]
      omega

end Binary32
end FluentSql

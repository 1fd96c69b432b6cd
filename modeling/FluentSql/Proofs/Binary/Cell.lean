import FluentSql.Binary.Shortest
import FluentSql.Proofs.Binary.Nearest
import Mathlib.Algebra.Order.Field.Basic
import Mathlib.Algebra.Order.Field.Power
import Mathlib.Algebra.Order.Ring.Rat
import Mathlib.Tactic.Linarith
import Mathlib.Tactic.Positivity
import Mathlib.Tactic.Ring

/-! The decimals that read back as a number of a binary format. They lie between the midpoints to its
neighbours, and whatever is rounded to the number lies there too. -/
namespace FluentSql

theorem ten_zpow_mul (e : ℤ) : (10 : ℚ) ^ e * 10 ^ (-e).toNat = 10 ^ e.toNat := by
  rw [← zpow_natCast,← zpow_natCast,← zpow_add₀ (by decide)]
  congr 1
  omega

/-- What is halfway between two naturals is rounded to an even one. -/
theorem even_of_tie {num den : ℕ} (positive : 0 < den)
    (tie : 2 * Nat.dist (roundDiv .even num den * den) num = den) :
    roundDiv .even num den % 2 = 0 := by
  have whole : num / den * den + num % den = num := Nat.div_add_mod' num den
  have rest := Nat.mod_lt num positive
  have next : (num / den + 1) * den = num / den * den + den := Nat.succ_mul ..
  simp only [roundDiv,Nat.dist,Tie.roundsUp,beq_iff_eq] at tie ⊢
  split at tie
  · omega
  · split at tie
    · omega
    · split at tie <;> split <;> omega

namespace Binary

def Scientific.value (s : Scientific) : ℚ := s.coefficient * 10 ^ s.exponent

namespace Cell

variable {c : Cell}

def number (c : Cell) : ℚ := c.value / c.whole

/-- Between the midpoints, or at one of them where these count. -/
def Holds (c : Cell) (q : ℚ) : Prop :=
  if c.closed then c.low ≤ q * c.whole ∧ q * c.whole ≤ c.high
  else c.low < q * c.whole ∧ q * c.whole < c.high

theorem Holds.between {q : ℚ} (holds : c.Holds q) : c.low ≤ q * c.whole ∧ q * c.whole ≤ c.high := by
  rw [Holds] at holds
  split at holds
  · exact holds
  · exact ⟨holds.1.le,holds.2.le⟩

theorem contains_iff (s : Scientific) : c.contains s = true ↔ c.Holds s.value := by
  have one : (0 : ℚ) < 10 ^ (-s.exponent).toNat := by positivity
  have scaled : s.value * c.whole * 10 ^ (-s.exponent).toNat =
      (s.coefficient * c.whole * Nat.pow 10 s.exponent.toNat : ℕ) := by
    rw [Scientific.value,Nat.pow_eq,Nat.cast_mul,Nat.cast_mul,Nat.cast_pow,Nat.cast_ofNat,
      ← ten_zpow_mul s.exponent]
    ring
  have end_mul (n : ℕ) : (n : ℚ) * 10 ^ (-s.exponent).toNat =
      (n * Nat.pow 10 (-s.exponent).toNat : ℕ) := by
    rw [Nat.pow_eq,Nat.cast_mul,Nat.cast_pow,Nat.cast_ofNat]
  have le_iff {a b : ℚ} {m n : ℕ} (ha : a * 10 ^ (-s.exponent).toNat = m)
      (hb : b * 10 ^ (-s.exponent).toNat = n) : m ≤ n ↔ a ≤ b := by
    rw [← mul_le_mul_iff_of_pos_right one,ha,hb,Nat.cast_le]
  have low := le_iff (end_mul c.low) scaled
  have high := le_iff scaled (end_mul c.high)
  simp only [contains,Holds]
  split
  · rw [Bool.and_eq_true,decide_eq_true_eq,decide_eq_true_eq,low,high]
  · rw [Bool.and_eq_true,decide_eq_true_eq,decide_eq_true_eq,← Nat.not_le,← Nat.not_le,
      le_iff scaled (end_mul c.low),le_iff (end_mul c.high) scaled,not_le,not_le]

end Cell

namespace Format

variable {f : Format} {num den : ℕ}

/-- The step up from a number. -/
theorem units_succ (f : Format) (m : ℕ) : f.units (m + 1) = f.units m + 2 ^ f.binade m := by
  have canonical := f.canonical_parts m
  have next : m + 1 = f.binade m * f.implicitBit + (f.significand m + 1) := by
    rw [← Nat.add_assoc,binade_mul_add]
  have below := canonical.below
  have lowest : f.binade m = 0 ∨ f.implicitBit ≤ f.significand m + 1 :=
    canonical.lowest.imp_right Nat.le_succ_of_le
  calc f.units (m + 1) = (f.significand m + 1) * 2 ^ f.binade m := by
        rw [next,units_of_le below lowest]
    _ = f.units m + 2 ^ f.binade m := by rw [Nat.succ_mul,units_def]

theorem binade_mono (f : Format) {m n : ℕ} (le : m ≤ n) : f.binade m ≤ f.binade n :=
  Nat.sub_le_sub_right (Nat.div_le_div_right le) 1

/-- Half a step down and half a step up are no more than the step. -/
theorem high_sub_low_le (f : Format) {m : ℕ} (some : 0 < m) :
    f.units m + f.units (m + 1) ≤ f.units (m - 1) + f.units m + 2 * 2 ^ f.binade m := by
  obtain ⟨n,rfl⟩ := Nat.exists_eq_succ_of_ne_zero (Nat.ne_of_gt some)
  have down := f.units_succ n
  have up := f.units_succ (n + 1)
  have finer : 2 ^ f.binade n ≤ 2 ^ f.binade (n + 1) :=
    Nat.pow_le_pow_right (by decide) (f.binade_mono (Nat.le_succ n))
  rw [Nat.succ_eq_add_one,Nat.add_sub_cancel]
  omega

/-- How a value is rounded to a magnitude: its binade is that of the value. -/
structure RoundsTo (f : Format) (scaled den b r : ℕ) : Prop where
  rounded : roundDiv .even scaled (den * 2 ^ b) = r
  most : r ≤ 2 * f.implicitBit
  least : b = 0 ∨ f.implicitBit ≤ r
  below : scaled < 2 * f.implicitBit * 2 ^ b * den
  above : b = 0 ∨ f.implicitBit * 2 ^ b * den ≤ scaled

theorem exists_roundsTo (wide : 0 < f.precision) (positive : 0 < den)
    (finite : f.nearest num den < f.infinity) : ∃ b r,
    f.nearest num den = b * f.implicitBit + r ∧ f.RoundsTo (num * f.grain) den b r := by
  simp only [nearest] at finite ⊢
  generalize num * f.grain = scaled at finite ⊢
  generalize binade : (scaled / den).log2 + 1 - f.precision = b at finite ⊢
  obtain ⟨most,least⟩ := rounded_bounds wide scaled binade
  obtain ⟨below,above⟩ := binade_bounds wide (scaled / den)
  rw [binade] at below above
  refine ⟨b,_,Nat.min_eq_right (by omega),rfl,most,least,?_,above.imp_right fun normal => ?_⟩
  · exact (Nat.div_lt_iff_lt_mul positive).mp below
  · exact (Nat.le_div_iff_mul_le positive).mp normal

/-- A value that is no less than the least normal number is rounded to a normal one. -/
theorem implicitBit_le_nearest (wide : 0 < f.precision) (positive : 0 < den)
    (finite : f.nearest num den < f.infinity) (normal : f.implicitBit * den ≤ num * f.grain) :
    f.implicitBit ≤ f.nearest num den := by
  obtain ⟨b,r,same,rounds⟩ := exists_roundsTo wide positive finite
  rw [same]
  rcases rounds.least with rfl | reached
  · have floor := (roundDiv_bounds .even (num * f.grain) (den * 2 ^ 0)).1
    rw [rounds.rounded,Nat.pow_zero,Nat.mul_one] at floor
    have := (Nat.le_div_iff_mul_le positive).mpr normal
    omega
  · exact Nat.le_add_left_of_le reached

namespace RoundsTo

variable {scaled b r : ℕ}

theorem units_eq (rounds : f.RoundsTo scaled den b r) :
    f.units (b * f.implicitBit + r) = r * 2 ^ b := units_of_le rounds.most rounds.least

/-- Halfway up, the step is that of the binade. -/
theorem high_tie (rounds : f.RoundsTo scaled den b r)
    (middle : 2 * scaled = (f.units (b * f.implicitBit + r) +
      f.units (b * f.implicitBit + r + 1)) * den) :
    2 * Nat.dist (r * (den * 2 ^ b)) scaled = den * 2 ^ b := by
  have most := rounds.most
  rw [units_succ,rounds.units_eq] at middle
  rcases Nat.lt_or_eq_of_le most with inside | top
  · have canonical : f.Canonical r b := ⟨inside,rounds.least⟩
    rw [canonical.binade_eq] at middle
    have split : (r * 2 ^ b + (r * 2 ^ b + 2 ^ b)) * den = 2 * (r * (den * 2 ^ b)) + den * 2 ^ b := by
      ring
    rw [split] at middle
    rw [Nat.dist]
    omega
  · -- the top of a binade is rounded to from below only
    have reached : 2 * (2 * f.implicitBit * 2 ^ b * den) ≤ 2 * scaled := by
      rw [middle,top]
      calc 2 * (2 * f.implicitBit * 2 ^ b * den)
          = (2 * f.implicitBit * 2 ^ b + 2 * f.implicitBit * 2 ^ b) * den := by ring
        _ ≤ _ := Nat.mul_le_mul_right den (Nat.add_le_add_left (Nat.le_add_right ..) _)
    have below := rounds.below
    omega

theorem low_tie (rounds : f.RoundsTo scaled den b r) (positive : 0 < den)
    (some : 0 < b * f.implicitBit + r) (middle : 2 * scaled =
      (f.units (b * f.implicitBit + r - 1) + f.units (b * f.implicitBit + r)) * den) :
    2 * Nat.dist (r * (den * 2 ^ b)) scaled = den * 2 ^ b := by
  have bit := f.implicitBit_pos
  have least := rounds.least
  have nonzero : r ≠ 0 := by
    rintro rfl
    rcases least with rfl | bound
    · simp at some
    · omega
  obtain ⟨k,rfl⟩ : ∃ k, r = k + 1 := ⟨r - 1,by omega⟩
  have down : b * f.implicitBit + (k + 1) - 1 = b * f.implicitBit + k := by omega
  rw [down] at middle
  rcases Classical.em (b = 0 ∨ f.implicitBit ≤ k) with lowest | bottom
  · have below : f.units (b * f.implicitBit + k) = k * 2 ^ b :=
      units_of_le (Nat.le_of_succ_le rounds.most) lowest
    rw [below,rounds.units_eq] at middle
    have split : (k * 2 ^ b + (k + 1) * 2 ^ b) * den + den * 2 ^ b =
        2 * ((k + 1) * (den * 2 ^ b)) := by
      ring
    rw [Nat.dist]
    omega
  · -- the bottom of a binade is rounded to from above only
    obtain ⟨normal,short⟩ := not_or.mp bottom
    have exact : k + 1 = f.implicitBit := by omega
    have above := rounds.above.resolve_left normal
    have step := f.units_succ (b * f.implicitBit + k)
    rw [Nat.add_assoc,rounds.units_eq,exact] at step
    have missed : 2 * scaled < 2 * (f.implicitBit * 2 ^ b * den) := by
      rw [middle,rounds.units_eq,exact]
      calc _ < (f.implicitBit * 2 ^ b + f.implicitBit * 2 ^ b) * den := by
            refine Nat.mul_lt_mul_of_pos_right ?_ positive
            have := Nat.two_pow_pos (f.binade (b * f.implicitBit + k))
            omega
        _ = _ := by ring
    omega

end RoundsTo

/-- A value is rounded to a number that lies no farther away than its neighbours do. -/
theorem nearest_between (wide : 0 < f.precision) (positive : 0 < den)
    (finite : f.nearest num den < f.infinity) (some : 0 < f.nearest num den) :
    (f.units (f.nearest num den - 1) + f.units (f.nearest num den)) * den ≤ 2 * (num * f.grain) ∧
      2 * (num * f.grain) ≤
        (f.units (f.nearest num den) + f.units (f.nearest num den + 1)) * den := by
  have lower := nearest_closest wide num positive finite (f.nearest num den - 1)
  have upper := nearest_closest wide num positive finite (f.nearest num den + 1)
  generalize f.nearest num den = m at *
  generalize num * f.grain = scaled at *
  obtain ⟨n,rfl⟩ := Nat.exists_eq_succ_of_ne_zero (Nat.ne_of_gt some)
  have down : f.units n * den < f.units (n + 1) * den := by
    refine Nat.mul_lt_mul_of_pos_right ?_ positive
    rw [units_succ]
    exact Nat.lt_add_of_pos_right (Nat.two_pow_pos _)
  have up : f.units (n + 1) * den < f.units (n + 1 + 1) * den := by
    refine Nat.mul_lt_mul_of_pos_right ?_ positive
    rw [f.units_succ (n + 1)]
    exact Nat.lt_add_of_pos_right (Nat.two_pow_pos _)
  simp only [Nat.succ_eq_add_one,Nat.add_sub_cancel,Nat.add_mul,Nat.dist] at *
  omega

theorem even_of_middle (wide : 2 ≤ f.precision) (positive : 0 < den)
    (finite : f.nearest num den < f.infinity) (some : 0 < f.nearest num den)
    (middle : (f.units (f.nearest num den - 1) + f.units (f.nearest num den)) * den =
        2 * (num * f.grain) ∨
      2 * (num * f.grain) =
        (f.units (f.nearest num den) + f.units (f.nearest num den + 1)) * den) :
    f.nearest num den % 2 = 0 := by
  obtain ⟨b,r,same,rounds⟩ := exists_roundsTo (Nat.lt_of_lt_of_le (by decide) wide) positive finite
  rw [same] at middle some ⊢
  have tie : 2 * Nat.dist (r * (den * 2 ^ b)) (num * f.grain) = den * 2 ^ b := by
    rcases middle with low | high
    · exact rounds.low_tie positive some low.symm
    · exact rounds.high_tie high
  have even := even_of_tie (Nat.mul_pos positive (Nat.two_pow_pos b)) (rounds.rounded ▸ tie)
  rw [rounds.rounded] at even
  have bit : f.implicitBit % 2 = 0 := by
    obtain ⟨p,precision⟩ := Nat.exists_eq_add_of_le wide
    rw [implicitBit,precision,Nat.add_comm,Nat.add_sub_assoc (by decide),Nat.pow_eq,Nat.pow_succ]
    exact Nat.mul_mod_left _ 2
  rw [Nat.add_mod,Nat.mul_mod,bit,even,Nat.mul_zero]

end Format

open Format

/-- What is rounded to a number is one of the decimals that read back as it. -/
theorem Cell.holds_nearest {f : Format} {num den : ℕ} (wide : 2 ≤ f.precision) (positive : 0 < den)
    (finite : f.nearest num den < f.infinity) (some : 0 < f.nearest num den) :
    (Cell.ofMagnitude f (f.nearest num den)).Holds (num / den) := by
  have between := nearest_between (Nat.lt_of_lt_of_le (by decide) wide) positive finite some
  have even := even_of_middle wide positive finite some
  generalize f.nearest num den = m at *
  have den_pos : (0 : ℚ) < den := Nat.cast_pos.mpr positive
  have scaled : (num / den : ℚ) * (Cell.ofMagnitude f m).whole * den = (2 * (num * f.grain) : ℕ) := by
    rw [ofMagnitude]
    push_cast
    rw [mul_right_comm,div_mul_cancel₀ _ den_pos.ne']
    ring
  have bound (a b : ℕ) : ((f.units a + f.units b : ℕ) : ℚ) * den =
      ((f.units a + f.units b) * den : ℕ) := (Nat.cast_mul ..).symm
  have closed : (Cell.ofMagnitude f m).closed = decide (m % 2 = 0) := rfl
  have low : ((Cell.ofMagnitude f m).low : ℚ) ≤ num / den * (Cell.ofMagnitude f m).whole := by
    rw [← mul_le_mul_iff_of_pos_right den_pos,scaled,ofMagnitude,bound,Nat.cast_le]
    exact between.1
  have high : num / den * (Cell.ofMagnitude f m).whole ≤ ((Cell.ofMagnitude f m).high : ℚ) := by
    rw [← mul_le_mul_iff_of_pos_right den_pos,scaled,ofMagnitude,bound,Nat.cast_le]
    exact between.2
  rw [Holds]
  split
  · exact ⟨low,high⟩
  next apart =>
    rw [closed,decide_eq_true_eq] at apart
    refine ⟨low.lt_of_ne fun middle => apart (even (.inl ?_)),
      high.lt_of_ne fun middle => apart (even (.inr ?_))⟩
    · rw [← mul_left_inj' den_pos.ne',scaled,ofMagnitude,bound,Nat.cast_inj] at middle
      exact middle
    · rw [← mul_left_inj' den_pos.ne',scaled,ofMagnitude,bound,Nat.cast_inj] at middle
      exact middle

end Binary
end FluentSql

import FluentSql.Proofs.Binary.Cell

/-! Products and quotients of doubles. Both are rounded once, and so is the double that a decimal
makes of its digits and a power of ten that is a double. -/
namespace FluentSql
open Binary

namespace Binary64

variable {x y : Binary64} {a b n : ℕ}

theorem mul_eq (hx : x.units = a * double.grain) (hy : y.units = b * double.grain) :
    x.mul y = .ofRatio (x.negative != y.negative) (a * b) 1 := by
  have scaled := double.nearest_mul_right (a * b) 1 (Nat.mul_pos double.grain_pos double.grain_pos)
  rw [Nat.one_mul] at scaled
  rw [mul,hx,hy,Nat.mul_mul_mul_comm,ofRatio,scaled,ofRatio]

theorem div_eq (hx : x.units = a * double.grain) (hy : y.units = b * double.grain) :
    x.div y = .ofRatio (x.negative != y.negative) a b := by
  rw [div,hx,hy,ofRatio,double.nearest_mul_right _ _ double.grain_pos,ofRatio]

/-- A double of up to 53 bits and some zeros. -/
theorem parts_ofRatio_one {s k : ℕ} (held : n = s * 2 ^ k) (fits : s < 2 ^ 53)
    (small : n < 2 ^ 75) : (ofRatio false n 1).units = n * double.grain ∧
      (ofRatio false n 1).negative = false := by
  have finite := double.nearest_lt_infinity (by decide) small (by decide)
  have inside := Nat.lt_trans finite (by decide : double.infinity < 2 ^ 63)
  rw [units,ofRatio,magnitude_ofMagnitude _ inside,negative_ofMagnitude _ inside]
  exact ⟨(Format.units_nearest_eq_iff (by decide) finite).mpr ⟨s,k,fits,held⟩,rfl⟩

theorem parts_pow_ten {k : ℕ} (near : k ≤ 22) :
    (ofRatio false (Nat.pow 10 k) 1).units = Nat.pow 10 k * double.grain ∧
      (ofRatio false (Nat.pow 10 k) 1).negative = false := by
  refine parts_ofRatio_one (s := 5 ^ k) (k := k) ?_ ?_ ?_
  · rw [← Nat.mul_pow]
    rfl
  · exact Nat.lt_of_le_of_lt (Nat.pow_le_pow_right (by decide) near) (by decide)
  · exact Nat.lt_of_le_of_lt (Nat.pow_le_pow_right (by decide) near) (by decide)

end Binary64

namespace Binary

variable {n : ℕ} {e : ℤ}

/-- The number as a fraction. -/
theorem div_ten_pow (n : ℕ) (e : ℤ) :
    ((n * 10 ^ e.toNat : ℕ) : ℚ) / (10 ^ (-e).toNat : ℕ) = n * 10 ^ e := by
  have power : ((10 ^ (-e).toNat : ℕ) : ℚ) ≠ 0 := by positivity
  rw [div_eq_iff power]
  push_cast
  rw [mul_assoc,ten_zpow_mul]

theorem nearest_finite (short : n < 10 ^ 15) (near : e.natAbs ≤ 22) :
    double.nearest (n * 10 ^ e.toNat) (10 ^ (-e).toNat) < double.infinity := by
  have den : 0 < 10 ^ (-e).toNat := Nat.pow_pos (by decide)
  refine double.nearest_lt_infinity_of_lt (d := 124) (by decide) den ?_ (by decide)
  calc n * 10 ^ e.toNat < 10 ^ 15 * 10 ^ 22 :=
        Nat.mul_lt_mul_of_lt_of_le short (Nat.pow_le_pow_right (by decide) (by omega))
          (Nat.pow_pos (by decide))
    _ ≤ 2 ^ 124 * 1 := by decide
    _ ≤ 2 ^ 124 * 10 ^ (-e).toNat := Nat.mul_le_mul_left _ den

theorem nearest_normal (short : n < 10 ^ 15) (near : e.natAbs ≤ 22) (some : 0 < n) :
    double.implicitBit ≤ double.nearest (n * 10 ^ e.toNat) (10 ^ (-e).toNat) := by
  have den : 0 < 10 ^ (-e).toNat := Nat.pow_pos (by decide)
  refine double.implicitBit_le_nearest (by decide) den (nearest_finite short near) ?_
  obtain ⟨g,grain,size⟩ : ∃ g : ℕ, double.grain = Nat.pow 2 g ∧ g = 1074 :=
    ⟨_,Format.grain.eq_1 double,rfl⟩
  calc double.implicitBit * 10 ^ (-e).toNat ≤ double.implicitBit * 10 ^ 22 :=
        Nat.mul_le_mul_left _ (Nat.pow_le_pow_right (by decide) (by omega))
    _ ≤ 2 ^ 126 := by decide
    _ ≤ double.grain := grain ▸ Nat.pow_le_pow_right (by decide) (by omega)
    _ ≤ n * 10 ^ e.toNat * double.grain :=
        Nat.le_mul_of_pos_left _ (Nat.mul_pos some (Nat.pow_pos (by decide)))

end Binary
end FluentSql

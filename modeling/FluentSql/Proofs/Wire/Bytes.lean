import FluentSql.Wire.Decode

/-! Numbers and text read back from their bytes. -/
namespace FluentSql.Wire

theorem toText?_ofText (s : String) : toText? (ofText s) = some s := by
  rw [toText?,ofText,Array.toArray_toList]
  exact dif_pos s.isValidUTF8

variable {width : Nat}

@[simp] theorem signedBigEndian_length (width : Nat) (n : Int) :
    (signedBigEndian width n).length = width := bigEndian_length width _

theorem signedBigEndian_natCast {n : Nat} (fits : n < Nat.pow 256 width) :
    signedBigEndian width n = bigEndian width n := by
  rw [signedBigEndian,← Int.natCast_emod,Int.toNat_natCast,Nat.mod_eq_of_lt fits]

theorem decodeNat?_bigEndian {n : Nat} (fits : n < Nat.pow 256 width) :
    decodeNat? width (bigEndian width n) = some n := by
  rw [decodeNat?,if_pos (bigEndian_length width n),ofBigEndian_bigEndian,Nat.mod_eq_of_lt fits]

/-- The reduced number is the one whose bytes these are. -/
theorem ofBigEndian_signedBigEndian (width : Nat) (n : Int) :
    (ofBigEndian (signedBigEndian width n) : Int) = n % Nat.pow 256 width := by
  have positive : 0 < Nat.pow 256 width := Nat.pow_pos (by decide)
  have reduced : 0 ≤ n % Nat.pow 256 width := Int.emod_nonneg n (by omega)
  have below : n % Nat.pow 256 width < Nat.pow 256 width := Int.emod_lt_of_pos n (by omega)
  rw [signedBigEndian,ofBigEndian_bigEndian,Nat.mod_eq_of_lt (by omega)]
  omega

theorem decodeInt?_signedBigEndian {n : Int} (low : -(Nat.pow 256 width : Int) ≤ n * 2)
    (high : n * 2 < Nat.pow 256 width) : decodeInt? width (signedBigEndian width n) = some n := by
  rw [decodeInt?,if_pos (signedBigEndian_length width n),ofSignedBigEndian,
    ofBigEndian_signedBigEndian,signedBigEndian_length,Int.emod_bmod,
    Int.bmod_eq_of_le_mul_two low high]

end FluentSql.Wire

import FluentSql.Proofs.Binary.Integer
import FluentSql.Proofs.Wire.Cells
import FluentSql.Proofs.Wire.Numeric
import Mathlib.Data.Rat.Floor
import Mathlib.Tactic.Ring

/-! The numbers that cells hold, as exact rationals read off the bytes: the fields of a float, and
the sum of the groups of a decimal. A decimal is sent as the number that it is. -/
namespace FluentSql
namespace Wire
namespace Numeric

/-- The worth of groups of which the first counts multiples of `10000 ^ weight`. -/
def worth : ℤ → List ℕ → ℚ
  | _, [] => 0
  | weight, group :: rest => group * 10000 ^ weight + worth (weight - 1) rest

/-- The number on the wire. Groups have four digits, and digits beyond the scale do not count. -/
def number? (bytes : Bytes) : Option ℚ :=
  match pairs bytes with
  | count :: weight :: sign :: scale :: groups =>
    if bytes.length = 8 + 2 * count ∧ (∀ group ∈ groups, group < 10000) ∧
        (sign = 0 ∨ sign = 0x4000) then
      let cut : ℤ := ⌊worth ((weight : ℤ).bmod (2 ^ 16)) groups * 10 ^ scale⌋
      some (withSign (sign == 0x4000) (cut / 10 ^ scale))
    else none
  | _ => none

theorem worth_append (weight : ℤ) (a b : List ℕ) :
    worth weight (a ++ b) = worth weight a + worth (weight - a.length) b := by
  induction a generalizing weight with
  | nil => simp [worth]
  | cons group rest ih =>
    have behind : weight - 1 - rest.length = weight - (rest.length + 1 : ℕ) := by omega
    rw [List.cons_append,worth,worth,ih,List.length_cons,behind,add_assoc]

/-- Groups before the point are worth the number that has their digits. -/
theorem worth_whole (n : ℕ) (groups : List ℕ) :
    (joined n groups : ℚ) = n * 10000 ^ groups.length + worth (groups.length - 1) groups := by
  induction groups generalizing n with
  | nil => simp [joined,worth]
  | cons group rest ih =>
    have weight : ((rest.length + 1 : ℕ) : ℤ) - 1 = rest.length := by omega
    change (joined (n * 10000 + group) rest : ℚ) = _
    rw [ih,List.length_cons,weight,worth,zpow_natCast,Nat.cast_add,Nat.cast_mul,pow_succ]
    push_cast
    ring

/-- Groups behind the point are worth what they are in units of the last place. -/
theorem worth_fraction {scale place : ℕ} {groups : List ℕ} {k : ℕ} (start : place = 4 * k)
    (within : Within scale place groups) :
    worth (-k) groups * 10 ^ 28 = fractionUnits place groups := by
  induction groups generalizing place k with
  | nil => simp [worth,fractionUnits]
  | cons group rest ih =>
    obtain ⟨inside,_,others⟩ := within
    have next : (-k - 1 : ℤ) = -(k + 1 : ℕ) := by omega
    have power : (10000 : ℚ) ^ (-k : ℤ) * 10 ^ 28 = 10 ^ (28 - place) := by
      have groupOf : (10000 : ℚ) ^ k = 10 ^ (4 * k) := by rw [pow_mul]; norm_num
      have places : 28 = place + (28 - place) := by omega
      nth_rewrite 1 [places]
      rw [zpow_neg,zpow_natCast,groupOf,pow_add,start,inv_mul_cancel_left₀ (by positivity)]
    rw [worth,fractionUnits,next,add_mul,ih (by omega) others,mul_assoc,power]
    push_cast
    rfl

/-- The groups of a decimal, cut at its point, add up to the decimal. -/
theorem Cut.worth_eq {d : Decimal} {leading : ℕ} {whole fraction : List ℕ}
    (cut : Cut d leading whole fraction) :
    Numeric.worth (whole.length - leading - 1) (whole ++ fraction) = d.coefficient / 10 ^ d.scale := by
  have total : Numeric.worth (whole.length - leading - 1) (whole ++ fraction) =
      joined 0 whole + Numeric.worth (-(1 + leading : ℕ)) fraction := by
    rcases cut.apart with rfl | rfl
    · have point : (whole.length - (0 : ℕ) - 1 - whole.length : ℤ) = -(1 + 0 : ℕ) := by omega
      have start : (whole.length - (0 : ℕ) - 1 : ℤ) = whole.length - 1 := by omega
      rw [worth_append,point,start,worth_whole,Nat.cast_zero,zero_mul,zero_add]
    · have point : (([] : List ℕ).length - leading - 1 : ℤ) = -(1 + leading : ℕ) := by
        rw [List.length_nil]
        omega
      rw [point,List.nil_append,joined,List.foldl_nil,Nat.cast_zero,zero_add]
  have known := d.scale_le
  have fractionWorth := worth_fraction rfl cut.within
  have units := congrArg (Nat.cast (R := ℚ)) cut.worth
  simp only [Nat.cast_add,Nat.cast_mul,Nat.cast_pow,Nat.cast_ofNat] at units
  have places : 28 = d.scale + (28 - d.scale) := by omega
  rw [← fractionWorth,← add_mul,← total] at units
  rw [eq_div_iff (by positivity)]
  apply mul_right_cancel₀ (b := (10 : ℚ) ^ (28 - d.scale)) (by positivity)
  rw [← units,mul_assoc,← pow_add,← places]

theorem number?_layout {negative : Bool} {scale coefficient : ℕ} {weight : ℤ} {groups : List ℕ}
    (known : scale ≤ 28) (low : -32768 ≤ weight) (high : weight < 32768)
    (count : groups.length < 65536) (digits : ∀ group ∈ groups, group < 10000)
    (value : Numeric.worth weight groups = coefficient / 10 ^ scale) :
    number? (layout negative scale weight groups) =
      some (withSign negative (coefficient / 10 ^ scale)) := by
  have words := pairs_layout negative weight known count
    fun group member => Nat.lt_trans (digits group member) (by decide)
  have sign : (if negative then 0x4000 else 0) = 0 ∨ (if negative then 0x4000 else 0) = 0x4000 := by
    cases negative <;> simp
  have shifted : Numeric.worth weight groups * 10 ^ scale = coefficient := by
    rw [value,div_mul_cancel₀ _ (by positivity)]
  simp only [number?,words,length_layout,bmod_word low high,shifted,beq_signWord,true_and]
  rw [if_pos ⟨digits,sign⟩,Int.floor_natCast,Int.cast_natCast]

/-- What is sent for a decimal is its number. -/
theorem number?_encode (d : Decimal) : number? (encode d) = some d.number := by
  cases zero : d.isZero with
  | true =>
    have nothing : d.coefficient = 0 := eq_of_beq zero
    have form : encode d = layout false 0 0 [] := by
      rw [encode,if_pos zero]
      rfl
    have value : Numeric.worth 0 [] = (0 : ℕ) / 10 ^ 0 := by simp [Numeric.worth]
    rw [form,number?_layout (by decide) (by decide) (by decide) (by decide) (by simp) value,
      Decimal.number,nothing]
    cases d.negative <;> simp [withSign]
  | false =>
    obtain ⟨leading,whole,fraction,cut,form⟩ := exists_encode_eq d zero
    have length := cut.length_le
    have leading_le := cut.leading_le
    rw [List.length_append] at length
    rw [form,number?_layout d.scale_le (by omega) (by omega) (by rw [List.length_append]; omega)
      cut.digits cut.worth_eq,Decimal.number,Decimal.unit]
    simp

/-- What is sent for a decimal is read as the same number, and as the same decimal but for zero. -/
theorem exists_decode?_number (e : Decimal) : ∃ d, decode? (encode e) = some d ∧
    d.number = e.number ∧ (e.isZero = false → d = e) := by
  obtain ⟨d,decoded,same⟩ := exists_decode?_encode e
  refine ⟨d,decoded,?_,?_⟩
  · have number := number?_encode d
    rw [same,number?_encode e] at number
    exact (Option.some.inj number).symm
  · intro nonzero
    rw [decode?_encode e nonzero] at decoded
    exact (Option.some.inj decoded).symm

end Numeric

/-- The number that a cell of a type with fractions holds. -/
def ColumnType.number? : ColumnType → Bytes → Option ℚ
  | .float4, bytes => (decodeNat? 4 bytes).bind fun n => Binary32.number? ⟨.ofNat n⟩
  | .float8, bytes => (decodeNat? 8 bytes).bind fun n => Binary64.number? ⟨.ofNat n⟩
  | .numeric, bytes => Numeric.number? bytes
  | _, _ => none

theorem number?_encodeFloat4 (x : Binary32) :
    ColumnType.number? .float4 (encodeFloat4 x) = x.number? := by
  have bits : decodeNat? 4 (encodeFloat4 x) = some x.bits.toNat :=
    decodeNat?_bigEndian x.bits.toNat_lt
  rw [ColumnType.number?,bits,Option.bind_some,UInt32.ofNat_toNat]

theorem number?_encodeFloat8 (x : Binary64) :
    ColumnType.number? .float8 (encodeFloat8 x) = x.number? := by
  have bits : decodeNat? 8 (encodeFloat8 x) = some x.bits.toNat :=
    decodeNat?_bigEndian x.bits.toNat_lt
  rw [ColumnType.number?,bits,Option.bind_some,UInt64.ofNat_toNat]

end Wire
end FluentSql

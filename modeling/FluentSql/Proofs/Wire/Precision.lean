import FluentSql.Proofs.Calendar.Microseconds
import FluentSql.Proofs.Traversal
import FluentSql.Proofs.Wire.Number

/-! How exactly numbers and moments are sent. Decimals hold every integer. Floats and timestamps
hold less than what is bound to them: nothing is refused, and what they cannot hold is sent as
the closest float, or cut to whole microseconds. -/
namespace FluentSql.Wire
open Calendar

/-- The bytes count the microseconds up to a moment. A leap second has no count of its own. -/
def IsMoment (t : Timestamp) (bytes : Bytes) : Prop :=
  t.time.isLeapSecond = false ∧ ∃ m, decodeInt? 8 bytes = some m ∧ t.nanoseconds = m * 1000

/-- Exactly the value stands in the bytes, taken as ones of the type. -/
def Denotes (ty : ColumnType) (bytes : Bytes) : Value → Prop
  | .int n => ty.number? bytes = some (n.toInt : ℚ)
  | .timestamp t => IsMoment t bytes
  | .instant i => IsMoment i.utc bytes
  | _ => False

/-- The bytes are a number of the type, and no other number of the type is closer. -/
def IsClosest (ty : ColumnType) (n : ℤ) (bytes : Bytes) : Prop :=
  ∃ q, ty.number? bytes = some q ∧ ∀ other r, ty.number? other = some r → |q - n| ≤ |r - n|

/-- The bytes count the whole microseconds between a moment and 2000-01-01. -/
def IsCut (t : Timestamp) (bytes : Bytes) : Prop :=
  ∃ m, decodeInt? 8 bytes = some m ∧ (m * 1000 - t.nanoseconds).natAbs < 1000 ∧
    (m * 1000).natAbs ≤ t.nanoseconds.natAbs

def Approximates (ty : ColumnType) (bytes : Bytes) : Value → Prop
  | .int n => IsClosest ty n.toInt bytes
  | .timestamp t => IsCut t bytes
  | .instant i => IsCut i.utc bytes
  | _ => False

namespace ColumnType

/-- Bits of a significand, in types that have one. -/
def precision? : ColumnType → Option ℕ
  | .float4 => some 24
  | .float8 => some 53
  | _ => none

/-- Whether an integer has no more digits than the type, but for zeros at the end. -/
def Represents (ty : ColumnType) (n : ℤ) : Prop :=
  ∀ p ∈ ty.precision?, ∃ s b : ℕ, s < 2 ^ p ∧ n.natAbs = s * 2 ^ b

theorem represents_numeric (n : ℤ) : Represents .numeric n := by
  intro p precise
  cases precise

/-- Whether a value is one of those that the type has: of the moments, whole microseconds outside
leap seconds. -/
def Admits (ty : ColumnType) : Value → Prop
  | .int n => ty.Represents n.toInt
  | .timestamp t => t.IsWhole ∧ t.time.isLeapSecond = false
  | .instant i => i.utc.IsWhole ∧ i.utc.time.isLeapSecond = false
  | _ => False

end ColumnType

/-- Integers as numbers with fractions, and moments as counts of microseconds. -/
inductive Narrows : Value → ColumnType → Prop
  | number (n : Int64) {ty : ColumnType} (fractional : ty ∈ [.float4,.float8,.numeric]) :
    Narrows (.int n) ty
  | timestamp (t : Timestamp) {ty : ColumnType} (temporal : ty ∈ [.timestamp,.timestamptz]) :
    Narrows (.timestamp t) ty
  | instant (i : Instant) {ty : ColumnType} (temporal : ty ∈ [.timestamp,.timestamptz]) :
    Narrows (.instant i) ty

variable {ty : ColumnType} {bytes other : Bytes} {v : Value} {n : ℤ} {t : Timestamp}

/-- Where other bytes are the integer itself, the closest number is no other. -/
theorem IsClosest.exact (closest : IsClosest ty n bytes) (held : ty.number? other = some (n : ℚ)) :
    ty.number? bytes = some (n : ℚ) := by
  obtain ⟨q,number,least⟩ := closest
  have apart := least other n held
  rw [sub_self,abs_zero] at apart
  have same := sub_eq_zero.mp (abs_nonpos_iff.mp apart)
  rw [number,same]

theorem IsCut.exact (cut : IsCut t bytes) (held : IsMoment t other) : IsMoment t bytes := by
  obtain ⟨m,count,near,_⟩ := cut
  obtain ⟨regular,k,_,whole⟩ := held
  exact ⟨regular,m,count,by omega⟩

theorem Approximates.exact (near : Approximates ty bytes v) (held : Denotes ty other v) :
    Denotes ty bytes v := by
  cases v with
  | int n => exact IsClosest.exact near held
  | timestamp t => exact IsCut.exact near held
  | instant i => exact IsCut.exact near held
  | _ => cases held

/-- What is sent for a value. -/
structure SentNear (v : Value) (ty : ColumnType) (bytes : Bytes) : Prop where
  sent : bind v ty = .ok (some bytes)
  near : Approximates ty bytes v
  exact_iff : Denotes ty bytes v ↔ ty.Admits v

/-- Where the numbers of a type are those of a float format, rounding gives the closest. -/
theorem sentNear_of_rounds {f : Binary.Format} {n : Int64} {q : ℚ}
    (sent : bind (.int n) ty = .ok (some bytes)) (number : ty.number? bytes = some q)
    (precision : ty.precision? = some f.precision) (rounds : f.Rounds n.toInt q)
    (format : ∀ other r, ty.number? other = some r → ∃ negative m, f.number? negative m = some r) :
    SentNear (.int n) ty bytes where
  sent := sent
  near := by
    refine ⟨q,number,fun other r held => ?_⟩
    obtain ⟨negative,m,value⟩ := format other r held
    exact rounds.closest negative m r value
  exact_iff := by
    rw [Denotes,number,Option.some_inj,rounds.exact_iff,ColumnType.Admits,ColumnType.Represents,
      precision]
    simp

theorem sentNear_number (n : Int64) (fractional : ty ∈ [ColumnType.float4,.float8,.numeric]) :
    ∃ bytes, SentNear (.int n) ty bytes := by
  have low := Int64.le_toInt n
  have high := Int64.toInt_lt n
  have small : n.toInt.natAbs < 2 ^ 64 := by omega
  simp only [List.mem_cons,List.not_mem_nil,or_false] at fractional
  rcases fractional with rfl | rfl | rfl
  · obtain ⟨q,number,rounds⟩ := Binary32.exists_number?_ofInt small
    refine ⟨_,sentNear_of_rounds rfl ((number?_encodeFloat4 _).trans number) rfl rounds ?_⟩
    intro other r held
    obtain ⟨k,_,value⟩ := Option.bind_eq_some_iff.mp held
    exact ⟨_,_,(Binary32.number?_eq_format _).symm.trans value⟩
  · obtain ⟨q,number,rounds⟩ := Binary64.exists_number?_ofInt small
    refine ⟨_,sentNear_of_rounds rfl ((number?_encodeFloat8 _).trans number) rfl rounds ?_⟩
    intro other r held
    obtain ⟨k,_,value⟩ := Option.bind_eq_some_iff.mp held
    exact ⟨_,_,(Binary64.number?_eq_format _).symm.trans value⟩
  · have number : ColumnType.number? .numeric (Numeric.encode (.ofInt64 n)) =
        some (n.toInt : ℚ) := by
      rw [ColumnType.number?,Numeric.number?_encode,Decimal.number_ofInt64]
    refine ⟨_,rfl,⟨_,number,fun other r _ => ?_⟩,iff_of_true number (ColumnType.represents_numeric _)⟩
    rw [sub_self,abs_zero]
    exact abs_nonneg _

theorem isCut_encodeTimestamp (t : Timestamp) : IsCut t (encodeTimestamp t) :=
  ⟨_,decodeInt?_encodeTimestamp t,t.microseconds_cut⟩

theorem isMoment_encodeTimestamp_iff (t : Timestamp) : IsMoment t (encodeTimestamp t) ↔
    t.IsWhole ∧ t.time.isLeapSecond = false := by
  have sent := decodeInt?_encodeTimestamp t
  simp only [IsMoment,sent,Option.some_inj,exists_eq_left',t.nanoseconds_eq_iff_isWhole,and_comm]

theorem exists_sentNear (narrows : Narrows v ty) : ∃ bytes, SentNear v ty bytes := by
  cases narrows with
  | number n fractional => exact sentNear_number n fractional
  | timestamp t temporal =>
    simp only [List.mem_cons,List.not_mem_nil,or_false] at temporal
    rcases temporal with rfl | rfl
    · exact ⟨_,rfl,isCut_encodeTimestamp t,isMoment_encodeTimestamp_iff t⟩
    · exact ⟨_,rfl,isCut_encodeTimestamp t,isMoment_encodeTimestamp_iff t⟩
  | instant i temporal =>
    simp only [List.mem_cons,List.not_mem_nil,or_false] at temporal
    rcases temporal with rfl | rfl
    · exact ⟨_,rfl,isCut_encodeTimestamp i.utc,isMoment_encodeTimestamp_iff i.utc⟩
    · exact ⟨_,rfl,isCut_encodeTimestamp i.utc,isMoment_encodeTimestamp_iff i.utc⟩

/-- Integers at floats and decimals, and moments at timestamps, are never refused: they are sent
as the closest number that the type has, or as their whole microseconds. So what is sent is the
value itself for those values that the type admits, and these are all that it can hold. -/
theorem bind_exact_iff_admits (narrows : Narrows v ty) :
    (∃ bytes, bind v ty = .ok (some bytes) ∧ Approximates ty bytes v) ∧
      ((∀ bytes, bind v ty = .ok (some bytes) → Denotes ty bytes v) ↔ ty.Admits v) ∧
      ((∃ bytes, Denotes ty bytes v) ↔ ty.Admits v) := by
  obtain ⟨bytes,sent,near,exact_iff⟩ := exists_sentNear narrows
  refine ⟨⟨bytes,sent,near⟩,⟨fun exact => ?_,fun admitted other sent' => ?_⟩,
    ⟨fun ⟨other,held⟩ => ?_,fun admitted => ?_⟩⟩
  · exact exact_iff.mp (exact bytes sent)
  · obtain rfl := Option.some.inj (Except.ok.inj (sent.symm.trans sent'))
    exact exact_iff.mpr admitted
  · exact exact_iff.mp (near.exact held)
  · exact ⟨bytes,exact_iff.mpr admitted⟩

/-- The least integer that no double is, and the nanosecond after the start of the count. -/
theorem bind_exact_iff_admits_cut :
    let tick : Timestamp := ⟨⟨2000,1,1,by decide,by decide,by decide,by decide,by decide,by decide⟩,
      ⟨0,0,0,1,by decide,by decide,by decide,by decide⟩⟩
    Narrows (.int (2 ^ 53 + 1)) .float8 ∧ Narrows (.timestamp tick) .timestamptz ∧
      bind (.int (2 ^ 53 + 1)) .float8 = .ok (some [0x43,0x40,0,0,0,0,0,0]) ∧
      bind (.timestamp tick) .timestamptz = .ok (some [0,0,0,0,0,0,0,0]) ∧
      (∀ bytes, ¬ Denotes .float8 bytes (.int (2 ^ 53 + 1))) ∧
      ∀ bytes, ¬ Denotes .timestamptz bytes (.timestamp tick) := by
  intro tick
  have number : Narrows (.int (2 ^ 53 + 1)) .float8 := .number _ (by decide)
  have moment : Narrows (.timestamp tick) .timestamptz := .timestamp _ (by decide)
  obtain ⟨_,exact,possible⟩ := bind_exact_iff_admits number
  have rounded : bind (.int (2 ^ 53 + 1)) .float8 =
      .ok (some (encodeFloat8 ⟨0x4340000000000000⟩)) := by decide +kernel
  have beyond : ¬ ColumnType.Admits .float8 (.int (2 ^ 53 + 1)) := by
    intro admitted
    have held := exact.mpr admitted _ rounded
    rw [Denotes,number?_encodeFloat8] at held
    obtain ⟨_,value⟩ := Binary64.number?_eq_intCast_iff.mp held
    have other : Binary64.toInt ⟨0x4340000000000000⟩ ≠ (2 ^ 53 + 1 : Int64).toInt := by
      decide +kernel
    exact other value
  refine ⟨number,moment,by decide +kernel,by decide +kernel,fun bytes held => ?_,
    fun bytes held => ?_⟩
  · exact beyond (possible.mp ⟨bytes,held⟩)
  · have whole := ((bind_exact_iff_admits moment).2.2.mp ⟨bytes,held⟩).1
    exact absurd whole (by decide)

end FluentSql.Wire

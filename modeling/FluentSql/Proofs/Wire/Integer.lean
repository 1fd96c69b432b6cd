import FluentSql.Proofs.Value.Number
import FluentSql.Proofs.Wire.Cells
import Mathlib.Data.Int.CharZero

/-! Values bound to integer parameters. What is sent is the word of the very integer that the
value denotes: nothing wraps, saturates or loses a fraction, and a value that denotes no integer
of the type is rejected. -/
namespace FluentSql.Wire

/-- The shape of an integer on the wire: so many bytes, with a sign or without. -/
structure Word where
  width : Nat
  isSigned : Bool

namespace Word

/-- The integers of a word. -/
def Holds (w : Word) (n : Int) : Prop :=
  if w.isSigned then -2 ^ (8 * w.width - 1) ≤ n ∧ n < 2 ^ (8 * w.width - 1)
  else 0 ≤ n ∧ n < 2 ^ (8 * w.width)

/-- The bytes of an integer, the most significant first. Two's complement stands for a negative
one by what it is modulo the number of words. -/
def IsOf (w : Word) (n : Int) (bytes : Bytes) : Prop :=
  bytes.length = w.width ∧ (ofBigEndian bytes : Int) = n % 2 ^ (8 * w.width)

theorem isOf_signedBigEndian (w : Word) (n : Int) : w.IsOf n (signedBigEndian w.width n) := by
  have words : ((Nat.pow 256 w.width : Nat) : Int) = 2 ^ (8 * w.width) := by
    rw [Nat.pow_eq,show 256 = 2 ^ 8 from rfl,← Nat.pow_mul]
    exact Int.natCast_pow ..
  refine ⟨signedBigEndian_length w.width n,?_⟩
  rw [ofBigEndian_signedBigEndian,words]

end Word

namespace ColumnType

def word? : ColumnType → Option Word
  | .int2 => some ⟨2,true⟩
  | .int4 => some ⟨4,true⟩
  | .int8 => some ⟨8,true⟩
  | .oid => some ⟨4,false⟩
  | _ => none

theorem exists_integerType? {ty : ColumnType} {w : Word} (integral : ty.word? = some w) :
    ∃ target, ty.integerType? = some target ∧ target.width = w.width ∧
      ∀ n, target.least ≤ n ∧ n ≤ target.greatest ↔ w.Holds n := by
  cases ty with
  | int2 | int4 | int8 | oid =>
    cases integral
    refine ⟨_,rfl,rfl,fun n => ?_⟩
    simp only [Word.Holds,if_true,Bool.false_eq_true,if_false]
    omega
  | _ => cases integral

end ColumnType

variable {ty : ColumnType} {v : Value} {target : IntegerType} {n : Int} {bytes : Bytes}

theorem number?_of_integerOfFloat? {x : Binary64} (whole : integerOfFloat? x = some n) :
    x.number? = some (n : ℚ) := by
  rw [integerOfFloat?] at whole
  split at whole
  next integral =>
    rw [Bool.and_eq_true] at integral
    exact Binary64.number?_eq_intCast_iff.mpr ⟨integral.1,Option.some.inj whole⟩
  next => cases whole

section Integral

variable (integral : ty.integerType? = some target)
include integral

theorem bindInt_eq (n : Int64) : bindInt n ty = encodeInteger n.toInt target := by
  rw [bindInt.eq_def,integral]

theorem bindFloat_eq (x : Binary64) : bindFloat x ty =
    (integerOfFloat? x).elim (.error (.notInteger x.render ty)) (encodeInteger · target) := by
  rw [bindFloat.eq_def,integral]
  cases integerOfFloat? x <;> rfl

theorem bindDecimal_eq (d : Decimal) : bindDecimal d ty =
    if !d.isInteger then .error (.notInteger (String.ofList d.render) ty)
    else if -2 ^ 63 ≤ d.toInt ∧ d.toInt < 2 ^ 63 then encodeInteger d.toInt target
    else .error (.mismatch "decimal" ty) := by
  rw [bindDecimal.eq_def,integral]

theorem bindText_eq (s : String) : bindText s ty =
    (do
      let n ← (Numeral.readInt64 (Text.trim s.toList)).mapError .integer
      encodeInteger n.toInt target) := by
  rw [bindText.eq_def,integral]

/-- Values of types that are not numbers have no conversion to an integer. -/
theorem bind_foreign (foreign : v.typeName ∈ ["bool","bytes","date","timestamp","timestamptz"]) :
    bind v ty = .error (.mismatch v.typeName ty) := by
  cases ty with
  | int2 | int4 | int8 | oid =>
    cases v with
    | bool | bytes | date | timestamp | instant => rfl
    | _ => simp [Value.typeName] at foreign
  | _ => cases integral

/-- Whatever the value is, its integer is encoded as such. -/
theorem number?_of_bind (bound : bind v ty = .ok (some bytes)) :
    ∃ n : Int, v.number? = some (n : ℚ) ∧ encodeInteger n target = .ok bytes := by
  cases v with
  | null => cases bound
  | int n =>
    have sent := (Traversal.map_some_ok_iff ..).mp bound
    rw [bindInt_eq integral] at sent
    exact ⟨n.toInt,rfl,sent⟩
  | float x =>
    have sent := (Traversal.map_some_ok_iff ..).mp bound
    rw [bindFloat_eq integral] at sent
    cases whole : integerOfFloat? x with
    | some n =>
      rw [whole] at sent
      exact ⟨n,number?_of_integerOfFloat? whole,sent⟩
    | none =>
      rw [whole] at sent
      cases sent
  | decimal d =>
    have sent := (Traversal.map_some_ok_iff ..).mp bound
    rw [bindDecimal_eq integral] at sent
    split at sent
    next => cases sent
    next whole =>
      split at sent
      next =>
        have number : d.number = d.toInt :=
          Decimal.number_eq_intCast_iff.mpr ⟨by simpa using whole,rfl⟩
        exact ⟨d.toInt,congrArg some number,sent⟩
      next => cases sent
  | text s =>
    have sent := (Traversal.map_some_ok_iff ..).mp bound
    rw [bindText_eq integral] at sent
    obtain ⟨n,read,sent⟩ := (Traversal.mapError_bind_ok_iff ..).mp sent
    refine ⟨n.toInt,?_,sent⟩
    rw [Value.number?,Numeral.readInt64_ok_iff.mp read,Option.map_some]
  | _ =>
    rw [bind_foreign integral (by simp [Value.typeName])] at bound
    cases bound

end Integral

/-- What becomes of a value at a parameter for the integers of a word. -/
structure BindsExactly (v : Value) (ty : ColumnType) (w : Word) : Prop where
  /-- Only an integer of the type is sent, and as the bytes of that integer. -/
  sent : ∀ cell, bind v ty = .ok cell → ∃ (n : Int) (bytes : Bytes), cell = some bytes ∧
    v.number? = some (n : ℚ) ∧ w.Holds n ∧ w.IsOf n bytes
  /-- It is, where it is given as an integer or as a numeral. -/
  accepted : v.typeName ∈ ["int","text"] → ∀ n : Int, v.number? = some (n : ℚ) → w.Holds n →
    ∃ bytes, bind v ty = .ok (some bytes)
  /-- Every other value is rejected, -/
  rejected : (∀ n : Int, v.number? = some (n : ℚ) → ¬ w.Holds n) → ∃ e, bind v ty = .error e
  /-- and by its type if no number has that type. -/
  foreign : v.typeName ∈ ["bool","bytes","date","timestamp","timestamptz"] →
    bind v ty = .error (.mismatch v.typeName ty)

theorem exists_of_bind {w : Word} {cell : Option Bytes} (present : v ≠ .null)
    (integral : ty.word? = some w) (bound : bind v ty = .ok cell) :
    ∃ (n : Int) (bytes : Bytes), cell = some bytes ∧ v.number? = some (n : ℚ) ∧ w.Holds n ∧
      w.IsOf n bytes := by
  obtain ⟨target,type,width,range⟩ := ColumnType.exists_integerType? integral
  obtain ⟨bytes,rfl⟩ : ∃ bytes, cell = some bytes := by
    cases v with
    | null => exact absurd rfl present
    | _ =>
      obtain ⟨bytes,_,same⟩ := (Traversal.map_ok_iff ..).mp bound
      exact ⟨bytes,same.symm⟩
  obtain ⟨n,number,encoded⟩ := number?_of_bind type bound
  obtain ⟨inside,rfl⟩ := encodeInteger_ok_iff.mp encoded
  refine ⟨n,_,rfl,number,(range n).mp inside,?_⟩
  rw [width]
  exact w.isOf_signedBigEndian n

theorem exists_bind_of_number? {w : Word} (integral : ty.word? = some w)
    (written : v.typeName ∈ ["int","text"]) (number : v.number? = some (n : ℚ))
    (inside : w.Holds n) : ∃ bytes, bind v ty = .ok (some bytes) := by
  obtain ⟨target,type,_,range⟩ := ColumnType.exists_integerType? integral
  obtain ⟨low,high⟩ := (range n).mpr inside
  have encoded := encodeInteger_ok_iff.mpr ⟨⟨low,high⟩,rfl⟩
  refine ⟨signedBigEndian target.width n,?_⟩
  cases v with
  | int k =>
    have same : k.toInt = n := Int.cast_inj.mp (Option.some.inj number)
    refine (Traversal.map_some_ok_iff ..).mpr ?_
    rw [bindInt_eq type,same,encoded]
  | text s =>
    obtain ⟨m,numeral,cast⟩ := Option.map_eq_some_iff.mp number
    have same : m = n := Int.cast_inj.mp cast
    have fits := toInt_ofInt_of_integerType? type low high
    have read : Numeral.readInt64 (Text.trim s.toList) = .ok (.ofInt n) :=
      Numeral.readInt64_ok_iff.mpr (by rw [numeral,same,fits])
    refine (Traversal.map_some_ok_iff ..).mpr ?_
    rw [bindText_eq type]
    refine (Traversal.mapError_bind_ok_iff ..).mpr ⟨_,read,?_⟩
    rw [fits,encoded]
  | _ => simp [Value.typeName] at written

theorem bind_exactly {w : Word} (present : v ≠ .null) (integral : ty.word? = some w) :
    BindsExactly v ty w where
  sent := fun _ => exists_of_bind present integral
  accepted := fun written _ => exists_bind_of_number? integral written
  rejected := by
    intro outside
    cases bound : bind v ty with
    | error e => exact ⟨e,rfl⟩
    | ok cell =>
      obtain ⟨n,_,_,number,inside,_⟩ := exists_of_bind present integral bound
      exact absurd inside (outside n number)
  foreign := by
    intro foreign
    obtain ⟨target,type,_⟩ := ColumnType.exists_integerType? integral
    exact bind_foreign type foreign

/-- The least integer of two bytes, given as a float, and one and a half, given as a decimal. -/
theorem bind_exactly_bounds :
    let least : Value := .float ⟨0xc0e0000000000000⟩
    let fractional : Value := .decimal ⟨false,15,1,by decide,by decide⟩
    least ≠ .null ∧ fractional ≠ .null ∧ ColumnType.word? .int2 = some ⟨2,true⟩ ∧
      bind least .int2 = .ok (some [128,0]) ∧ least.number? = some ((-32768 : Int) : ℚ) ∧
      ∃ e, bind fractional .int2 = .error e := by
  intro least fractional
  have sent : bind least .int2 = .ok (some [128,0]) := by decide +kernel
  obtain ⟨n,bytes,same,number,inside,_,word⟩ :=
    (bind_exactly (v := least) nofun (w := ⟨2,true⟩) rfl).sent _ sent
  have exact : n = -32768 := by
    cases same
    change -2 ^ 15 ≤ n ∧ n < 2 ^ 15 at inside
    change (32768 : Int) = n % 2 ^ 16 at word
    omega
  refine ⟨nofun,nofun,rfl,sent,exact ▸ number,?_⟩
  refine (bind_exactly (v := fractional) nofun (w := ⟨2,true⟩) rfl).rejected fun k number => ?_
  have whole := (Decimal.number_eq_intCast_iff.mp (Option.some.inj number)).1
  cases whole

end FluentSql.Wire

import FluentSql.Proofs.Binary.Integer
import FluentSql.Proofs.Record.Lookup

/-! Numbers of JSON as values. Every number keeps its value on the way into a parameter, alone or
as a field of a record, but for the integers that neither a signed 64-bit integer nor a double
holds: these become the closest double. -/
namespace FluentSql
open Binary

namespace Json.Number

def number? : Json.Number → Option ℚ
  | .natural n => some n.toNat
  | .negative n => some n.toInt
  | .real x => x.number?

/-- The number as data that is to be serialized. -/
def toData : Json.Number → Data
  | .natural n => .integer n.toNat
  | .negative n => .integer n.toInt
  | .real x => .real x

/-- Beyond the signed integers, with more binary digits than a double has. -/
def IsWide : Json.Number → Prop
  | .natural n => 2 ^ 63 ≤ n.toNat ∧ n.toNat % 2 ^ 11 ≠ 0
  | _ => False

/-- What becomes of a number: converted by itself, as a member of an object or as a field of
data. The result is a failure, or what is found under the name. -/
inductive Arrives (n : Json.Number) : Except Failure (Option Value) → Prop
  | alone : Arrives n (.ok (some (.ofJson (.number n))))
  | converted : Arrives n (.ok (some (toValue (Json.number n))))
  | member (members : List (String × Json)) (column : String)
      (last : lastOf column members = some (.number n)) :
      Arrives n ((Record.ofJson (.object members)).map (·.get? column))
  | field (fields : List (String × Data)) (column : String)
      (last : lastOf column fields = some n.toData) :
      Arrives n ((Record.ofData (.object fields)).map (·.get? column))

/-- The same number, or a refusal. -/
def Keeps (n : Json.Number) (result : Except Failure (Option Value)) : Prop :=
  (∃ v, result = .ok (some v) ∧ v.number? = n.number?) ∨
    ∃ message, result = .error (.invalidArgument message)

variable {n : Json.Number} {result : Except Failure (Option Value)}

theorem toInt_toInt64 {n : UInt64} (small : n.toNat < 2 ^ 63) : n.toInt64.toInt = n.toNat := by
  have bits : n.toInt64.toInt = n.toBitVec.toInt := rfl
  have below : 2 * n.toBitVec.toNat < 2 ^ 64 := by
    change 2 * n.toNat < _
    omega
  rw [bits,BitVec.toInt_eq_toNat_of_lt below]
  rfl

/-- The numbers of 64 bits that a significand of 53 bits can hold. -/
theorem exists_significand_iff {k : ℕ} (wide : 2 ^ 63 ≤ k) (below : k < 2 ^ 64) :
    (∃ s b : ℕ, s < 2 ^ 53 ∧ k = s * 2 ^ b) ↔ k % 2 ^ 11 = 0 := by
  constructor
  · rintro ⟨s,b,fits,rfl⟩
    have shifted : 11 ≤ b := by
      by_contra few
      have power : 2 ^ b ≤ 2 ^ 10 := Nat.pow_le_pow_right (by decide) (by omega)
      have small := Nat.mul_lt_mul_of_lt_of_le fits power (by decide)
      omega
    exact Nat.mod_eq_zero_of_dvd (Nat.dvd_mul_left_of_dvd (Nat.pow_dvd_pow 2 shifted) s)
  · intro whole
    exact ⟨k / 2 ^ 11,11,by omega,by omega⟩

/-- Alone, a number is kept, or is wide and becomes the closest double. -/
theorem number?_ofJsonNumber (n : Json.Number) :
    (Value.ofJsonNumber n).number? = n.number? ∧ ¬ n.IsWide ∨
      n.IsWide ∧ ∃ (x : Binary64) (k : ℤ) (q : ℚ), Value.ofJsonNumber n = .float x ∧
        n.number? = some (k : ℚ) ∧ x.number? = some q ∧ double.Rounds k q ∧ q ≠ k := by
  cases n with
  | negative n => exact .inl ⟨rfl,not_false⟩
  | real x => exact .inl ⟨rfl,not_false⟩
  | natural n =>
    have below := n.toNat_lt
    rw [Value.ofJsonNumber]
    split
    next small =>
      have same := toInt_toInt64 small
      refine .inl ⟨?_,fun wide => by have := wide.1; omega⟩
      simp only [Value.number?,number?,same,Int.cast_natCast]
    next large =>
      obtain ⟨q,number,rounds⟩ :=
        Binary64.exists_number?_ofInt (n := n.toNat) (by rw [Int.natAbs_natCast]; exact below)
      have double : Binary64.ofRatio false n.toNat 1 = .ofInt n.toNat := by
        rw [Binary64.ofInt,Int.natAbs_natCast,decide_eq_false (by omega)]
      have exact_iff := rounds.exact_iff
      rw [Int.natAbs_natCast] at exact_iff
      have held := exact_iff.trans (exists_significand_iff (by omega) below)
      rw [double]
      by_cases whole : n.toNat % 2 ^ 11 = 0
      · refine .inl ⟨?_,fun wide => wide.2 whole⟩
        rw [Value.number?,number,number?,held.mpr whole,Int.cast_natCast]
      · exact .inr ⟨⟨by omega,whole⟩,_,n.toNat,q,rfl,by rw [number?,Int.cast_natCast],number,rounds,
          fun same => whole (held.mp same)⟩

theorem ofInteger_toNat (n : UInt64) : Json.ofInteger n.toNat = .ok (.number (.natural n)) := by
  have below := n.toNat_lt
  rw [Json.ofInteger,if_pos (by omega),Int.toNat_natCast,UInt64.ofNat_toNat]

theorem ofInteger_toInt {n : Int64} (negative : n < 0) :
    Json.ofInteger n.toInt = .ok (.number (.negative n)) := by
  have low := n.le_toInt
  have below : n.toInt < 0 := Int64.lt_iff_toInt_lt.mp negative
  rw [Json.ofInteger,if_neg (by omega),if_pos (by omega),Int64.ofInt_toInt]

/-- Serializing a number gives the number. A float that is not finite becomes null. -/
theorem exists_ofData_toData (n : Json.Number) : ∃ document, ofData n.toData = .ok document ∧
    (Value.ofJson document).number? = (Value.ofJsonNumber n).number? ∧
    (n.IsWide → Value.ofJson document = Value.ofJsonNumber n) := by
  cases n with
  | natural n => exact ⟨_,by rw [toData,ofData,ofInteger_toNat],rfl,fun _ => rfl⟩
  | negative n =>
    have high := n.toInt_lt
    rcases Int.lt_or_le n.toInt 0 with negative | positive
    · have same := ofInteger_toInt (Int64.lt_iff_toInt_lt.mpr negative)
      exact ⟨_,by rw [toData,ofData,same],rfl,False.elim⟩
    · have same : Json.ofInteger n.toInt = .ok (.number (.natural (.ofNat n.toInt.toNat))) := by
        rw [Json.ofInteger,if_pos (by omega)]
      have size : (UInt64.ofNat n.toInt.toNat).toNat = n.toInt.toNat := by
        rw [UInt64.toNat_ofNat',Nat.mod_eq_of_lt (by omega)]
      have small : (UInt64.ofNat n.toInt.toNat).toNat < 2 ^ 63 := by omega
      refine ⟨_,by rw [toData,ofData,same],?_,False.elim⟩
      rw [Value.ofJson,Value.ofJsonNumber,if_pos small,Value.number?,toInt_toInt64 small,size,
        Int.toNat_of_nonneg positive]
      rfl
  | real x =>
    refine ⟨_,by rw [toData,ofData],?_,False.elim⟩
    split
    next => rfl
    next infinite =>
      change none = x.number?
      rw [Binary64.number?_eq,if_neg infinite]

theorem Arrives.cases (arrives : n.Arrives result) :
    (∃ message, result = .error (.invalidArgument message)) ∨
      ∃ v, result = .ok (some v) ∧ v.number? = (Value.ofJsonNumber n).number? ∧
        (n.IsWide → v = Value.ofJsonNumber n) := by
  cases arrives with
  | alone => exact .inr ⟨_,rfl,rfl,fun _ => rfl⟩
  | converted => exact .inr ⟨_,rfl,rfl,fun _ => rfl⟩
  | member members column last =>
    rw [Record.get?_ofJson,last,Option.map_some]
    exact .inr ⟨_,rfl,rfl,fun _ => rfl⟩
  | field fields column last =>
    refine (Record.get?_ofData last).imp_right ?_
    rintro ⟨document,converted,found⟩
    obtain ⟨document',converted',number,wide⟩ := n.exists_ofData_toData
    cases converted.symm.trans converted'
    exact ⟨_,found,number,wide⟩

/-- A number is kept on every way but for the wide integers. These become one double, the closest
there is, which denotes another number. -/
theorem arrives_keeps_iff (n : Json.Number) :
    ((∀ result, n.Arrives result → n.Keeps result) ↔ ¬ n.IsWide) ∧
      (n.IsWide → ∃ (x : Binary64) (k : ℤ) (q : ℚ), n.number? = some (k : ℚ) ∧
        x.number? = some q ∧ double.Rounds k q ∧ q ≠ k ∧
        ∀ v, n.Arrives (.ok (some v)) → v = .float x) := by
  rcases n.number?_ofJsonNumber with ⟨same,narrow⟩ | ⟨wide,x,k,q,float,number,held,rounds,other⟩
  · refine ⟨iff_of_true (fun result arrives => ?_) narrow,fun wide => absurd wide narrow⟩
    rcases arrives.cases with refused | ⟨v,found,kept,_⟩
    · exact .inr refused
    · exact .inl ⟨v,found,kept.trans same⟩
  · refine ⟨iff_of_false (fun keeps => ?_) (not_not_intro wide),fun _ => ?_⟩
    · rcases keeps _ .alone with ⟨v,found,kept⟩ | ⟨_,refused⟩
      · cases found
        rw [Value.ofJson,float,Value.number?,held,number] at kept
        exact other (Option.some.inj kept)
      · cases refused
    · refine ⟨x,k,q,number,held,rounds,other,fun v arrives => ?_⟩
      rcases arrives.cases with ⟨_,refused⟩ | ⟨w,found,_,only⟩
      · cases refused
      · cases found
        rw [only wide,float]

/-- The greatest unsigned integer as the field of a record is a power of two. -/
theorem arrives_keeps_iff_greatest :
    let n : Json.Number := .natural 0xffffffffffffffff
    let field := Record.ofData (.object [("n",.integer 0xffffffffffffffff)])
    n.IsWide ∧ n.Arrives (field.map (·.get? "n")) ∧
      field.map (·.get? "n") = .ok (some (.float ⟨0x43f0000000000000⟩)) ∧
      ¬ ∀ result, n.Arrives result → n.Keeps result := by
  intro n field
  have wide : n.IsWide := ⟨by decide,by decide⟩
  refine ⟨wide,.field _ _ rfl,by decide +kernel,fun keeps => ?_⟩
  exact (arrives_keeps_iff n).1.mp keeps wide

end Json.Number
end FluentSql

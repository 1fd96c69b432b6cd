import FluentSql.Proofs.Wire.Integer

/-! Integers accepted by the parameters that hold them. A value that denotes an integer of the
type is sent, however it is given, with one exception: the least 64-bit integer is refused where
it is given as a float. -/
namespace FluentSql.Wire

variable {ty : ColumnType} {v : Value} {w : Word} {n : Int}

/-- Every word is within 64 bits, and only one of them reaches down to the least. -/
theorem ColumnType.within_of_word? (integral : ty.word? = some w) (inside : w.Holds n) :
    -2 ^ 63 ≤ n ∧ n < 2 ^ 63 ∧ (n = -2 ^ 63 → ty = .int8) := by
  cases ty with
  | int2 | int4 | int8 | oid =>
    cases integral
    simp only [Word.Holds,if_true,Bool.false_eq_true,if_false] at inside
    refine ⟨by omega,by omega,fun least => ?_⟩
    first | rfl | omega
  | _ => cases integral

theorem exists_encodeInteger (integral : ty.word? = some w) (inside : w.Holds n) :
    ∃ target, ty.integerType? = some target ∧
      encodeInteger n target = .ok (signedBigEndian w.width n) := by
  obtain ⟨target,type,width,range⟩ := ColumnType.exists_integerType? integral
  refine ⟨target,type,encodeInteger_ok_iff.mpr ⟨(range n).mpr inside,?_⟩⟩
  rw [width]

section Held

variable (integral : ty.word? = some w) (inside : w.Holds n)
include integral inside

theorem bindInt_of_holds {k : Int64} (number : (Value.int k).number? = some (n : ℚ)) :
    bindInt k ty = .ok (signedBigEndian w.width n) := by
  obtain ⟨target,type,encoded⟩ := exists_encodeInteger integral inside
  have same : k.toInt = n := Int.cast_inj.mp (Option.some.inj number)
  rw [bindInt_eq type,same,encoded]

theorem bindDecimal_of_holds {d : Decimal} (number : (Value.decimal d).number? = some (n : ℚ)) :
    bindDecimal d ty = .ok (signedBigEndian w.width n) := by
  obtain ⟨target,type,encoded⟩ := exists_encodeInteger integral inside
  obtain ⟨low,high,_⟩ := ColumnType.within_of_word? integral inside
  obtain ⟨whole,same⟩ := Decimal.number_eq_intCast_iff.mp (Option.some.inj number)
  rw [bindDecimal_eq type,whole,same,Bool.not_true,if_neg Bool.false_ne_true,if_pos ⟨low,high⟩,
    encoded]

/-- The sizes of floats are compared with `2 ^ 63`, on either side of zero. -/
theorem bindFloat_of_holds {x : Binary64} (number : x.number? = some (n : ℚ)) :
    bindFloat x ty = if n = -2 ^ 63 then .error (.notInteger x.render ty)
      else .ok (signedBigEndian w.width n) := by
  obtain ⟨target,type,encoded⟩ := exists_encodeInteger integral inside
  obtain ⟨low,high,_⟩ := ColumnType.within_of_word? integral inside
  obtain ⟨whole,same⟩ := Binary64.number?_eq_intCast_iff.mp number
  rw [bindFloat_eq type,integerOfFloat?,whole,same,Bool.true_and]
  by_cases least : n = -2 ^ 63
  · rw [if_pos least,if_neg (by simp [least])]
    rfl
  · have small : n.natAbs < 2 ^ 63 := by omega
    rw [if_neg least,if_pos (decide_eq_true small),Option.elim_some,encoded]

end Held

/-- The double of `-2 ^ 63`, which is refused although a type has its integer. -/
def leastDouble : Binary64 := ⟨0xc3e0000000000000⟩

theorem eq_leastDouble_iff {x : Binary64} (number : x.number? = some (n : ℚ)) :
    x = leastDouble ↔ n = -2 ^ 63 := by
  constructor
  · rintro rfl
    rw [← (Binary64.number?_eq_intCast_iff.mp number).2]
    decide +kernel
  · rintro rfl
    rw [Binary64.eq_ofInt_of_number? number (by decide)]
    decide +kernel

/-- An integer of the type is sent as itself, unless it is the least 64-bit integer as a float:
then the error says that it is no integer. -/
theorem bind_held_iff (kind : v.typeName ∈ ["int","float","decimal"])
    (integral : ty.word? = some w) (number : v.number? = some (n : ℚ)) (inside : w.Holds n) :
    ((∃ bytes, bind v ty = .ok (some bytes) ∧ w.IsOf n bytes) ↔ v ≠ .float leastDouble) ∧
      (v = .float leastDouble → ty = .int8 ∧ n = -2 ^ 63 ∧
        bind v ty = .error (.notInteger "-9223372036854776000" .int8)) := by
  have word := w.isOf_signedBigEndian n
  cases v with
  | int k =>
    have sent := bindInt_of_holds integral inside number
    exact ⟨iff_of_true ⟨_,congrArg (Except.map some) sent,word⟩ nofun,nofun⟩
  | decimal d =>
    have sent := bindDecimal_of_holds integral inside number
    exact ⟨iff_of_true ⟨_,congrArg (Except.map some) sent,word⟩ nofun,nofun⟩
  | float x =>
    have sent := bindFloat_of_holds integral inside number
    rw [Ne,Value.float.injEq,eq_leastDouble_iff number,bind,sent]
    split
    next least =>
      obtain rfl := (ColumnType.within_of_word? integral inside).2.2 least
      obtain rfl := (eq_leastDouble_iff number).mpr least
      have text : leastDouble.render = "-9223372036854776000" := by decide +kernel
      refine ⟨⟨nofun,fun other => absurd least other⟩,fun _ => ⟨rfl,least,?_⟩⟩
      rw [text]
      rfl
    next other => exact ⟨iff_of_true ⟨_,rfl,word⟩ other,fun least => absurd least other⟩
  | _ => simp [Value.typeName] at kind

/-- The least 64-bit integer, as a decimal with a fraction of zeros and as a float. -/
theorem bind_held_iff_least :
    let decimal : Value := .decimal ⟨true,9223372036854775808000,3,by decide,by decide⟩
    let float : Value := .float leastDouble
    decimal.typeName ∈ ["int","float","decimal"] ∧ float.typeName ∈ ["int","float","decimal"] ∧
      ColumnType.word? .int8 = some ⟨8,true⟩ ∧ Word.Holds ⟨8,true⟩ (-2 ^ 63) ∧
      decimal.number? = some ((-2 ^ 63 : Int) : ℚ) ∧ float.number? = some ((-2 ^ 63 : Int) : ℚ) ∧
      (∃ bytes, bind decimal .int8 = .ok (some bytes) ∧ Word.IsOf ⟨8,true⟩ (-2 ^ 63) bytes) ∧
      bind float .int8 = .error (.notInteger "-9223372036854776000" .int8) := by
  intro decimal float
  have inside : Word.Holds ⟨8,true⟩ (-2 ^ 63) := ⟨by decide,by decide⟩
  have asDecimal : decimal.number? = some ((-2 ^ 63 : Int) : ℚ) :=
    congrArg some (Decimal.number_eq_intCast_iff.mpr ⟨by decide +kernel,by decide +kernel⟩)
  have asFloat : float.number? = some ((-2 ^ 63 : Int) : ℚ) :=
    Binary64.number?_eq_intCast_iff.mpr ⟨by decide +kernel,by decide +kernel⟩
  have word : ColumnType.word? .int8 = some ⟨8,true⟩ := rfl
  have sent := (bind_held_iff (by decide) word asDecimal inside).1.mpr nofun
  have refused := ((bind_held_iff (by decide) word asFloat inside).2 rfl).2.2
  exact ⟨by decide,by decide,word,inside,asDecimal,asFloat,sent,refused⟩

end FluentSql.Wire

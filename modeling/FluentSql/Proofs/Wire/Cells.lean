import FluentSql.Proofs.Calendar.Microseconds
import FluentSql.Proofs.Text.Identifier
import FluentSql.Proofs.Wire.Bytes
import FluentSql.Wire.Encode

/-! Cells of each type read back from the bytes that binding writes for them. -/
namespace FluentSql.Wire
open Calendar

/-- The type of all values that are decoded from columns of a type. -/
def ColumnType.valueType? : ColumnType → Option String
  | .bool => some "bool"
  | .int2 | .int4 | .int8 | .oid => some "int"
  | .float4 | .float8 => some "float"
  | .numeric => some "decimal"
  | .text | .varchar | .bpchar | .name | .unknown | .uuid | .json | .jsonb => some "text"
  | .bytea => some "bytes"
  | .date => some "date"
  | .timestamp => some "timestamp"
  | .timestamptz => some "timestamptz"
  | .builtin _ | .custom _ _ => none

variable {ty : ColumnType} {bytes : Bytes} {v : Value}

private theorem typeName_of_decodeJson? (decoded : decodeJson? bytes = some v) :
    v.typeName = "text" := by
  simp only [decodeJson?,Option.bind_eq_bind,Option.bind_eq_some_iff,Option.some.injEq] at decoded
  obtain ⟨text,-,document,-,rfl⟩ := decoded
  rfl

theorem typeName_of_decodeBytes? (decoded : decodeBytes? bytes ty = some v) :
    ty.valueType? = some v.typeName := by
  cases ty with
  | json => rw [typeName_of_decodeJson? decoded,ColumnType.valueType?]
  | jsonb =>
    cases bytes with
    | nil => cases decoded
    | cons b rest =>
      change (if b = 1 then decodeJson? rest else none) = some v at decoded
      split at decoded
      · rw [typeName_of_decodeJson? decoded,ColumnType.valueType?]
      · cases decoded
  | bytea =>
    cases decoded
    rfl
  | builtin typeName => cases decoded
  | custom typeName schema => cases decoded
  | date | timestamp | timestamptz =>
    obtain ⟨n,-,read⟩ := Option.bind_eq_some_iff.mp decoded
    obtain ⟨_,-,rfl⟩ := Option.map_eq_some_iff.mp read
    rfl
  | _ =>
    obtain ⟨_,-,rfl⟩ := Option.map_eq_some_iff.mp decoded
    rfl

theorem decode_of_decodeBytes? (decoded : decodeBytes? bytes ty = some v) :
    decode ty (some bytes) = .ok v := by
  have supported : ty.isSupported = true := by
    cases ty with
    | builtin typeName => cases decoded
    | custom typeName schema => cases decoded
    | _ => rfl
  simp only [decode,supported,decoded]
  rfl

theorem decodeBytes?_bool (b : Bool) :
    decodeBytes? [if b then 1 else 0] .bool = some (.bool b) := by
  cases b <;> rfl

theorem encodeInteger_ok_iff {target : IntegerType} {n : Int} :
    encodeInteger n target = .ok bytes ↔
    (target.least ≤ n ∧ n ≤ target.greatest) ∧ signedBigEndian target.width n = bytes := by
  rw [encodeInteger]
  split
  next tooLarge => simp [Int.not_le.mpr tooLarge]
  next high =>
    split
    next tooSmall => simp [Int.not_le.mpr tooSmall]
    next low => simp [Int.not_lt.mp high,Int.not_lt.mp low]

/-- The integers of a type fit in its bytes, and in 64 bits. -/
theorem decodeBytes?_integer {target : IntegerType} {n : Int}
    (integral : ty.integerType? = some target) (low : target.least ≤ n)
    (high : n ≤ target.greatest) :
    decodeBytes? (signedBigEndian target.width n) ty = some (.int (.ofInt n)) := by
  cases ty with
  | int2 | int4 | int8 =>
    cases integral
    rw [decodeBytes?,decodeInt?_signedBigEndian,Option.map_some]
    · simp at low ⊢
      omega
    · simp at high ⊢
      omega
  | oid =>
    cases integral
    obtain ⟨k,rfl⟩ := Int.eq_ofNat_of_zero_le low
    have fits : k < Nat.pow 256 4 := by
      change k < 4294967296
      simp at high
      omega
    rw [decodeBytes?,signedBigEndian_natCast fits,decodeNat?_bigEndian fits,Option.map_some]
    rfl
  | _ => cases integral

theorem toInt_ofInt_of_integerType? {target : IntegerType} {n : Int}
    (integral : ty.integerType? = some target) (low : target.least ≤ n)
    (high : n ≤ target.greatest) : (Int64.ofInt n).toInt = n := by
  have wide : -2 ^ 63 ≤ target.least ∧ target.greatest < 2 ^ 63 := by
    cases ty <;> cases integral <;> decide
  exact Int64.toInt_ofInt_of_le (Int.le_trans wide.1 low) (Int.lt_of_le_of_lt high wide.2)

theorem decodeBytes?_float4 (x : Binary32) :
    decodeBytes? (encodeFloat4 x) .float4 = some (.float x.widen) := by
  have bits : decodeNat? 4 (encodeFloat4 x) = some x.bits.toNat :=
    decodeNat?_bigEndian x.bits.toNat_lt
  rw [decodeBytes?,bits,Option.map_some,UInt32.ofNat_toNat]

theorem decodeBytes?_float8 (x : Binary64) :
    decodeBytes? (encodeFloat8 x) .float8 = some (.float x) := by
  have bits : decodeNat? 8 (encodeFloat8 x) = some x.bits.toNat :=
    decodeNat?_bigEndian x.bits.toNat_lt
  rw [decodeBytes?,bits,Option.map_some,UInt64.ofNat_toNat]

theorem decodeBytes?_text (textual : ty.isTextual = true) (supported : ty.isSupported = true)
    (s : String) : decodeBytes? (encodeText s ty) ty = some (.text s) := by
  have plain : ty.hasTextVersion = false := by
    cases ty <;> first | rfl | cases supported
  rw [encodeText,plain]
  cases ty with
  | text | varchar | bpchar | name | unknown =>
    exact congrArg (Option.map Value.text) (toText?_ofText s)
  | builtin typeName => cases supported
  | custom typeName schema => cases supported
  | _ => cases textual

theorem decodeInt?_encodeDate (d : Date) : decodeInt? 4 (encodeDate d) = some d.number := by
  have first := d.number_ge
  have last := d.number_lt
  apply decodeInt?_signedBigEndian
  · change -(4294967296 : Int) ≤ _
    omega
  · change _ < (4294967296 : Int)
    omega

theorem decodeBytes?_date (d : Date) : decodeBytes? (encodeDate d) .date = some (.date d) := by
  rw [decodeBytes?,decodeInt?_encodeDate,Option.bind_some,Date.ofNumber?_number,Option.map_some]

theorem decodeInt?_encodeTimestamp (t : Timestamp) :
    decodeInt? 8 (encodeTimestamp t) = some t.microseconds := by
  obtain ⟨low,high⟩ := t.microseconds_fits
  apply decodeInt?_signedBigEndian
  · change -(18446744073709551616 : Int) ≤ _
    omega
  · change _ < (18446744073709551616 : Int)
    omega

theorem decodeBytes?_timestamp (t : Timestamp) : decodeBytes? (encodeTimestamp t) .timestamp =
    (Timestamp.ofMicroseconds? t.microseconds).map .timestamp := by
  rw [decodeBytes?,decodeInt?_encodeTimestamp,Option.bind_some]

theorem decodeBytes?_timestamptz (t : Timestamp) : decodeBytes? (encodeTimestamp t) .timestamptz =
    (Timestamp.ofMicroseconds? t.microseconds).map fun t => .instant ⟨t⟩ := by
  rw [decodeBytes?,decodeInt?_encodeTimestamp,Option.bind_some]

theorem decodeBytes?_uuid (u : Uuid) :
    decodeBytes? u.bytes .uuid = some (.text (String.ofList u.render)) := by
  rw [decodeBytes?,Uuid.of?_bytes,Option.map_some]

end FluentSql.Wire

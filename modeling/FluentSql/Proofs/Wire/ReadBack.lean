import FluentSql.Proofs.Binary.Widening
import FluentSql.Proofs.Traversal
import FluentSql.Proofs.Wire.Cells
import FluentSql.Proofs.Wire.Numeric
import Mathlib.Control.Monad.Basic

/-! What binding writes is read back. Whatever value the bytes of a parameter were made from,
they are the bytes of the type of the column: they decode to a value of the one type of its
cells, and that value is bound as the same bytes. -/
namespace FluentSql.Wire
open Calendar

/-- The column types with a wire form of their own. JSON is text in another guise. -/
def ColumnType.isScalar : ColumnType → Bool
  | .json | .jsonb | .builtin _ | .custom _ _ => false
  | _ => true

/-- The timestamp that a value stands for where it is bound to a column of this type. -/
def timestamp? (v : Value) (ty : ColumnType) : Option Timestamp :=
  match v, ty with
  | .timestamp t, _ => some t
  | .instant t, _ => some t.utc
  | .text s, .timestamp => (Timestamp.read s.toList).toOption
  | .text s, .timestamptz => (Instant.read s.toList).toOption.map Instant.utc
  | _, _ => none

def denotesLeapSecond (v : Value) (ty : ColumnType) : Bool :=
  (timestamp? v ty).any (·.time.isLeapSecond)

/-- The bytes that belong to the columns of a type. -/
inductive Layout : ColumnType → Bytes → Prop
  | bool (b : Bool) : Layout .bool [if b then 1 else 0]
  | integer {ty : ColumnType} {target : IntegerType} {n : Int}
      (integral : ty.integerType? = some target) (low : target.least ≤ n)
      (high : n ≤ target.greatest) : Layout ty (signedBigEndian target.width n)
  | float4 {x : Binary32} (settled : x.Settled) : Layout .float4 (encodeFloat4 x)
  | float8 (x : Binary64) : Layout .float8 (encodeFloat8 x)
  | numeric (d : Decimal) : Layout .numeric (Numeric.encode d)
  | text {ty : ColumnType} (textual : ty.isTextual = true) (s : String) :
      Layout ty (encodeText s ty)
  | bytea (bytes : Bytes) : Layout .bytea bytes
  | date (d : Date) : Layout .date (encodeDate d)
  | timestamp {t : Timestamp} (regular : t.time.isLeapSecond = false) :
      Layout .timestamp (encodeTimestamp t)
  | timestamptz {t : Timestamp} (regular : t.time.isLeapSecond = false) :
      Layout .timestamptz (encodeTimestamp t)
  | uuid (u : Uuid) : Layout .uuid u.bytes

variable {ty : ColumnType} {bytes : Bytes}

theorem layout_of_encodeInteger {n : Int} {target : IntegerType}
    (integral : ty.integerType? = some target) (bound : encodeInteger n target = .ok bytes) :
    Layout ty bytes := by
  obtain ⟨⟨low,high⟩,rfl⟩ := encodeInteger_ok_iff.mp bound
  exact .integer integral low high

/-- Text is the last resort of most values, and a mismatch where the column has no text. -/
theorem layout_of_textual {s : String} {e : BindError}
    (bound : (if ty.isTextual then .ok (encodeText s ty) else .error e) = Except.ok bytes) :
    Layout ty bytes := by
  split at bound
  · cases bound
    exact .text ‹_› s
  · cases bound

theorem layout_of_bindBool {b : Bool} (bound : bindBool b ty = .ok bytes) : Layout ty bytes := by
  rw [bindBool] at bound
  split at bound
  · cases bound
    exact .text ‹_› _
  · split at bound
    · subst ty
      cases bound
      exact .bool b
    · cases bound

theorem layout_of_bindInt {n : Int64} (bound : bindInt n ty = .ok bytes) : Layout ty bytes := by
  rw [bindInt.eq_def] at bound
  split at bound
  · exact layout_of_encodeInteger ‹_› bound
  · cases bound
    exact .float4 (Binary32.settled_ofInt _)
  · cases bound
    exact .float8 _
  · cases bound
    exact .numeric _
  · exact layout_of_textual bound

theorem layout_of_bindFloat {x : Binary64} (bound : bindFloat x ty = .ok bytes) :
    Layout ty bytes := by
  rw [bindFloat.eq_def] at bound
  split at bound
  · split at bound
    · exact layout_of_encodeInteger ‹_› bound
    · cases bound
  · cases bound
    exact .float4 (Binary32.settled_ofDouble _)
  · cases bound
    exact .float8 _
  · split at bound
    · cases bound
      exact .numeric _
    · cases bound
  · exact layout_of_textual bound

theorem layout_of_bindDecimal {d : Decimal} (bound : bindDecimal d ty = .ok bytes) :
    Layout ty bytes := by
  rw [bindDecimal.eq_def] at bound
  split at bound
  · split at bound
    · cases bound
    · split at bound
      · exact layout_of_encodeInteger ‹_› bound
      · cases bound
  · cases bound
    exact .float4 (Binary32.settled_ofDouble _)
  · cases bound
    exact .float8 _
  · cases bound
    exact .numeric _
  · exact layout_of_textual bound

theorem layout_of_bindText {s : String} (scalar : ty.isScalar = true)
    (regular : denotesLeapSecond (.text s) ty = false) (bound : bindText s ty = .ok bytes) :
    Layout ty bytes := by
  rw [bindText.eq_def] at bound
  split at bound
  · obtain ⟨n,-,bound⟩ := (Traversal.mapError_bind_ok_iff ..).mp bound
    exact layout_of_encodeInteger ‹_› bound
  · obtain ⟨x,-,bound⟩ := (Traversal.mapError_bind_ok_iff ..).mp bound
    cases bound
    exact .float4 (Binary32.settled_ofDouble x)
  · obtain ⟨x,-,bound⟩ := (Traversal.mapError_bind_ok_iff ..).mp bound
    cases bound
    exact .float8 x
  · obtain ⟨d,-,bound⟩ := (Traversal.mapError_bind_ok_iff ..).mp bound
    cases bound
    exact .numeric d
  · obtain ⟨d,-,bound⟩ := (Traversal.mapError_bind_ok_iff ..).mp bound
    cases bound
    exact .date d
  · obtain ⟨t,read,bound⟩ := (Traversal.mapError_bind_ok_iff ..).mp bound
    cases bound
    rw [denotesLeapSecond,timestamp?,read] at regular
    exact .timestamp regular
  · obtain ⟨t,read,bound⟩ := (Traversal.mapError_bind_ok_iff ..).mp bound
    cases bound
    rw [denotesLeapSecond,timestamp?,read] at regular
    exact .timestamptz regular
  · obtain ⟨u,-,bound⟩ := (Traversal.mapError_bind_ok_iff ..).mp bound
    cases bound
    exact .uuid u
  · cases scalar
  · cases scalar
  · exact layout_of_textual bound

theorem layout_of_bindBytes {b : List UInt8} (bound : bindBytes b ty = .ok bytes) :
    Layout ty bytes := by
  rw [bindBytes] at bound
  split at bound
  · subst ty
    cases bound
    exact .bytea bytes
  · cases bound

theorem layout_of_bindDate {d : Date} (bound : bindDate d ty = .ok bytes) : Layout ty bytes := by
  rw [bindDate.eq_def] at bound
  split at bound
  · cases bound
    exact .date d
  · cases bound
    exact .timestamp rfl
  · cases bound
    exact .timestamptz rfl
  · exact layout_of_textual bound

theorem layout_of_bindTimestamp {t : Timestamp} (regular : t.time.isLeapSecond = false)
    (bound : bindTimestamp t ty = .ok bytes) : Layout ty bytes := by
  rw [bindTimestamp.eq_def] at bound
  split at bound
  · cases bound
    exact .timestamp regular
  · cases bound
    exact .timestamptz regular
  · exact layout_of_textual bound

theorem layout_of_bindInstant {t : Instant} (regular : t.utc.time.isLeapSecond = false)
    (bound : bindInstant t ty = .ok bytes) : Layout ty bytes := by
  rw [bindInstant.eq_def] at bound
  split at bound
  · cases bound
    exact .timestamp regular
  · cases bound
    exact .timestamptz regular
  · exact layout_of_textual bound

/-- Every value is written as bytes that belong to the type of the parameter. -/
theorem layout_of_bind {v : Value} (scalar : ty.isScalar = true)
    (regular : denotesLeapSecond v ty = false) (bound : bind v ty = .ok (some bytes)) :
    Layout ty bytes := by
  cases v with
  | null => cases bound
  | bool b => exact layout_of_bindBool ((Traversal.map_some_ok_iff ..).mp bound)
  | int n => exact layout_of_bindInt ((Traversal.map_some_ok_iff ..).mp bound)
  | float x => exact layout_of_bindFloat ((Traversal.map_some_ok_iff ..).mp bound)
  | text s => exact layout_of_bindText scalar regular ((Traversal.map_some_ok_iff ..).mp bound)
  | bytes b => exact layout_of_bindBytes ((Traversal.map_some_ok_iff ..).mp bound)
  | date d => exact layout_of_bindDate ((Traversal.map_some_ok_iff ..).mp bound)
  | timestamp t => exact layout_of_bindTimestamp regular ((Traversal.map_some_ok_iff ..).mp bound)
  | instant t => exact layout_of_bindInstant regular ((Traversal.map_some_ok_iff ..).mp bound)
  | decimal d => exact layout_of_bindDecimal ((Traversal.map_some_ok_iff ..).mp bound)

theorem bind_integer {target : IntegerType} {n : Int} (integral : ty.integerType? = some target)
    (low : target.least ≤ n) (high : n ≤ target.greatest) :
    bind (.int (.ofInt n)) ty = .ok (some (signedBigEndian target.width n)) := by
  have value := toInt_ofInt_of_integerType? integral low high
  rw [bind,bindInt.eq_def,integral,value]
  simp only [encodeInteger,if_neg (Int.not_lt.mpr low),if_neg (Int.not_lt.mpr high)]
  rfl

theorem bind_text (textual : ty.isTextual = true) (supported : ty.isSupported = true)
    (s : String) : bind (.text s) ty = .ok (some (encodeText s ty)) := by
  cases ty with
  | text | varchar | bpchar | name | unknown => rfl
  | builtin typeName => cases supported
  | custom typeName schema => cases supported
  | _ => cases textual

theorem bind_uuid (u : Uuid) :
    bind (.text (String.ofList u.render)) .uuid = .ok (some u.bytes) := by
  rw [bind,bindText.eq_def]
  simp only [String.toList_ofList,Uuid.trim_render,Uuid.read_render]
  rfl

/-- Bytes that belong to a type are read, and what is read from them is written alike. -/
theorem Layout.exists_decodeBytes? (layout : Layout ty bytes) (supported : ty.isSupported = true) :
    ∃ v, decodeBytes? bytes ty = some v ∧ bind v ty = .ok (some bytes) := by
  cases layout with
  | bool b => exact ⟨_,decodeBytes?_bool b,rfl⟩
  | integer integral low high =>
    exact ⟨_,decodeBytes?_integer integral low high,bind_integer integral low high⟩
  | @float4 x settled =>
    refine ⟨_,decodeBytes?_float4 x,?_⟩
    change Except.ok (some (encodeFloat4 (.ofDouble x.widen))) = _
    rw [Binary32.ofDouble_widen settled]
  | float8 x => exact ⟨_,decodeBytes?_float8 x,rfl⟩
  | numeric d =>
    obtain ⟨d',decoded,same⟩ := Numeric.exists_decode?_encode d
    refine ⟨.decimal d',?_,?_⟩
    · rw [decodeBytes?,decoded,Option.map_some]
    · rw [← same]
      rfl
  | text textual s =>
    exact ⟨_,decodeBytes?_text textual supported s,bind_text textual supported s⟩
  | bytea => exact ⟨.bytes bytes,rfl,rfl⟩
  | date d => exact ⟨_,decodeBytes?_date d,rfl⟩
  | timestamp regular =>
    obtain ⟨t',read,-,same⟩ := Timestamp.exists_ofMicroseconds?_microseconds regular
    refine ⟨.timestamp t',?_,?_⟩
    · rw [decodeBytes?_timestamp,read,Option.map_some]
    · rw [encodeTimestamp,← same]
      rfl
  | timestamptz regular =>
    obtain ⟨t',read,-,same⟩ := Timestamp.exists_ofMicroseconds?_microseconds regular
    refine ⟨.instant ⟨t'⟩,?_,?_⟩
    · rw [decodeBytes?_timestamptz,read,Option.map_some]
    · rw [encodeTimestamp,← same]
      rfl
  | uuid u => exact ⟨_,decodeBytes?_uuid u,bind_uuid u⟩

/-- Reading what was written for a value gives a value of the type of the column, and writing
that changes nothing. -/
theorem decode_of_bind {v : Value} {ty : ColumnType} {bytes : Bytes} (scalar : ty.isScalar = true)
    (regular : denotesLeapSecond v ty = false) (bound : bind v ty = .ok (some bytes)) :
    ∃ w, decode ty (some bytes) = .ok w ∧ ty.valueType? = some w.typeName ∧
      bind w ty = .ok (some bytes) := by
  have supported : ty.isSupported = true := by cases ty <;> first | rfl | cases scalar
  obtain ⟨w,decoded,again⟩ := (layout_of_bind scalar regular bound).exists_decodeBytes? supported
  exact ⟨w,decode_of_decodeBytes? decoded,typeName_of_decodeBytes? decoded,again⟩

/-- A moment east of UTC is read as UTC, without its last three digits and its blanks. -/
theorem decode_of_bind_moment :
    let moment : Value := .text " 2020-12-31T23:59:59.123456789+02:00 "
    let bytes : Bytes := [0,2,90,200,131,120,248,0]
    ColumnType.isScalar .timestamptz = true ∧ denotesLeapSecond moment .timestamptz = false ∧
      bind moment .timestamptz = .ok (some bytes) ∧
      ∃ w, decode .timestamptz (some bytes) = .ok w ∧
        ColumnType.valueType? .timestamptz = some w.typeName ∧
        bind w .timestamptz = .ok (some bytes) := by
  intro moment bytes
  have regular : denotesLeapSecond moment .timestamptz = false := by decide +kernel
  have bound : bind moment .timestamptz = .ok (some bytes) := by decide +kernel
  exact ⟨rfl,regular,bound,decode_of_bind rfl regular bound⟩

end FluentSql.Wire

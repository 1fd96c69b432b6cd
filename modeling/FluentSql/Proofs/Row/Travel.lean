import FluentSql.Proofs.Row.Lookup
import FluentSql.Proofs.Wire.ReadBack

/-! Values of the language that travel to the server and back. Each kind has a column type of its
own, and a value that is bound to it and read from a column of it comes back as it was. -/
namespace FluentSql
open Calendar Wire

/-- The kinds of values with a column type of their own. -/
inductive Native
  | bool
  | int16
  | int32
  | int64
  | double
  | text
  | bytes
  | date
  | timestamp
  | instant
  | uuid

namespace Native

abbrev Carrier : Native → Type
  | .bool => Bool
  | .int16 => Int16
  | .int32 => Int32
  | .int64 => Int64
  | .double => Binary64
  | .text => String
  | .bytes => List UInt8
  | .date => Date
  | .timestamp => Timestamp
  | .instant => Instant
  | .uuid => Uuid

def columnType : Native → ColumnType
  | .bool => .bool
  | .int16 => .int2
  | .int32 => .int4
  | .int64 => .int8
  | .double => .float8
  | .text => .text
  | .bytes => .bytea
  | .date => .date
  | .timestamp => .timestamp
  | .instant => .timestamptz
  | .uuid => .uuid

instance : (k : Native) → ToValue k.Carrier
  | .bool => inferInstanceAs (ToValue Bool)
  | .int16 => inferInstanceAs (ToValue Int16)
  | .int32 => inferInstanceAs (ToValue Int32)
  | .int64 => inferInstanceAs (ToValue Int64)
  | .double => inferInstanceAs (ToValue Binary64)
  | .text => inferInstanceAs (ToValue String)
  | .bytes => inferInstanceAs (ToValue (List UInt8))
  | .date => inferInstanceAs (ToValue Date)
  | .timestamp => inferInstanceAs (ToValue Timestamp)
  | .instant => inferInstanceAs (ToValue Instant)
  | .uuid => inferInstanceAs (ToValue Uuid)

instance : (k : Native) → OfValue k.Carrier
  | .bool => inferInstanceAs (OfValue Bool)
  | .int16 => inferInstanceAs (OfValue Int16)
  | .int32 => inferInstanceAs (OfValue Int32)
  | .int64 => inferInstanceAs (OfValue Int64)
  | .double => inferInstanceAs (OfValue Binary64)
  | .text => inferInstanceAs (OfValue String)
  | .bytes => inferInstanceAs (OfValue (List UInt8))
  | .date => inferInstanceAs (OfValue Date)
  | .timestamp => inferInstanceAs (OfValue Timestamp)
  | .instant => inferInstanceAs (OfValue Instant)
  | .uuid => inferInstanceAs (OfValue Uuid)

/-- What the wire can carry of a kind: timestamps outside leap seconds, in whole microseconds. -/
def Exact : (k : Native) → k.Carrier → Prop
  | .timestamp, t => t.IsWhole ∧ t.time.isLeapSecond = false
  | .instant, t => t.utc.IsWhole ∧ t.utc.time.isLeapSecond = false
  | _, _ => True

theorem toValue_ne_null (k : Native) (x : k.Carrier) : toValue x ≠ .null := by
  cases k <;> intro null <;> cases null

/-- Access undoes conversion, whatever the wire can carry. -/
theorem ofValue_toValue (k : Native) (x : k.Carrier) :
    (ofValue (toValue x) : Except AccessError k.Carrier) = .ok x := by
  cases k with
  | int16 =>
    have low := Int16.le_toInt x
    have high := Int16.toInt_lt x
    change (if _ ∧ _ then Except.ok x.toInt64.toInt16 else _) = _
    rw [Int16.toInt_toInt64,if_pos ⟨low,high⟩,Int16.toInt16_toInt64]
  | int32 =>
    have low := Int32.le_toInt x
    have high := Int32.toInt_lt x
    change (if _ ∧ _ then Except.ok x.toInt64.toInt32 else _) = _
    rw [Int32.toInt_toInt64,if_pos ⟨low,high⟩,Int32.toInt32_toInt64]
  | uuid =>
    change (Uuid.read (String.ofList x.render).toList).mapError AccessError.uuid = _
    rw [String.toList_ofList,Uuid.read_render]
    rfl
  | _ => rfl

private theorem integer_travels {ty : ColumnType} {target : IntegerType} (n : Int64)
    (integral : ty.integerType? = some target) (low : target.least ≤ n.toInt)
    (high : n.toInt ≤ target.greatest) : ∃ bytes,
    bind (.int n) ty = .ok (some bytes) ∧ decode ty (some bytes) = .ok (.int n) := by
  have sent := bind_integer integral low high
  have read := decodeBytes?_integer integral low high
  rw [Int64.ofInt_toInt] at sent read
  exact ⟨_,sent,decode_of_decodeBytes? read⟩

theorem exists_bind_decode (k : Native) (x : k.Carrier) (exact : k.Exact x) : ∃ bytes,
    bind (toValue x) k.columnType = .ok (some bytes) ∧
      decode k.columnType (some bytes) = .ok (toValue x) := by
  cases k with
  | bool => exact ⟨_,rfl,decode_of_decodeBytes? (decodeBytes?_bool x)⟩
  | int16 =>
    have low := Int16.le_toInt x
    have high := Int16.toInt_lt x
    rw [← Int16.toInt_toInt64] at low high
    exact integer_travels x.toInt64 rfl low (Int.le_sub_one_of_lt high)
  | int32 =>
    have low := Int32.le_toInt x
    have high := Int32.toInt_lt x
    rw [← Int32.toInt_toInt64] at low high
    exact integer_travels x.toInt64 rfl low (Int.le_sub_one_of_lt high)
  | int64 =>
    exact integer_travels x rfl (Int64.le_toInt x) (Int.le_sub_one_of_lt (Int64.toInt_lt x))
  | double => exact ⟨_,rfl,decode_of_decodeBytes? (decodeBytes?_float8 x)⟩
  | text => exact ⟨_,rfl,decode_of_decodeBytes? (decodeBytes?_text rfl rfl x)⟩
  | bytes => exact ⟨x,rfl,rfl⟩
  | date => exact ⟨_,rfl,decode_of_decodeBytes? (decodeBytes?_date x)⟩
  | timestamp =>
    have read := decodeBytes?_timestamp x
    rw [Timestamp.ofMicroseconds?_microseconds exact.2 exact.1] at read
    exact ⟨_,rfl,decode_of_decodeBytes? read⟩
  | instant =>
    have read := decodeBytes?_timestamptz x.utc
    rw [Timestamp.ofMicroseconds?_microseconds exact.2 exact.1] at read
    exact ⟨_,rfl,decode_of_decodeBytes? read⟩
  | uuid => exact ⟨_,bind_uuid x,decode_of_decodeBytes? (decodeBytes?_uuid x)⟩

end Native

/-- The first of the columns of a name is the one that is read. -/
theorem Row.get?_ofFields {before : List (String × Value)} {column : String}
    (first : column ∉ before.map (·.1)) (v : Value) (after : List (String × Value)) :
    (ofFields (before ++ (column,v) :: after)).get? column = some v :=
  get?_eq_some_iff.mpr ⟨before,after,fields_ofFields _,first⟩

theorem Row.getAs_ofFields {α : Type} [OfValue α] {v : Value} {x : α}
    (access : (ofValue v : Except AccessError α) = .ok x) {before : List (String × Value)}
    {column : String} (first : column ∉ before.map (·.1)) (after : List (String × Value)) :
    (ofFields (before ++ (column,v) :: after)).getAs α column = .ok x := by
  rw [getAs,get?_ofFields first]
  simp only [access]
  rfl

/-- A value is sent as this cell, and comes back from every row of which a column holds what the
cell is decoded to. -/
structure Travels {α : Type} [ToValue α] [OfValue α] (ty : ColumnType) (cell : Option Bytes)
    (x : α) : Prop where
  sent : bind (toValue x) ty = .ok cell
  received : ∃ v, decode ty cell = .ok v ∧
    ∀ (before after : List (String × Value)) (column : String), column ∉ before.map (·.1) →
      (Row.ofFields (before ++ (column,v) :: after)).getAs α column = .ok x

theorem travels_of_ofValue {α : Type} [ToValue α] [OfValue α] {ty : ColumnType}
    {cell : Option Bytes} {x : α} (sent : bind (toValue x) ty = .ok cell)
    (decoded : decode ty cell = .ok (toValue x))
    (access : (ofValue (toValue x) : Except AccessError α) = .ok x) : Travels ty cell x :=
  ⟨sent,toValue x,decoded,fun _ after _ first => Row.getAs_ofFields access first after⟩

/-- Access to a value that may be missing. -/
theorem ofValue_some {α : Type} [ToValue α] [OfValue α] {x : α} (present : toValue x ≠ .null)
    (access : (ofValue (toValue x) : Except AccessError α) = .ok x) :
    (ofValue (toValue (some x)) : Except AccessError (Option α)) = .ok (some x) := by
  change (ofValue (toValue x) : Except AccessError (Option α)) = _
  generalize toValue x = v at present access ⊢
  cases v with
  | null => exact absurd rfl present
  | _ =>
    change (ofValue _ : Except AccessError α).map some = _
    rw [access]
    rfl

/-- Every value of a kind travels by its own column type, also where it may be missing, and a
missing one travels as the null of SQL. -/
theorem Native.travels (k : Native) :
    (∀ x : k.Carrier, k.Exact x → ∃ bytes,
      Travels k.columnType (some bytes) x ∧ Travels k.columnType (some bytes) (some x)) ∧
    Travels k.columnType none (none : Option k.Carrier) := by
  constructor
  · intro x exact
    obtain ⟨bytes,sent,decoded⟩ := k.exists_bind_decode x exact
    have access := k.ofValue_toValue x
    have present := k.toValue_ne_null x
    exact ⟨bytes,travels_of_ofValue sent decoded access,
      travels_of_ofValue sent decoded (ofValue_some present access)⟩
  · exact travels_of_ofValue rfl (by cases k <;> rfl) rfl

/-- The last microsecond before the one that timestamps are counted from. -/
theorem Native.travels_eve :
    let date : Date := ⟨1999,12,31,by decide,by decide,by decide,by decide,by decide,by decide⟩
    let time : Time := ⟨23,59,59,999999000,by decide,by decide,by decide,by decide⟩
    let eve : Timestamp := ⟨date,time⟩
    Native.Exact .timestamp eve ∧ ∃ bytes,
      Travels .timestamp (some bytes) eve ∧ Travels .timestamp (some bytes) (some eve) := by
  intro date time eve
  have exact : Native.Exact .timestamp eve := ⟨by decide,by decide⟩
  exact ⟨exact,(Native.travels .timestamp).1 eve exact⟩

end FluentSql

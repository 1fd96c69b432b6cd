import FluentSql.Json.Reader
import FluentSql.Value
import FluentSql.Wire.ColumnType
import FluentSql.Wire.Numeric

/-! Decoding the cells of a row. Every supported column type has one kind of value, and null
stands for the null of SQL. -/
namespace FluentSql.Wire
open Calendar

inductive CellError
  | unsupported (ty : ColumnType)
  | malformed
  deriving DecidableEq

def CellError.message (index : Nat) : CellError → String
  | .unsupported ty => "unsupported column type " ++ ty.typeName
  | .malformed => "error deserializing column " ++ toString index

def decodeInt? (width : Nat) (bytes : Bytes) : Option Int :=
  if bytes.length = width then some (ofSignedBigEndian bytes) else none

def decodeNat? (width : Nat) (bytes : Bytes) : Option Nat :=
  if bytes.length = width then some (ofBigEndian bytes) else none

/-- Any byte but zero is true. -/
def decodeBool? : Bytes → Option Bool
  | [b] => some (b != 0)
  | _ => none

def decodeJson? (bytes : Bytes) : Option Value := do
  let text ← toText? bytes
  let document ← Json.read text.toList
  some (.text document.render)

def ColumnType.isSupported : ColumnType → Bool
  | .builtin _ | .custom _ _ => false
  | _ => true

def decodeBytes? (bytes : Bytes) : ColumnType → Option Value
  | .bool => (decodeBool? bytes).map .bool
  | .int2 => (decodeInt? 2 bytes).map fun n => .int (.ofInt n)
  | .int4 => (decodeInt? 4 bytes).map fun n => .int (.ofInt n)
  | .int8 => (decodeInt? 8 bytes).map fun n => .int (.ofInt n)
  | .oid => (decodeNat? 4 bytes).map fun n => .int (.ofNat n)
  | .float4 => (decodeNat? 4 bytes).map fun n => .float (Binary32.widen ⟨.ofNat n⟩)
  | .float8 => (decodeNat? 8 bytes).map fun n => .float ⟨.ofNat n⟩
  | .numeric => (Numeric.decode? bytes).map .decimal
  | .text | .varchar | .bpchar | .name | .unknown => (toText? bytes).map .text
  | .bytea => some (.bytes bytes)
  | .date => (decodeInt? 4 bytes).bind fun n => (Date.ofNumber? n).map .date
  | .timestamp =>
    (decodeInt? 8 bytes).bind fun n => (Timestamp.ofMicroseconds? n).map .timestamp
  | .timestamptz =>
    (decodeInt? 8 bytes).bind fun n => (Timestamp.ofMicroseconds? n).map fun t => .instant ⟨t⟩
  | .uuid => (Uuid.of? bytes).map fun u => .text (String.ofList u.render)
  | .json => decodeJson? bytes
  | .jsonb =>
    match bytes with
    | b :: rest => if b = 1 then decodeJson? rest else none
    | [] => none
  | .builtin _ | .custom _ _ => none

/-- The value of a cell, which has no bytes when it is null. A column of an unsupported type
has no values at all, not even null. -/
def decode (ty : ColumnType) (cell : Option Bytes) : Except CellError Value :=
  if !ty.isSupported then .error (.unsupported ty)
  else match cell with
    | none => .ok .null
    | some bytes =>
      match decodeBytes? bytes ty with
      | some v => .ok v
      | none => .error .malformed

end FluentSql.Wire

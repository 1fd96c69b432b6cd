import FluentSql.Binary.Reader
import FluentSql.Calendar.Reader
import FluentSql.Decimal.Binary
import FluentSql.Decimal.Reader
import FluentSql.Json.Reader
import FluentSql.Value
import FluentSql.Wire.ColumnType
import FluentSql.Wire.Numeric

/-! Binding values to parameters. The server says which type a parameter has; a value is
converted to it, or refused when there is no conversion or the value does not fit. -/
namespace FluentSql.Wire
open Calendar

inductive BindError
  | mismatch (valueType : String) (ty : ColumnType)
  | range (e : Numeral.RangeError)
  /-- A number with a fraction, or out of reach, for an integer parameter. -/
  | notInteger (number : String) (ty : ColumnType)
  | integer (e : Numeral.ReadError)
  | float (e : Binary.ReadError)
  | decimal (e : Decimal.ReadError)
  /-- A float that is not finite, or too large for a decimal. -/
  | floatToDecimal
  | calendar (e : Calendar.ReadError)
  | uuid (e : Uuid.ReadError)
  | json
  deriving DecidableEq

def BindError.message : BindError → String
  | .mismatch valueType ty =>
    "cannot bind " ++ valueType ++ " value as postgres type " ++ ty.render
  | .range e => e.message
  | .notInteger number ty => number ++ " is not an integer; cannot bind as " ++ ty.render
  | .integer e => e.message
  | .float e => e.message
  | .decimal e => e.message
  | .floatToDecimal => "Error while converting to Decimal"
  | .calendar e => e.message
  | .uuid e => e.message
  | .json => "invalid JSON"

def encodeText (s : String) (ty : ColumnType) : Bytes :=
  if ty.hasTextVersion then 1 :: ofText s else ofText s

def encodeFloat8 (x : Binary64) : Bytes := bigEndian 8 x.bits.toNat
def encodeFloat4 (x : Binary32) : Bytes := bigEndian 4 x.bits.toNat

def encodeDate (d : Date) : Bytes := signedBigEndian 4 d.number
def encodeTimestamp (t : Timestamp) : Bytes := signedBigEndian 8 t.microseconds

structure IntegerType where
  width : Nat
  least : Int
  greatest : Int

def ColumnType.integerType? : ColumnType → Option IntegerType
  | .int2 => some ⟨2,-2 ^ 15,2 ^ 15 - 1⟩
  | .int4 => some ⟨4,-2 ^ 31,2 ^ 31 - 1⟩
  | .int8 => some ⟨8,-2 ^ 63,2 ^ 63 - 1⟩
  | .oid => some ⟨4,0,2 ^ 32 - 1⟩
  | _ => none

def encodeInteger (n : Int) (target : IntegerType) : Except BindError Bytes :=
  if target.greatest < n then .error (.range .tooLarge)
  else if n < target.least then .error (.range .tooSmall)
  else .ok (signedBigEndian target.width n)

def bindBool (b : Bool) (ty : ColumnType) : Except BindError Bytes :=
  if ty.isTextual then .ok (encodeText (Value.boolText b) ty)
  else if ty = .bool then .ok [if b then 1 else 0]
  else .error (.mismatch "bool" ty)

def bindInt (n : Int64) (ty : ColumnType) : Except BindError Bytes :=
  match ty.integerType?, ty with
  | some target, _ => encodeInteger n.toInt target
  | none, .float4 => .ok (encodeFloat4 (.ofInt n.toInt))
  | none, .float8 => .ok (encodeFloat8 (.ofInt n.toInt))
  | none, .numeric => .ok (Numeric.encode (.ofInt64 n))
  | none, ty =>
    if ty.isTextual then .ok (encodeText (toString n.toInt) ty) else .error (.mismatch "int" ty)

/-- Floats below `2 ^ 63` without a fraction are integers. -/
def integerOfFloat? (x : Binary64) : Option Int :=
  if x.isInteger && x.toInt.natAbs < 2 ^ 63 then some x.toInt else none

def bindFloat (x : Binary64) (ty : ColumnType) : Except BindError Bytes :=
  match ty.integerType?, ty with
  | some target, _ =>
    match integerOfFloat? x with
    | some n => encodeInteger n target
    | none => .error (.notInteger x.render ty)
  | none, .float4 => .ok (encodeFloat4 (.ofDouble x))
  | none, .float8 => .ok (encodeFloat8 x)
  | none, .numeric =>
    match Decimal.ofDouble x with
    | some d => .ok (Numeric.encode d)
    | none => .error .floatToDecimal
  | none, ty =>
    if ty.isTextual then .ok (encodeText x.render ty) else .error (.mismatch "float" ty)

def bindDecimal (d : Decimal) (ty : ColumnType) : Except BindError Bytes :=
  match ty.integerType?, ty with
  | some target, _ =>
    if !d.isInteger then .error (.notInteger (String.ofList d.render) ty)
    else if -2 ^ 63 ≤ d.toInt ∧ d.toInt < 2 ^ 63 then encodeInteger d.toInt target
    else .error (.mismatch "decimal" ty)
  | none, .float4 => .ok (encodeFloat4 (.ofDouble d.toDouble))
  | none, .float8 => .ok (encodeFloat8 d.toDouble)
  | none, .numeric => .ok (Numeric.encode d)
  | none, ty =>
    if ty.isTextual then .ok (encodeText (String.ofList d.render) ty)
    else .error (.mismatch "decimal" ty)

/-- Text is read as what the parameter wants. Blanks around it do not count, except in text
and JSON. -/
def bindText (s : String) (ty : ColumnType) : Except BindError Bytes :=
  let cs := s.toList
  match ty.integerType?, ty with
  | some target, _ => do
    let n ← (Numeral.readInt64 (Text.trim cs)).mapError .integer
    encodeInteger n.toInt target
  | none, .float4 => do
    let x ← (Binary64.read (Text.trim cs)).mapError .float
    .ok (encodeFloat4 (.ofDouble x))
  | none, .float8 => do
    let x ← (Binary64.read (Text.trim cs)).mapError .float
    .ok (encodeFloat8 x)
  | none, .numeric => do
    let d ← (Decimal.read (Text.trim cs)).mapError .decimal
    .ok (Numeric.encode d)
  | none, .date => do
    let d ← (Date.read cs).mapError .calendar
    .ok (encodeDate d)
  | none, .timestamp => do
    let t ← (Timestamp.read cs).mapError .calendar
    .ok (encodeTimestamp t)
  | none, .timestamptz => do
    let t ← (Instant.read cs).mapError .calendar
    .ok (encodeTimestamp t.utc)
  | none, .uuid => do
    let u ← (Uuid.read (Text.trim cs)).mapError .uuid
    .ok u.bytes
  | none, .json =>
    match Json.read cs with
    | some document => .ok (ofText document.render)
    | none => .error .json
  | none, .jsonb =>
    match Json.read cs with
    | some document => .ok (1 :: ofText document.render)
    | none => .error .json
  | none, ty => if ty.isTextual then .ok (encodeText s ty) else .error (.mismatch "text" ty)

def bindBytes (b : List UInt8) (ty : ColumnType) : Except BindError Bytes :=
  if ty = .bytea then .ok b else .error (.mismatch "bytes" ty)

/-- A date is also the timestamp of its midnight. -/
def bindDate (d : Date) (ty : ColumnType) : Except BindError Bytes :=
  match ty with
  | .date => .ok (encodeDate d)
  | .timestamp | .timestamptz => .ok (encodeTimestamp (.atMidnight d))
  | ty =>
    if ty.isTextual then .ok (encodeText (String.ofList d.render) ty)
    else .error (.mismatch "date" ty)

def bindTimestamp (t : Timestamp) (ty : ColumnType) : Except BindError Bytes :=
  match ty with
  | .timestamp | .timestamptz => .ok (encodeTimestamp t)
  | ty =>
    if ty.isTextual then .ok (encodeText (String.ofList t.render) ty)
    else .error (.mismatch "timestamp" ty)

def bindInstant (t : Instant) (ty : ColumnType) : Except BindError Bytes :=
  match ty with
  | .timestamp | .timestamptz => .ok (encodeTimestamp t.utc)
  | ty =>
    if ty.isTextual then .ok (encodeText (String.ofList t.renderOffset) ty)
    else .error (.mismatch "timestamptz" ty)

/-- The bytes of a parameter, or none for the null of SQL, which fits every type. -/
def bind (v : Value) (ty : ColumnType) : Except BindError (Option Bytes) :=
  match v with
  | .null => .ok none
  | .bool b => (bindBool b ty).map some
  | .int n => (bindInt n ty).map some
  | .float x => (bindFloat x ty).map some
  | .text s => (bindText s ty).map some
  | .bytes b => (bindBytes b ty).map some
  | .date d => (bindDate d ty).map some
  | .timestamp t => (bindTimestamp t ty).map some
  | .instant t => (bindInstant t ty).map some
  | .decimal d => (bindDecimal d ty).map some

end FluentSql.Wire

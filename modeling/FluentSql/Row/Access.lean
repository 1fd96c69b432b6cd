import FluentSql.Decimal.Binary
import FluentSql.Decimal.Reader
import FluentSql.Row.Basic
import FluentSql.Text.Quoted

/-! Typed access to the columns of a row. A value is taken as the type it has, with few
conversions: integers also as decimals and floats, decimals also as floats, and text also as
decimals and identifiers. -/
namespace FluentSql
open Calendar

inductive AccessError
  | mismatch (expected found : String)
  | outOfRange (n : Int64) (width : Nat)
  | decimal (text : String) (e : Decimal.ReadError)
  | uuid (e : Uuid.ReadError)
  deriving DecidableEq

def AccessError.message : AccessError → String
  | .mismatch expected found => "expected " ++ expected ++ ", got " ++ found
  | .outOfRange n width => toString n.toInt ++ " out of range for i" ++ toString width
  | .decimal text e => "invalid decimal " ++ Text.quoted text ++ ": " ++ e.message
  | .uuid e => e.message

class OfValue (α : Type) where
  ofValue : Value → Except AccessError α

export OfValue (ofValue)

namespace OfValue

def mismatch {α : Type} (expected : String) (v : Value) : Except AccessError α :=
  .error (.mismatch expected v.typeName)

instance : OfValue Value := ⟨.ok⟩

instance : OfValue Bool where
  ofValue
    | .bool b => .ok b
    | v => mismatch "bool" v

instance : OfValue Int64 where
  ofValue
    | .int n => .ok n
    | v => mismatch "int" v

instance : OfValue Int32 where
  ofValue v := do
    let n : Int64 ← ofValue v
    if -2 ^ 31 ≤ n.toInt ∧ n.toInt < 2 ^ 31 then .ok n.toInt32 else .error (.outOfRange n 32)

instance : OfValue Int16 where
  ofValue v := do
    let n : Int64 ← ofValue v
    if -2 ^ 15 ≤ n.toInt ∧ n.toInt < 2 ^ 15 then .ok n.toInt16 else .error (.outOfRange n 16)

instance : OfValue Binary64 where
  ofValue
    | .float x => .ok x
    | .int n => .ok (.ofInt n.toInt)
    | .decimal d => .ok d.toDouble
    | v => mismatch "float" v

instance : OfValue Decimal where
  ofValue
    | .decimal d => .ok d
    | .int n => .ok (.ofInt64 n)
    | .text s => (Decimal.read s.toList).mapError (.decimal s)
    | v => mismatch "decimal" v

instance : OfValue String where
  ofValue
    | .text s => .ok s
    | v => mismatch "text" v

instance : OfValue (List UInt8) where
  ofValue
    | .bytes b => .ok b
    | v => mismatch "bytes" v

instance : OfValue Date where
  ofValue
    | .date d => .ok d
    | v => mismatch "date" v

instance : OfValue Timestamp where
  ofValue
    | .timestamp t => .ok t
    | v => mismatch "timestamp" v

instance : OfValue Instant where
  ofValue
    | .instant t => .ok t
    | v => mismatch "timestamptz" v

instance : OfValue Uuid where
  ofValue
    | .text s => (Uuid.read s.toList).mapError .uuid
    | v => mismatch "uuid text" v

instance {α : Type} [OfValue α] : OfValue (Option α) where
  ofValue
    | .null => .ok none
    | v => (ofValue v).map some

end OfValue

def Row.getAs (α : Type) [OfValue α] (r : Row) (column : String) : Except Failure α :=
  match r.get? column with
  | none => .error (.decode column "column not found")
  | some v => (ofValue v).mapError fun e => .decode column e.message

class OfRow (α : Type) where
  ofRow : Row → Except Failure α

export OfRow (ofRow)

instance : OfRow Row := ⟨.ok⟩
instance : OfRow Json := ⟨fun r => .ok r.toJson⟩

end FluentSql

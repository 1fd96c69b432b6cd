import FluentSql.Calendar.Printer
import FluentSql.Decimal.Basic
import FluentSql.Json.Printer
import FluentSql.Uuid

/-! Values that a statement binds and a row holds. Arrays and objects of JSON are kept as their
text. -/
namespace FluentSql
open Calendar

inductive Value
  | null
  | bool (b : Bool)
  | int (n : Int64)
  | float (x : Binary64)
  | text (s : String)
  | bytes (b : List UInt8)
  | date (d : Date)
  | timestamp (t : Timestamp)
  | instant (t : Instant)
  | decimal (d : Decimal)
  deriving DecidableEq

namespace Value

def isNull : Value → Bool
  | .null => true
  | _ => false

def typeName : Value → String
  | .null => "null"
  | .bool _ => "bool"
  | .int _ => "int"
  | .float _ => "float"
  | .text _ => "text"
  | .bytes _ => "bytes"
  | .date _ => "date"
  | .timestamp _ => "timestamp"
  | .instant _ => "timestamptz"
  | .decimal _ => "decimal"

/-- Equality of content: floats and decimals are compared as numbers, and values of different
types are never equal. -/
def same : Value → Value → Bool
  | .float x, .float y => x.numEq y
  | .decimal a, .decimal b => a.numEq b
  | a, b => a == b

def boolText (b : Bool) : String := if b then "true" else "false"

def render : Value → String
  | .null => "NULL"
  | .bool b => boolText b
  | .int n => toString n.toInt
  | .float x => x.render
  | .text s => "'" ++ s ++ "'"
  | .bytes b => "<" ++ toString b.length ++ " bytes>"
  | .date d => String.ofList d.render
  | .timestamp t => String.ofList t.render
  | .instant t => String.ofList t.render
  | .decimal d => String.ofList d.render

/-- Bytes become an array of numbers, dates and decimals strings; a float that is not finite
becomes null. -/
def toJson : Value → Json
  | .null => .null
  | .bool b => .bool b
  | .int n => .ofInt64 n
  | .float x => if x.isFinite then .number (.real x) else .null
  | .text s => .string s
  | .bytes b => .array (b.map Json.ofByte)
  | .date d => .string (String.ofList d.render)
  | .timestamp t => .string (String.ofList (t.renderWith 'T'))
  | .instant t => .string (String.ofList t.renderOffset)
  | .decimal d => .string (String.ofList d.render)

/-- Integers of 64 bits stay integers, and other numbers become floats. -/
def ofJsonNumber : Json.Number → Value
  | .natural n =>
    if n.toNat < 2 ^ 63 then .int n.toInt64 else .float (.ofRatio false n.toNat 1)
  | .negative n => .int n
  | .real x => .float x

def ofJson : Json → Value
  | .null => .null
  | .bool b => .bool b
  | .number n => ofJsonNumber n
  | .string s => .text s
  | nested => .text nested.render

end Value

class ToValue (α : Type) where
  toValue : α → Value

export ToValue (toValue)

namespace ToValue

instance : ToValue Value := ⟨id⟩
instance : ToValue Bool := ⟨.bool⟩
instance : ToValue Int8 := ⟨fun n => .int n.toInt64⟩
instance : ToValue Int16 := ⟨fun n => .int n.toInt64⟩
instance : ToValue Int32 := ⟨fun n => .int n.toInt64⟩
instance : ToValue Int64 := ⟨.int⟩
instance : ToValue UInt8 := ⟨fun n => .int n.toUInt64.toInt64⟩
instance : ToValue UInt16 := ⟨fun n => .int n.toUInt64.toInt64⟩
instance : ToValue UInt32 := ⟨fun n => .int n.toUInt64.toInt64⟩
instance : ToValue Binary32 := ⟨fun x => .float x.widen⟩
instance : ToValue Binary64 := ⟨.float⟩
instance : ToValue String := ⟨.text⟩
instance : ToValue (List UInt8) := ⟨.bytes⟩
instance : ToValue Date := ⟨.date⟩
instance : ToValue Timestamp := ⟨.timestamp⟩
instance : ToValue Instant := ⟨.instant⟩
instance : ToValue Decimal := ⟨.decimal⟩
instance : ToValue Uuid := ⟨fun u => .text (String.ofList u.render)⟩
instance : ToValue Json := ⟨Value.ofJson⟩

instance {α : Type} [ToValue α] : ToValue (Option α) := ⟨fun x => x.elim .null toValue⟩

end ToValue
end FluentSql

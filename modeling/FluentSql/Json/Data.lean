import FluentSql.Binary.Printer
import FluentSql.Json.Basic
import FluentSql.Text.Numeral

/-! Structured data of a wider kind than JSON holds: integers of any size, floats of two
precisions that need not be finite, and maps whose keys are data themselves. -/
namespace FluentSql.Json

inductive Data
  | unit
  | bool (b : Bool)
  | integer (n : Int)
  | real (x : Binary64)
  | single (x : Binary32)
  | text (s : String)
  | sequence (items : List Data)
  | map (entries : List (Data × Data))

inductive DataError
  | numberOutOfRange
  | keyNotText
  | keyNotFinite
  deriving DecidableEq

def DataError.message : DataError → String
  | .numberOutOfRange => "number out of range"
  | .keyNotText => "key must be a string"
  | .keyNotFinite => "float key must be finite (got NaN or +/-inf)"

/-- Integers must fit in 64 bits, with a sign or without. -/
def ofInteger (n : Int) : Except DataError Json :=
  if 0 ≤ n ∧ n < 2 ^ 64 then .ok (.number (.natural (.ofNat n.toNat)))
  else if -2 ^ 63 ≤ n ∧ n < 0 then .ok (.number (.negative (.ofInt n)))
  else .error .numberOutOfRange

/-- Keys are texts, or truth values, integers and finite floats by their text, which is that of
their own precision. -/
def Data.key : Data → Except DataError String
  | .text s => .ok s
  | .integer n => .ok (String.ofList (Numeral.renderInt n))
  | .bool b => .ok (if b then "true" else "false")
  | .real x => if x.isFinite then .ok x.renderJson else .error .keyNotFinite
  | .single x => if x.isFinite then .ok x.renderJson else .error .keyNotFinite
  | _ => .error .keyNotText

mutual

/-- The document for some data. Floats become doubles, or null where they are not finite. -/
def ofData : Data → Except DataError Json
  | .unit => .ok .null
  | .bool b => .ok (.bool b)
  | .integer n => ofInteger n
  | .real x => .ok (if x.isFinite then .number (.real x) else .null)
  | .single x => .ok (if x.isFinite then .number (.real x.widen) else .null)
  | .text s => .ok (.string s)
  | .sequence items => (ofItems items).map .array
  | .map entries => (ofEntries entries).map ofAssignments

def ofItems : List Data → Except DataError (List Json)
  | [] => .ok []
  | item :: rest => do
    let first ← ofData item
    let others ← ofItems rest
    return first :: others

def ofEntries : List (Data × Data) → Except DataError (List (String × Json))
  | [] => .ok []
  | entry :: rest => do
    let first ← ofEntry entry
    let others ← ofEntries rest
    return first :: others

def ofEntry : Data × Data → Except DataError (String × Json)
  | (key,value) => do
    let name ← key.key
    let document ← ofData value
    return (name,document)

end

end FluentSql.Json

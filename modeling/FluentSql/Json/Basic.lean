import FluentSql.Binary.Basic

/-! JSON documents. An object keeps its members in the order of their first mention, each name
with the value it was given last. Numbers are held as 64-bit integers where they are such, and
as doubles otherwise. -/
namespace FluentSql

inductive Json.Number
  | natural (n : UInt64)
  | negative (n : Int64)
  | real (x : Binary64)
  deriving DecidableEq

inductive Json
  | null
  | bool (b : Bool)
  | number (n : Json.Number)
  | string (s : String)
  | array (items : List Json)
  | object (members : List (String × Json))

namespace Json

def ofInt64 (n : Int64) : Json :=
  if 0 ≤ n then .number (.natural n.toUInt64) else .number (.negative n)

def ofByte (b : UInt8) : Json := .number (.natural b.toUInt64)

def insert (name : String) (value : Json) : List (String × Json) → List (String × Json)
  | [] => [(name,value)]
  | member :: rest =>
    if member.1 = name then (name,value) :: rest else member :: insert name value rest

def members (assignments : List (String × Json)) : List (String × Json) :=
  assignments.foldl (fun object (name,value) => insert name value object) []

def ofAssignments (assignments : List (String × Json)) : Json := .object (members assignments)

/-- The value under a name; an array or a scalar has none. -/
def get? (name : String) : Json → Option Json
  | .object members => (members.find? (·.1 = name)).map (·.2)
  | _ => none

def kind : Json → String
  | .null => "null"
  | .bool _ => "a boolean"
  | .number _ => "a number"
  | .string _ => "a string"
  | .array _ => "an array"
  | .object _ => "an object"

end Json
end FluentSql

import FluentSql.Row.Access

/-! A structure read from a row in two ways: column by column, and through the JSON object of
the row. Read through JSON, a user without a column for the email has none. -/
namespace FluentSql

structure User where
  id : Int64
  name : String
  email : Option String
  deriving DecidableEq

namespace User

def ofRow (r : Row) : Except Failure User := do
  let id ← r.getAs Int64 "id"
  let name ← r.getAs String "name"
  let email ← r.getAs (Option String) "email"
  return ⟨id,name,email⟩

inductive FieldError
  | missing (field : String)
  | invalid (found : Json) (expected : String)

def showFound : Json → String
  | .null => "null"
  | .bool b => "boolean `" ++ Value.boolText b ++ "`"
  | .number (.natural n) => "integer `" ++ toString n.toNat ++ "`"
  | .number (.negative n) => "integer `" ++ toString n.toInt ++ "`"
  | .number (.real x) => "floating point `" ++ x.renderJson ++ "`"
  | .string s => "string " ++ Text.quoted s
  | .array _ => "sequence"
  | .object _ => "map"

def FieldError.message : FieldError → String
  | .missing field => "missing field `" ++ field ++ "`"
  | .invalid found expected => "invalid type: " ++ showFound found ++ ", expected " ++ expected

def readId : Json → Except FieldError Int64
  | .number (.natural n) =>
    if n.toNat < 2 ^ 63 then .ok n.toInt64 else .error (.invalid (.number (.natural n)) "i64")
  | .number (.negative n) => .ok n
  | found => .error (.invalid found "i64")

def readText : Json → Except FieldError String
  | .string s => .ok s
  | found => .error (.invalid found "a string")

def readOptional : Json → Except FieldError (Option String)
  | .null => .ok none
  | found => (readText found).map some

structure Fields where
  id : Option Int64
  name : Option String
  email : Option String

/-- Takes in a member of the object; members that are no field are skipped. -/
def Fields.add (f : Fields) : String × Json → Except FieldError Fields
  | ("id",value) => (readId value).map fun n => { f with id := some n }
  | ("name",value) => (readText value).map fun s => { f with name := some s }
  | ("email",value) => (readOptional value).map fun s => { f with email := s }
  | _ => .ok f

def Fields.toUser (f : Fields) : Except FieldError User :=
  match f.id, f.name with
  | none, _ => .error (.missing "id")
  | some _, none => .error (.missing "name")
  | some id, some name => .ok ⟨id,name,f.email⟩

/-- The members are read in their order, and the first that does not fit is the error; fields
that are missing are noticed at the end. -/
def ofMembers (members : List (String × Json)) : Except FieldError User := do
  let fields ← members.foldlM Fields.add ⟨none,none,none⟩
  fields.toUser

def ofJson : Json → Except FieldError User
  | .object members => ofMembers members
  | found => .error (.invalid found "an object")

def ofRowJson (r : Row) : Except Failure User :=
  (ofJson r.toJson).mapError fun e => .decode "<row>" e.message

end User
end FluentSql

/-! The types of parameters and columns that a server names. -/
namespace FluentSql.Wire

inductive ColumnType
  | bool
  | int2
  | int4
  | int8
  | oid
  | float4
  | float8
  | numeric
  | text
  | varchar
  | bpchar
  | name
  | unknown
  | bytea
  | date
  | timestamp
  | timestamptz
  | uuid
  | json
  | jsonb
  | builtin (typeName : String)
  | custom (typeName schema : String)
  deriving DecidableEq

namespace ColumnType

def ofName : String → ColumnType
  | "bool" => .bool
  | "int2" => .int2
  | "int4" => .int4
  | "int8" => .int8
  | "oid" => .oid
  | "float4" => .float4
  | "float8" => .float8
  | "numeric" => .numeric
  | "text" => .text
  | "varchar" => .varchar
  | "bpchar" => .bpchar
  | "name" => .name
  | "unknown" => .unknown
  | "bytea" => .bytea
  | "date" => .date
  | "timestamp" => .timestamp
  | "timestamptz" => .timestamptz
  | "uuid" => .uuid
  | "json" => .json
  | "jsonb" => .jsonb
  | other => .builtin other

def typeName : ColumnType → String
  | .bool => "bool"
  | .int2 => "int2"
  | .int4 => "int4"
  | .int8 => "int8"
  | .oid => "oid"
  | .float4 => "float4"
  | .float8 => "float8"
  | .numeric => "numeric"
  | .text => "text"
  | .varchar => "varchar"
  | .bpchar => "bpchar"
  | .name => "name"
  | .unknown => "unknown"
  | .bytea => "bytea"
  | .date => "date"
  | .timestamp => "timestamp"
  | .timestamptz => "timestamptz"
  | .uuid => "uuid"
  | .json => "json"
  | .jsonb => "jsonb"
  | .builtin n => n
  | .custom n _ => n

/-- The name, with its schema unless that is searched by default. -/
def render : ColumnType → String
  | .custom n schema =>
    if schema = "public" ∨ schema = "pg_catalog" then n else schema ++ "." ++ n
  | ty => ty.typeName

/-- Types of labelled trees, which put a version byte before their text. -/
def hasTextVersion (ty : ColumnType) : Bool :=
  ty.typeName == "ltree" || ty.typeName == "lquery" || ty.typeName == "ltxtquery"

def isTextual : ColumnType → Bool
  | .text | .varchar | .bpchar | .name | .unknown => true
  | ty => ty.typeName == "citext" || ty.hasTextVersion

end ColumnType
end FluentSql.Wire

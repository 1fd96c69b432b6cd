import FluentSql.Value

/-! Finished statements: their kind, their text with a question mark for every parameter, and
the parameters in the order of the question marks. -/
namespace FluentSql

inductive Statement.Kind
  | select
  | insert
  | update
  | delete
  deriving DecidableEq

namespace Statement.Kind

def render : Kind → String
  | .select => "SELECT"
  | .insert => "INSERT"
  | .update => "UPDATE"
  | .delete => "DELETE"

def returnsRows (kind : Kind) : Bool := kind == .select

end Statement.Kind

structure Statement where
  kind : Statement.Kind
  sql : String
  parameters : List Value
  deriving DecidableEq

end FluentSql

import FluentSql.Failure
import FluentSql.Postgres.Placeholder
import FluentSql.Statement.Basic

/-! The text sent to the server for a statement. -/
namespace FluentSql.Postgres

structure Config where
  /-- The column that an INSERT returns as identifier, if it is to return one. -/
  insertIdColumn : Option String := some "id"
  numberPlaceholders : Bool := true
  deriving DecidableEq

/-- Numbers the placeholders, of which there must be as many as parameters. -/
def Config.number (config : Config) (s : Statement) : Except Failure String :=
  if !config.numberPlaceholders then .ok s.sql
  else if Placeholder.count s.sql = s.parameters.length then .ok (Placeholder.number s.sql)
  else .error (.invalidArgument
    ("statement has " ++ toString (Placeholder.count s.sql) ++ " placeholders but " ++
      toString s.parameters.length ++ " parameters"))

def Config.returning (config : Config) (kind : Statement.Kind) : String :=
  match kind, config.insertIdColumn with
  | .insert, some column => " RETURNING " ++ column
  | _, _ => ""

def Config.prepare (config : Config) (s : Statement) : Except Failure String :=
  (config.number s).map (· ++ config.returning s.kind)

end FluentSql.Postgres

import FluentSql.Row.Basic
import FluentSql.Statement.Basic

/-! What runs statements. An executor answers a statement with rows or with counts, and the
kind of the statement says which of the two is due. -/
namespace FluentSql

inductive Reply
  | rows (rows : List Row)
  /-- The identifier of the first inserted row, where there is one, and the number of rows
  concerned. -/
  | counts (insertId : Option Int64) (affected : Nat)
  deriving DecidableEq

namespace Reply

def toRows : Reply → Except Failure (List Row)
  | .rows found => .ok found
  | .counts _ _ => .error (.unexpectedResult "expected a row set, got mutation metadata")

def toCounts : Reply → Except Failure (Option Int64 × Nat)
  | .counts insertId affected => .ok (insertId,affected)
  | .rows _ => .error (.unexpectedResult "expected mutation metadata, got a row set")

def dueTo (kind : Statement.Kind) : Reply → Except Failure Reply
  | .rows found =>
    if kind.returnsRows then .ok (.rows found)
    else .error (.unexpectedResult
      (kind.render ++ " returned a row set instead of mutation metadata"))
  | .counts insertId affected =>
    if kind.returnsRows then .error (.unexpectedResult
      (kind.render ++ " returned mutation metadata instead of rows"))
    else .ok (.counts insertId affected)

end Reply

inductive Transaction
  | begin
  | commit
  | rollback
  deriving DecidableEq

def Transaction.render : Transaction → String
  | .begin => "BEGIN"
  | .commit => "COMMIT"
  | .rollback => "ROLLBACK"

/-- How executors named by `ε` answer at some moment. -/
structure Answers (ε : Type) where
  execute : ε → Statement → Except Failure Reply
  transact : ε → Transaction → Except Failure Unit

inductive Call (ε : Type)
  | statement (executor : ε) (s : Statement)
  | transaction (executor : ε) (t : Transaction)
  deriving DecidableEq

end FluentSql

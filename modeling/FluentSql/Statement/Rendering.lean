import FluentSql.Failure
import FluentSql.Record
import FluentSql.Statement.Basic
import FluentSql.Statement.Pending
import FluentSql.Text.Blank

/-! The statements that a pending state stands for. The text does not depend on the values, and
the parameters stand in the order of their question marks: assigned values first, then those of
the conditions, then those of the alternatives. -/
namespace FluentSql

inductive RenderError
  | noTable
  | noRows
  | noColumns
  | nothingToSet
  | columnsDiffer (row : Nat) (columns : List String)
  deriving DecidableEq

def RenderError.message : RenderError → String
  | .noTable => "table name is required; call table() first"
  | .noRows => "insert requires at least one row"
  | .noColumns => "insert requires at least one column"
  | .nothingToSet => "update requires at least one column to set"
  | .columnsDiffer row columns =>
    "row " ++ toString row ++ " does not match the columns of row 0 (" ++
      ", ".intercalate columns ++ ")"

def RenderError.toFailure (e : RenderError) : Failure := .invalidArgument e.message

namespace Pending

/-- The table, whose name must show something. -/
def requireTable (q : Pending) : Except RenderError String :=
  match q.table with
  | some name => if Text.allBlank name.toList then .error .noTable else .ok name
  | none => .error .noTable

def conditionCount (q : Pending) : Nat := q.conditions.length + q.alternatives.length

/-- Raw text stands in parentheses as soon as it shares the clause. -/
def conditionText (q : Pending) (c : Condition) : String :=
  if c.raw ∧ 1 < q.conditionCount then "(" ++ c.sql ++ ")" else c.sql

/-- All conditions joined by AND, in parentheses where alternatives follow more than one. -/
def conjunctionText (q : Pending) : String :=
  let text := " AND ".intercalate (q.conditions.map q.conditionText)
  if !q.alternatives.isEmpty ∧ 1 < q.conditions.length then "(" ++ text ++ ")" else text

def disjunctionText (q : Pending) : String :=
  " OR ".intercalate (q.alternatives.map q.conditionText)

def whereText (q : Pending) : String :=
  match q.conditions.isEmpty, q.alternatives.isEmpty with
  | true, true => ""
  | false, true => " WHERE " ++ q.conjunctionText
  | true, false => " WHERE " ++ q.disjunctionText
  | false, false => " WHERE " ++ q.conjunctionText ++ " OR " ++ q.disjunctionText

def whereParameters (q : Pending) : List Value :=
  q.parametersOf q.conditions ++ q.parametersOf q.alternatives

def columnsText (q : Pending) : String :=
  if q.columns.isEmpty then "*" else ", ".intercalate q.columns

def joinsText (q : Pending) : String := String.join (q.joins.map (" " ++ ·))

def groupByText (q : Pending) : String := q.groupBy.elim "" (" GROUP BY " ++ ·)
def orderByText (q : Pending) : String := q.orderBy.elim "" (" ORDER BY " ++ ·)
def limitText (q : Pending) : String := q.limit.elim "" fun n => " LIMIT " ++ toString n

def toSelect (q : Pending) : Except RenderError Statement := do
  let table ← q.requireTable
  let sql := "SELECT " ++ q.columnsText ++ " FROM " ++ table ++ q.joinsText ++ q.whereText ++
    q.groupByText ++ q.orderByText ++ q.limitText
  return ⟨.select,sql,q.whereParameters⟩

/-- All rows in one statement. Every row lists the columns of the first in the same order. -/
def toInsertMany (q : Pending) (rows : List Record) : Except RenderError Statement := do
  let table ← q.requireTable
  match rows with
  | [] => .error .noRows
  | first :: _ =>
    if first.isEmpty then .error .noColumns
    else match rows.findIdx? (!·.sameColumns first) with
      | some row => .error (.columnsDiffer row first.columns)
      | none =>
        let group := "(" ++ placeholders first.size ++ ")"
        let sql := "INSERT INTO " ++ table ++ " (" ++ ", ".intercalate first.columns ++
          ") VALUES " ++ ", ".intercalate (List.replicate rows.length group)
        return ⟨.insert,sql,rows.flatMap Record.values⟩

def toInsert (q : Pending) (row : Record) : Except RenderError Statement := q.toInsertMany [row]

def toUpdate (q : Pending) (row : Record) : Except RenderError Statement := do
  let table ← q.requireTable
  if row.isEmpty then .error .nothingToSet
  else
    let sets := ", ".intercalate (row.columns.map (· ++ " = ?"))
    return ⟨.update,"UPDATE " ++ table ++ " SET " ++ sets ++ q.whereText,
      row.values ++ q.whereParameters⟩

def toDelete (q : Pending) : Except RenderError Statement := do
  let table ← q.requireTable
  return ⟨.delete,"DELETE FROM " ++ table ++ q.whereText,q.whereParameters⟩

end Pending
end FluentSql

import FluentSql.Value

/-! The state of a statement under construction. Conditions are kept as text with question
marks, and each knows which of the parameters, held in the order of the calls, it owns. -/
namespace FluentSql

/-- A condition owns the parameters from index `start` up to `stop`. -/
structure Condition where
  sql : String
  start : Nat
  stop : Nat
  /-- Written by the caller as a whole, so that its operators may bind loosely. -/
  raw : Bool
  deriving DecidableEq

def Condition.parameterCount (c : Condition) : Nat := c.stop - c.start

structure Pending where
  table : Option String := none
  joins : List String := []
  columns : List String := []
  conditions : List Condition := []
  /-- Conditions of which one is enough. -/
  alternatives : List Condition := []
  groupBy : Option String := none
  orderBy : Option String := none
  limit : Option Nat := none
  parameters : List Value := []
  deriving DecidableEq

def placeholders (count : Nat) : String := ", ".intercalate (List.replicate count "?")

namespace Pending

def empty : Pending := {}

def isEmpty (q : Pending) : Bool := q == empty

def nextCondition (q : Pending) (sql : String) (count : Nat) (raw : Bool) : Condition :=
  ⟨sql,q.parameters.length,q.parameters.length + count,raw⟩

def setTable (q : Pending) (name : String) : Pending := { q with table := some name }

def setColumns (q : Pending) (columns : List String) : Pending := { q with columns := columns }

def addJoin (q : Pending) (kind : Option String) (table on : String) : Pending :=
  let clause := "JOIN " ++ table ++ " ON " ++ on
  let clause := match kind with
    | some kind => kind ++ " " ++ clause
    | none => clause
  { q with joins := q.joins ++ [clause] }

def addCondition (q : Pending) (column operator : String) (value : Value) : Pending :=
  { q with
    conditions :=
      q.conditions ++ [q.nextCondition (column ++ " " ++ operator ++ " ?") 1 false]
    parameters := q.parameters ++ [value] }

def addAlternative (q : Pending) (column operator : String) (value : Value) : Pending :=
  { q with
    alternatives :=
      q.alternatives ++ [q.nextCondition (column ++ " " ++ operator ++ " ?") 1 false]
    parameters := q.parameters ++ [value] }

/-- The column has one of some values; no values make no condition. -/
def addMembership (q : Pending) (column : String) (values : List Value) : Pending :=
  if values.isEmpty then q
  else
    let sql := column ++ " IN (" ++ placeholders values.length ++ ")"
    { q with
      conditions := q.conditions ++ [q.nextCondition sql values.length false]
      parameters := q.parameters ++ values }

def addRaw (q : Pending) (sql : String) : Pending :=
  { q with conditions := q.conditions ++ [q.nextCondition sql 0 true] }

def setGroupBy (q : Pending) (column : String) : Pending := { q with groupBy := some column }

def setOrderBy (q : Pending) (column direction : String) : Pending :=
  { q with orderBy := some (column ++ " " ++ direction) }

def setLimit (q : Pending) (n : Nat) : Pending := { q with limit := some n }

def parametersOf (q : Pending) (conditions : List Condition) : List Value :=
  conditions.flatMap fun c => (q.parameters.drop c.start).take c.parameterCount

end Pending

inductive Clause
  | table (name : String)
  | columns (names : List String)
  | join (kind : Option String) (table on : String)
  | condition (column operator : String) (value : Value)
  | alternative (column operator : String) (value : Value)
  | membership (column : String) (values : List Value)
  | raw (sql : String)
  | groupBy (column : String)
  | orderBy (column direction : String)
  | limit (n : Nat)
  deriving DecidableEq

def Pending.apply (q : Pending) : Clause → Pending
  | .table name => q.setTable name
  | .columns names => q.setColumns names
  | .join kind table on => q.addJoin kind table on
  | .condition column operator value => q.addCondition column operator value
  | .alternative column operator value => q.addAlternative column operator value
  | .membership column values => q.addMembership column values
  | .raw sql => q.addRaw sql
  | .groupBy column => q.setGroupBy column
  | .orderBy column direction => q.setOrderBy column direction
  | .limit n => q.setLimit n

end FluentSql

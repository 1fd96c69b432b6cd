import FluentSql.Proofs.Statement.Layout
import FluentSql.Proofs.Statement.Request

/-! What the calls on a builder ask for, read off the calls themselves. A draft keeps every
condition together with its own values, so that it knows no parameter indices; its layouts are
the statements that the pending state has to render to. -/
namespace FluentSql

inductive Asked
  | comparison (column operator : String) (value : Value)
  | listing (column : String) (values : List Value)
  | raw (sql : String)

namespace Asked

def layout : Asked → Layout
  | .comparison column operator value =>
    [.written column,.fixed " ",.written operator,.fixed " ",.value value]
  | .listing column values =>
    .written column :: .fixed " IN (" :: Layout.ofValues values ++ [.fixed ")"]
  | .raw sql => [.written sql]

def isRaw : Asked → Bool
  | .raw _ => true
  | _ => false

end Asked

structure Join where
  kind : Option String
  table : String
  on : String

def Join.layout (j : Join) : Layout :=
  j.kind.elim [] ([.written ·,.fixed " "]) ++
    [.fixed "JOIN ",.written j.table,.fixed " ON ",.written j.on]

structure Order where
  column : String
  direction : String

def Order.layout (o : Order) : Layout := [.written o.column,.fixed " ",.written o.direction]

namespace Clause

@[simp] def conjunct? : Clause → Option Asked
  | .condition column operator value => some (.comparison column operator value)
  | .membership column values => if values.isEmpty then none else some (.listing column values)
  | .raw sql => some (.raw sql)
  | _ => none

@[simp] def disjunct? : Clause → Option Asked
  | .alternative column operator value => some (.comparison column operator value)
  | _ => none

@[simp] def join? : Clause → Option Join
  | .join kind name on => some ⟨kind,name,on⟩
  | _ => none

@[simp] def table? : Clause → Option String
  | .table name => some name
  | _ => none

@[simp] def columns? : Clause → Option (List String)
  | .columns names => some names
  | _ => none

@[simp] def groupBy? : Clause → Option String
  | .groupBy column => some column
  | _ => none

@[simp] def orderBy? : Clause → Option Order
  | .orderBy column direction => some ⟨column,direction⟩
  | _ => none

@[simp] def limit? : Clause → Option Nat
  | .limit n => some n
  | _ => none

/-- Every text that the caller hands over in a call. -/
def texts : Clause → List String
  | .table name => [name]
  | .columns names => names
  | .join kind name on => kind.toList ++ [name,on]
  | .condition column operator _ => [column,operator]
  | .alternative column operator _ => [column,operator]
  | .membership column _ => [column]
  | .raw sql => [sql]
  | .groupBy column => [column]
  | .orderBy column direction => [column,direction]
  | .limit _ => []

end Clause

def Pending.ofClauses (calls : List Clause) : Pending := calls.foldl Pending.apply .empty

structure Draft where
  table : Option String
  columns : List String
  joins : List Join
  conjuncts : List Asked
  disjuncts : List Asked
  groupBy : Option String
  orderBy : Option Order
  limit : Option Nat

namespace Draft

/-- Conditions and joins add up in the order of the calls; of the rest the last call counts. -/
def ofClauses (calls : List Clause) : Draft where
  table := (calls.filterMap Clause.table?).getLast?
  columns := (calls.filterMap Clause.columns?).getLast?.getD []
  joins := calls.filterMap Clause.join?
  conjuncts := calls.filterMap Clause.conjunct?
  disjuncts := calls.filterMap Clause.disjunct?
  groupBy := (calls.filterMap Clause.groupBy?).getLast?
  orderBy := (calls.filterMap Clause.orderBy?).getLast?
  limit := (calls.filterMap Clause.limit?).getLast?

def add (d : Draft) (c : Clause) : Draft where
  table := c.table?.or d.table
  columns := c.columns?.getD d.columns
  joins := d.joins ++ c.join?.toList
  conjuncts := d.conjuncts ++ c.conjunct?.toList
  disjuncts := d.disjuncts ++ c.disjunct?.toList
  groupBy := c.groupBy?.or d.groupBy
  orderBy := c.orderBy?.or d.orderBy
  limit := c.limit?.or d.limit

def conditionCount (d : Draft) : Nat := d.conjuncts.length + d.disjuncts.length

def conditionLayout (d : Draft) (a : Asked) : Layout :=
  if a.isRaw ∧ 1 < d.conditionCount then Layout.enclosed a.layout else a.layout

def conjunction (d : Draft) : Layout :=
  let l := Layout.separated " AND " (d.conjuncts.map d.conditionLayout)
  if !d.disjuncts.isEmpty ∧ 1 < d.conjuncts.length then Layout.enclosed l else l

def disjunction (d : Draft) : Layout :=
  Layout.separated " OR " (d.disjuncts.map d.conditionLayout)

def whereLayout (d : Draft) : Layout :=
  match d.conjuncts.isEmpty, d.disjuncts.isEmpty with
  | true, true => []
  | false, true => .fixed " WHERE " :: d.conjunction
  | true, false => .fixed " WHERE " :: d.disjunction
  | false, false => .fixed " WHERE " :: d.conjunction ++ .fixed " OR " :: d.disjunction

def tableLayout (d : Draft) : Layout := d.table.elim [] ([.written ·])

def selection (d : Draft) : Layout :=
  if d.columns.isEmpty then [.fixed "SELECT *"]
  else .fixed "SELECT " :: Layout.separated ", " (d.columns.map ([.written ·]))

def groupByLayout (d : Draft) : Layout :=
  d.groupBy.elim [] ([.fixed " GROUP BY ",.written ·])

def joinsLayout (d : Draft) : Layout := d.joins.flatMap fun j => .fixed " " :: j.layout

def orderByLayout (d : Draft) : Layout :=
  d.orderBy.elim [] fun o => .fixed " ORDER BY " :: o.layout

def limitLayout (d : Draft) : Layout :=
  d.limit.elim [] fun n => [.fixed (" LIMIT " ++ toString n)]

def select (d : Draft) : Layout :=
  d.selection ++ .fixed " FROM " :: d.tableLayout ++ d.joinsLayout ++ d.whereLayout ++
    d.groupByLayout ++ d.orderByLayout ++ d.limitLayout

def insert (d : Draft) (rows : List Record) : Layout :=
  let columns := (rows.head?.elim [] Record.columns).map fun c => ([.written c] : Layout)
  let group (row : Record) := Layout.enclosed (Layout.ofValues row.values)
  .fixed "INSERT INTO " :: d.tableLayout ++ .fixed " (" :: Layout.separated ", " columns ++
    .fixed ") VALUES " :: Layout.separated ", " (rows.map group)

def assignment (field : String × Value) : Layout :=
  [.written field.1,.fixed " = ",.value field.2]

def update (d : Draft) (row : Record) : Layout :=
  .fixed "UPDATE " :: d.tableLayout ++ .fixed " SET " ::
    Layout.separated ", " (row.fields.map assignment) ++ d.whereLayout

def delete (d : Draft) : Layout :=
  .fixed "DELETE FROM " :: d.tableLayout ++ d.whereLayout

def layout (d : Draft) : Request → Layout
  | .select => d.select
  | .insert row => d.insert [row]
  | .insertMany rows => d.insert rows
  | .update row => d.update row
  | .delete => d.delete

section Views

variable {α : Type} (f : Stretch → Option α) (skips : ∀ text, f (.fixed text) = none)
include skips

private theorem filterMap_conditionLayout (d : Draft) (a : Asked) :
    (d.conditionLayout a).filterMap f = a.layout.filterMap f := by
  rw [conditionLayout]
  split
  · rw [Layout.filterMap_enclosed f skips]
  · rfl

private theorem filterMap_conjunction (d : Draft) :
    d.conjunction.filterMap f = d.conjuncts.flatMap (·.layout.filterMap f) := by
  have parts : (Layout.separated " AND " (d.conjuncts.map d.conditionLayout)).filterMap f =
      d.conjuncts.flatMap (·.layout.filterMap f) := by
    rw [Layout.filterMap_separated f skips,List.flatMap_map]
    simp [filterMap_conditionLayout f skips]
  rw [conjunction]
  split
  · rw [Layout.filterMap_enclosed f skips,parts]
  · rw [parts]

private theorem filterMap_disjunction (d : Draft) :
    d.disjunction.filterMap f = d.disjuncts.flatMap (·.layout.filterMap f) := by
  rw [disjunction,Layout.filterMap_separated f skips,List.flatMap_map]
  simp [filterMap_conditionLayout f skips]

/-- Conditions are seen before alternatives, in whatever order they were asked for. -/
theorem filterMap_whereLayout (d : Draft) :
    d.whereLayout.filterMap f =
      (d.conjuncts ++ d.disjuncts).flatMap (·.layout.filterMap f) := by
  rw [whereLayout,List.flatMap_append,← filterMap_conjunction f skips,
    ← filterMap_disjunction f skips]
  cases none : d.conjuncts <;> cases none' : d.disjuncts <;>
    simp [skips,conjunction,disjunction,none,none']

end Views

end Draft
end FluentSql

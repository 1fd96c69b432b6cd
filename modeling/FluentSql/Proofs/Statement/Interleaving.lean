import FluentSql.Proofs.Statement.Rendering

/-! Calls for different parts of a statement can be mixed in any order. The statement depends on
the order of the calls within each part only, although the parameters are kept in the order of all
the calls. -/
namespace FluentSql

inductive Part
  | table
  | columns
  | joins
  | conditions
  | alternatives
  | groupBy
  | orderBy
  | limit
  deriving DecidableEq

namespace Clause

def part : Clause → Part
  | .table _ => .table
  | .columns _ => .columns
  | .join _ _ _ => .joins
  | .condition _ _ _ => .conditions
  | .membership _ _ => .conditions
  | .raw _ => .conditions
  | .alternative _ _ _ => .alternatives
  | .groupBy _ => .groupBy
  | .orderBy _ _ => .orderBy
  | .limit _ => .limit

/-- Each view of the calls sees those for its own part and no others. -/
theorem unseen_of_part_ne (p : Part) (c : Clause) : c.part ≠ p →
    match p with
    | .table => c.table? = none
    | .columns => c.columns? = none
    | .joins => c.join? = none
    | .conditions => c.conjunct? = none
    | .alternatives => c.disjunct? = none
    | .groupBy => c.groupBy? = none
    | .orderBy => c.orderBy? = none
    | .limit => c.limit? = none := by
  intro other
  cases p <;> cases c <;> first | rfl | exact absurd rfl other

end Clause

/-- The calls for one part, in their order. -/
def callsFor (p : Part) (calls : List Clause) : List Clause := calls.filter (·.part = p)

theorem filterMap_callsFor {α : Type} (view : Clause → Option α) {p : Part}
    (unseen : ∀ c, c.part ≠ p → view c = none) (calls : List Clause) :
    (callsFor p calls).filterMap view = calls.filterMap view := by
  rw [callsFor,List.filterMap_filter]
  apply List.filterMap_congr
  intro c _
  by_cases own : c.part = p
  · simp [own]
  · simp [own,unseen c own]

theorem Draft.ofClauses_congr {first second : List Clause}
    (same : ∀ p, callsFor p first = callsFor p second) :
    Draft.ofClauses first = Draft.ofClauses second := by
  have seen {α : Type} (view : Clause → Option α) {p : Part}
      (unseen : ∀ c, c.part ≠ p → view c = none) :
      first.filterMap view = second.filterMap view := by
    rw [← filterMap_callsFor view unseen first,same p,filterMap_callsFor view unseen second]
  have table := seen Clause.table? (Clause.unseen_of_part_ne .table)
  have columns := seen Clause.columns? (Clause.unseen_of_part_ne .columns)
  have joins := seen Clause.join? (Clause.unseen_of_part_ne .joins)
  have conjuncts := seen Clause.conjunct? (Clause.unseen_of_part_ne .conditions)
  have disjuncts := seen Clause.disjunct? (Clause.unseen_of_part_ne .alternatives)
  have groupBy := seen Clause.groupBy? (Clause.unseen_of_part_ne .groupBy)
  have orderBy := seen Clause.orderBy? (Clause.unseen_of_part_ne .orderBy)
  have limit := seen Clause.limit? (Clause.unseen_of_part_ne .limit)
  rw [ofClauses,ofClauses,table,columns,joins,conjuncts,disjuncts,groupBy,orderBy,limit]

namespace Draft.Matches

variable {d : Draft} {p q : Pending}

/-- States that match one draft make the same statement, or none for the same reason. -/
theorem render_eq_render (first : d.Matches p) (second : d.Matches q) (r : Request) :
    r.render p = r.render q := by
  have table : p.requireTable = q.requireTable := by
    rw [Pending.requireTable,Pending.requireTable,first.table,second.table]
  have columns : p.columnsText = q.columnsText := by
    rw [Pending.columnsText,Pending.columnsText,first.columns,second.columns]
  have joins : p.joinsText = q.joinsText := by
    rw [Pending.joinsText,Pending.joinsText,first.joins,second.joins]
  have conditions : p.whereText = q.whereText := by
    rw [first.whereText_eq,second.whereText_eq]
  have groupBy : p.groupByText = q.groupByText := by
    rw [Pending.groupByText,Pending.groupByText,first.groupBy,second.groupBy]
  have orderBy : p.orderByText = q.orderByText := by
    rw [Pending.orderByText,Pending.orderByText,first.orderBy,second.orderBy]
  have limit : p.limitText = q.limitText := by
    rw [Pending.limitText,Pending.limitText,first.limit,second.limit]
  -- The indices differ between the states, and the values found under them do not.
  have parameters : p.whereParameters = q.whereParameters := by
    rw [first.whereParameters_eq,second.whereParameters_eq]
  have inserted (rows : List Record) : p.toInsertMany rows = q.toInsertMany rows := by
    rw [Pending.toInsertMany,Pending.toInsertMany,table]
  cases r with
  | select =>
    rw [Request.render,Request.render,Pending.toSelect,Pending.toSelect,table,columns,joins,
      conditions,groupBy,orderBy,limit,parameters]
  | insert row => exact inserted [row]
  | insertMany rows => exact inserted rows
  | update row =>
    rw [Request.render,Request.render,Pending.toUpdate,Pending.toUpdate,table,conditions,
      parameters]
  | delete =>
    rw [Request.render,Request.render,Pending.toDelete,Pending.toDelete,table,conditions,
      parameters]

end Draft.Matches

/-- Two series of calls that agree on each part of the statement make the same statement, text
and parameters alike, or fail with the same error. -/
theorem Request.render_congr_parts (first second : List Clause)
    (same : ∀ p, callsFor p first = callsFor p second) (r : Request) :
    r.render (Pending.ofClauses first) = r.render (Pending.ofClauses second) := by
  have matched := Draft.matches_ofClauses first
  rw [Draft.ofClauses_congr same] at matched
  exact matched.render_eq_render (Draft.matches_ofClauses second) r

/-- The alternative comes first in one series and last in the other: the parameters are kept in
another order, and the deletion is the same. -/
theorem Request.render_congr_parts_shuffled :
    let first : List Clause := [.alternative "role" "=" (.text "admin"),.limit 5,
      .condition "age" ">" (.int 18),.table "users",.raw "deleted_at IS NULL",.limit 9]
    let second : List Clause := [.table "users",.condition "age" ">" (.int 18),.limit 5,
      .raw "deleted_at IS NULL",.limit 9,.alternative "role" "=" (.text "admin")]
    (∀ p, callsFor p first = callsFor p second) ∧
    (Pending.ofClauses first).parameters ≠ (Pending.ofClauses second).parameters ∧
    Request.delete.render (Pending.ofClauses first) =
      Request.delete.render (Pending.ofClauses second) ∧
    Request.delete.render (Pending.ofClauses first) = .ok ⟨.delete,
      "DELETE FROM users WHERE (age > ? AND (deleted_at IS NULL)) OR role = ?",
      [.int 18,.text "admin"]⟩ := by
  intro first second
  have same : ∀ p, callsFor p first = callsFor p second := by
    intro p
    cases p <;> rfl
  exact ⟨same,by decide,Request.render_congr_parts first second same .delete,by decide⟩

end FluentSql

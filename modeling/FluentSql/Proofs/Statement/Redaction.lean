import FluentSql.Proofs.Statement.Request
import FluentSql.Proofs.Statement.Draft

/-! Statements without their values. Null stands in for every value, so that what is left equal
by redaction differs in values only. Rendering and redaction commute: no value gets into the text
of a statement or into an error. -/
namespace FluentSql

def blank (values : List Value) : List Value := values.map fun _ => .null

@[simp] theorem length_blank (values : List Value) : (blank values).length = values.length := by
  simp [blank]

theorem blank_eq_blank_iff {values others : List Value} :
    blank values = blank others ↔ values.length = others.length := by
  rw [blank,blank,List.map_const',List.map_const',List.replicate_inj]
  simp

def Clause.redacted : Clause → Clause
  | .condition column operator _ => .condition column operator .null
  | .alternative column operator _ => .alternative column operator .null
  | .membership column values => .membership column (blank values)
  | c => c

namespace Record

def redacted (r : Record) : Record where
  fields := r.fields.map fun field => (field.1,.null)
  nodup := by
    rw [List.map_map]
    exact r.nodup

variable (r s : Record)

@[simp] theorem columns_redacted : r.redacted.columns = r.columns := by simp [redacted,columns]

@[simp] theorem values_redacted : r.redacted.values = blank r.values := by
  simp [redacted,values,blank]

@[simp] theorem size_redacted : r.redacted.size = r.size := by simp [redacted,size]

@[simp] theorem isEmpty_redacted : r.redacted.isEmpty = r.isEmpty := by simp [redacted,isEmpty]

@[simp] theorem sameColumns_redacted : r.redacted.sameColumns s.redacted = r.sameColumns s := by
  simp [sameColumns]

end Record

namespace Statement

def redacted (s : Statement) : Statement := { s with parameters := blank s.parameters }

/-- What can be told of a statement without its values. -/
def outline (s : Statement) : Statement.Kind × String × Nat :=
  (s.kind,s.sql,s.parameters.length)

@[simp] theorem outline_redacted (s : Statement) : s.redacted.outline = s.outline := by
  simp [outline,redacted]

theorem outline_eq_outline_iff {s t : Statement} :
    s.outline = t.outline ↔
      s.kind = t.kind ∧ s.sql = t.sql ∧ s.parameters.length = t.parameters.length := by
  rw [outline,outline,Prod.mk.injEq,Prod.mk.injEq]

theorem redacted_eq_redacted_iff {s t : Statement} :
    s.redacted = t.redacted ↔ s.outline = t.outline := by
  rw [redacted,redacted,mk.injEq,blank_eq_blank_iff,outline_eq_outline_iff]

end Statement

def Request.redacted : Request → Request
  | .select => .select
  | .insert row => .insert row.redacted
  | .insertMany rows => .insertMany (rows.map Record.redacted)
  | .update row => .update row.redacted
  | .delete => .delete

namespace Pending

def redacted (q : Pending) : Pending := { q with parameters := blank q.parameters }

theorem apply_redacted (q : Pending) (c : Clause) :
    q.redacted.apply c.redacted = (q.apply c).redacted := by
  cases c with
  | condition column operator value =>
    simp [redacted,Clause.redacted,apply,addCondition,nextCondition,blank]
  | alternative column operator value =>
    simp [redacted,Clause.redacted,apply,addAlternative,nextCondition,blank]
  | membership column values =>
    cases values <;>
      simp [redacted,Clause.redacted,apply,addMembership,nextCondition,blank]
  | raw sql => simp [redacted,Clause.redacted,apply,addRaw,nextCondition]
  | _ => rfl

@[simp] theorem whereText_redacted (q : Pending) : q.redacted.whereText = q.whereText := rfl

@[simp] theorem whereParameters_redacted (q : Pending) :
    q.redacted.whereParameters = blank q.whereParameters := by
  simp [whereParameters,parametersOf,redacted,blank,List.map_flatMap,List.map_take,List.map_drop]

end Pending

namespace Request

private theorem toInsertMany_redacted (q : Pending) (rows : List Record) :
    q.redacted.toInsertMany (rows.map Record.redacted) =
      (q.toInsertMany rows).map Statement.redacted := by
  have table : q.redacted.requireTable = q.requireTable := rfl
  have values : (rows.map Record.redacted).flatMap Record.values =
      blank (rows.flatMap Record.values) := by
    rw [List.flatMap_map,blank,List.map_flatMap]
    simp [blank]
  rw [Pending.toInsertMany,Pending.toInsertMany,table,values]
  cases q.requireTable with
  | error e => rfl
  | ok name =>
    cases rows with
    | nil => rfl
    | cons first rest =>
      have differing : ((first :: rest).map Record.redacted).findIdx?
          (!·.sameColumns first.redacted) = (first :: rest).findIdx? (!·.sameColumns first) := by
        rw [List.findIdx?_map]
        simp [Function.comp_def]
      rw [List.map_cons] at differing
      simp only [bind,Except.bind,List.map_cons,Record.isEmpty_redacted,differing,
        Record.columns_redacted,Record.size_redacted,List.length_cons,List.length_map]
      cases first.isEmpty with
      | true => rfl
      | false =>
        cases (first :: rest).findIdx? (!·.sameColumns first) <;> rfl

/-- Redaction before or after rendering makes no difference, also where there is no statement. -/
theorem render_redacted (r : Request) (q : Pending) :
    r.redacted.render q.redacted = (r.render q).map Statement.redacted := by
  have table : q.redacted.requireTable = q.requireTable := rfl
  cases r with
  | select =>
    rw [redacted,render,render,Pending.toSelect,Pending.toSelect,table,
      Pending.whereParameters_redacted]
    cases q.requireTable <;> rfl
  | insert row => exact toInsertMany_redacted q [row]
  | insertMany rows => exact toInsertMany_redacted q rows
  | update row =>
    rw [redacted,render,render,Pending.toUpdate,Pending.toUpdate,table,
      Pending.whereParameters_redacted]
    cases q.requireTable with
    | error e => rfl
    | ok name =>
      cases empty : row.isEmpty <;>
        simp [bind,Except.bind,pure,Except.pure,Except.map,empty,Statement.redacted,blank]
  | delete =>
    rw [redacted,render,render,Pending.toDelete,Pending.toDelete,table,
      Pending.whereParameters_redacted]
    cases q.requireTable <;> rfl

end Request
end FluentSql

import FluentSql.Proofs.Traversal
import FluentSql.Statement.Rendering

/-! The statements that a pending state can be asked for. Whether there is one, and of which
kind, depends neither on the conditions nor on the limit. The clause of the conditions ends an
UPDATE and a DELETE, and stands in a SELECT between the joins and the grouping. -/
namespace FluentSql

inductive Request
  | select
  | insert (row : Record)
  | insertMany (rows : List Record)
  | update (row : Record)
  | delete

namespace Request

def kind : Request → Statement.Kind
  | .select => .select
  | .insert _ => .insert
  | .insertMany _ => .insert
  | .update _ => .update
  | .delete => .delete

def records : Request → List Record
  | .insert row => [row]
  | .insertMany rows => rows
  | .update row => [row]
  | _ => []

def render : Request → Pending → Except RenderError Statement
  | .select, q => q.toSelect
  | .insert row, q => q.toInsert row
  | .insertMany rows, q => q.toInsertMany rows
  | .update row, q => q.toUpdate row
  | .delete, q => q.toDelete

end Request

namespace Pending

variable {q : Pending} {name : String} {s : Statement}

/-- The table has this name, which shows something. -/
def Names (q : Pending) (table : String) : Prop :=
  q.table = some table ∧ ∃ c ∈ table.toList, Text.isBlank c = false

theorem requireTable_cases (q : Pending) :
    (∃ table, q.Names table ∧ q.requireTable = .ok table) ∨
      (∀ table, ¬ q.Names table) ∧ q.requireTable = .error .noTable := by
  cases set : q.table with
  | none =>
    refine .inr ⟨fun table ⟨given,_⟩ => ?_,by rw [requireTable,set]⟩
    rw [set] at given
    cases given
  | some name =>
    simp only [requireTable,set]
    split
    next blank =>
      refine .inr ⟨fun table ⟨given,c,member,shown⟩ => ?_,rfl⟩
      cases set.symm.trans given
      rw [List.all_eq_true.mp blank c member] at shown
      cases shown
    next shown =>
      refine .inl ⟨name,⟨set,?_⟩,rfl⟩
      simpa [Text.allBlank] using shown

theorem requireTable_ok_iff : q.requireTable = .ok name ↔ q.Names name := by
  obtain ⟨table,named,required⟩ | ⟨unnamed,required⟩ := q.requireTable_cases
  · rw [required,Except.ok.injEq]
    constructor
    · rintro rfl
      exact named
    · intro other
      exact Option.some.inj (named.1.symm.trans other.1)
  · rw [required]
    exact ⟨nofun,fun named => absurd named (unnamed name)⟩

private theorem laid_ok_iff (lay : String → Statement) :
    (q.requireTable >>= fun name => .ok (lay name)) = .ok s ↔
      ∃ name, q.Names name ∧ s = lay name := by
  rw [Traversal.bind_ok_iff]
  refine exists_congr fun name => and_congr requireTable_ok_iff ?_
  rw [Except.ok.injEq,eq_comm]

theorem toSelect_ok_iff : q.toSelect = .ok s ↔ ∃ name, q.Names name ∧
    s = ⟨.select,"SELECT " ++ q.columnsText ++ " FROM " ++ name ++ q.joinsText ++ q.whereText ++
      q.groupByText ++ q.orderByText ++ q.limitText,q.whereParameters⟩ := by
  unfold toSelect
  exact laid_ok_iff _

theorem toUpdate_ok_iff {row : Record} : q.toUpdate row = .ok s ↔
    row.isEmpty = false ∧ ∃ name, q.Names name ∧
      s = ⟨.update,"UPDATE " ++ name ++ " SET " ++
        ", ".intercalate (row.columns.map (· ++ " = ?")) ++ q.whereText,
        row.values ++ q.whereParameters⟩ := by
  unfold toUpdate
  cases row.isEmpty with
  | true =>
    rw [Traversal.bind_ok_iff]
    refine ⟨?_,nofun⟩
    rintro ⟨_,_,failed⟩
    cases failed
  | false =>
    rw [eq_self,true_and]
    exact laid_ok_iff _

theorem toDelete_ok_iff : q.toDelete = .ok s ↔ ∃ name, q.Names name ∧
    s = ⟨.delete,"DELETE FROM " ++ name ++ q.whereText,q.whereParameters⟩ := by
  unfold toDelete
  exact laid_ok_iff _

end Pending

namespace Request

variable {r : Request} {q : Pending} {s : Statement}

theorem render_inv (ok : r.render q = .ok s) : q.table.isSome = true ∧ s.kind = r.kind := by
  have named {name : String} (table : q.Names name) : q.table.isSome = true := by
    rw [table.1,Option.isSome_some]
  have inserted {rows : List Record} (ok : q.toInsertMany rows = .ok s) :
      q.table.isSome = true ∧ s.kind = .insert := by
    obtain ⟨name,table,rendered⟩ := (Traversal.bind_ok_iff ..).mp ok
    refine ⟨named (Pending.requireTable_ok_iff.mp table),?_⟩
    split at rendered
    · cases rendered
    · split at rendered
      · cases rendered
      · split at rendered
        · cases rendered
        · cases rendered
          rfl
  cases r with
  | select =>
    obtain ⟨name,table,rfl⟩ := Pending.toSelect_ok_iff.mp ok
    exact ⟨named table,rfl⟩
  | insert row =>
    rw [render,Pending.toInsert] at ok
    exact inserted ok
  | insertMany rows => exact inserted ok
  | update row =>
    obtain ⟨_,name,table,rfl⟩ := Pending.toUpdate_ok_iff.mp ok
    exact ⟨named table,rfl⟩
  | delete =>
    obtain ⟨name,table,rfl⟩ := Pending.toDelete_ok_iff.mp ok
    exact ⟨named table,rfl⟩

theorem render_setLimit_error_iff (r : Request) (q : Pending) (n : Nat) (e : RenderError) :
    r.render (q.setLimit n) = .error e ↔ r.render q = .error e := by
  have table : (q.setLimit n).requireTable = q.requireTable := rfl
  cases r with
  | select =>
    simp only [render,Pending.toSelect,table]
    cases q.requireTable <;> simp [bind,Except.bind,pure,Except.pure]
  | insert row => rfl
  | insertMany rows => rfl
  | update row => rfl
  | delete => rfl

end Request
end FluentSql

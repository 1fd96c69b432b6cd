import FluentSql.Proofs.Json.Document
import FluentSql.Proofs.Record.Lookup
import Mathlib.Data.Finset.Card

/-! Records over whole histories. Whatever is done to a record, it lists the columns that have been
assigned since it was made: each of them once, in the order of the first assignments and with the
value assigned last. -/
namespace FluentSql

section Fields

variable {α : Type}

theorem putAll_concat (assignments : List (String × α)) (name : String) (value : α) :
    putAll (assignments ++ [(name,value)]) = put name value (putAll assignments) := by
  rw [putAll,List.foldl_concat]
  rfl

theorem map_fst_putAll (assignments : List (String × α)) :
    (putAll assignments).map (·.1) = (assignments.map (·.1)).eraseDups := by
  induction assignments using List.reverseRecOn with
  | nil => rfl
  | append_singleton assignments assignment ih =>
    obtain ⟨name,value⟩ := assignment
    rw [putAll_concat,map_fst_put,ih,List.map_append,List.eraseDups_append]
    by_cases known : name ∈ assignments.map (·.1) <;>
      simp [List.removeAll,List.eraseDups_cons,known]

theorem putAll_putAll (assignments : List (String × α)) :
    putAll (putAll assignments) = putAll assignments := putAll_of_nodup (nodup_putAll assignments)

end Fields

/-- The members of an object as assignments. -/
def Json.assignments? : Json → Option (List (String × Value))
  | .object members => some (members.map fun (name,j) => (name,.ofJson j))
  | _ => none

/-- The entries of a map as assignments, if all of them have a document. -/
def Json.Data.assignments? : Data → Option (List (String × Value))
  | .map entries =>
    (entries.mapM ofEntry).toOption.map (List.map fun (name,j) => (name,.ofJson j))
  | _ => none

namespace Record

theorem eq_of_fields {r s : Record} (same : r.fields = s.fields) : r = s := by
  obtain ⟨fields,_⟩ := r
  obtain ⟨_,_⟩ := s
  cases same
  rfl

/-- What comes before in the same place counts no more: only the values assigned last stay. -/
theorem ofAssignments_map_putAll {α : Type} (f : α → Value) (assignments : List (String × α)) :
    ofAssignments ((putAll assignments).map fun (name,a) => (name,f a)) =
      ofAssignments (assignments.map fun (name,a) => (name,f a)) := by
  apply eq_of_fields
  rw [fields_ofAssignments,fields_ofAssignments,putAll_map,putAll_putAll]

theorem toOption_ofJson (j : Json) :
    (ofJson j).toOption = j.assignments?.map ofAssignments := by
  cases j <;> rfl

theorem toOption_ofData (data : Json.Data) :
    (ofData data).toOption = data.assignments?.map ofAssignments := by
  cases data with
  | map entries =>
    rw [ofData,Json.ofData,Json.ofEntries_eq,Json.Data.assignments?]
    cases converted : entries.mapM Json.ofEntry with
    | error e => rfl
    | ok assignments =>
      rw [Except.map,Json.ofAssignments,Json.members_eq_putAll]
      exact congrArg some (ofAssignments_map_putAll Value.ofJson assignments)
  | integer n =>
    simp only [ofData,Json.ofData,Json.ofInteger]
    split_ifs <;> rfl
  | real x =>
    simp only [ofData,Json.ofData]
    split_ifs <;> rfl
  | single x =>
    simp only [ofData,Json.ofData]
    split_ifs <;> rfl
  | sequence items =>
    rw [ofData,Json.ofData]
    cases Json.ofItems items <;> rfl
  | unit => rfl
  | bool b => rfl
  | text s => rfl

/-- What is done to a record: a column is assigned, or another record is made in its place. -/
inductive Edit
  | set (column : String) (value : Value)
  | setOption (column : String) (value : Option Value)
  | ofAssignments (assignments : List (String × Value))
  | ofJson (document : Json)
  | ofData (data : Json.Data)

namespace Edit

/-- The record stays as it was where another cannot be made. -/
def run (r : Record) : Edit → Record
  | .set column value => r.set column value
  | .setOption column value => r.setOption column value
  | .ofAssignments assignments => Record.ofAssignments assignments
  | .ofJson document => (Record.ofJson document).toOption.getD r
  | .ofData data => (Record.ofData data).toOption.getD r

def runAll (edits : List Edit) : Record := edits.foldl run .empty

/-- The assignments since the record was made, given those before the edit. -/
def extend (assigned : List (String × Value)) : Edit → List (String × Value)
  | .set column value => assigned ++ [(column,value)]
  | .setOption column value => assigned ++ value.toList.map (column,·)
  | .ofAssignments assignments => assignments
  | .ofJson document => document.assignments?.getD assigned
  | .ofData data => data.assignments?.getD assigned

def assigned (edits : List Edit) : List (String × Value) := edits.foldl extend []

variable {r : Record} {before : List (String × Value)}

private theorem fields_getD (now : r.fields = putAll before)
    (assignments : Option (List (String × Value))) :
    ((assignments.map Record.ofAssignments).getD r).fields = putAll (assignments.getD before) := by
  cases assignments with
  | none => exact now
  | some assignments => exact fields_ofAssignments assignments

theorem fields_run (now : r.fields = putAll before) (e : Edit) :
    (e.run r).fields = putAll (e.extend before) := by
  have set (column : String) (value : Value) :
      (r.set column value).fields = putAll (before ++ [(column,value)]) := by
    rw [putAll_concat,← now]
    exact assign_eq_put column value r.fields
  cases e with
  | set column value => exact set column value
  | setOption column value =>
    cases value with
    | none =>
      rw [extend,Option.toList_none,List.map_nil,List.append_nil]
      exact now
    | some value => exact set column value
  | ofAssignments assignments => exact fields_ofAssignments assignments
  | ofJson document =>
    rw [run,toOption_ofJson]
    exact fields_getD now _
  | ofData data =>
    rw [run,toOption_ofData]
    exact fields_getD now _

theorem fields_runAll (edits : List Edit) : (runAll edits).fields = putAll (assigned edits) := by
  induction edits using List.reverseRecOn with
  | nil => rfl
  | append_singleton edits e ih =>
    rw [runAll,assigned,List.foldl_concat,List.foldl_concat]
    exact fields_run ih e

end Edit

/-- A record is the ordered map of these assignments, the oldest first. -/
structure Lists (r : Record) (assigned : List (String × Value)) : Prop where
  once : r.columns.Nodup
  /-- Of several assignments to a column the first gives its place. -/
  columns : r.columns = (assigned.map (·.1)).eraseDups
  /-- The last gives its value. -/
  last : ∀ column v, r.get? column = some v ↔ ∃ before after,
    assigned = before ++ (column,v) :: after ∧ column ∉ after.map (·.1)
  unassigned : ∀ column, r.get? column = none ↔ column ∉ assigned.map (·.1)
  /-- The values stand in the order of the columns. -/
  values : r.values.map some = r.columns.map r.get?
  fields : r.fields = r.columns.zip r.values
  size : r.size = (assigned.map (·.1)).toFinset.card

theorem get?_of_fields {r : Record} {assigned : List (String × Value)}
    (made : r.fields = putAll assigned) (column : String) :
    r.get? column = lastOf column assigned := by
  rw [get?,made]
  exact firstOf_putAll column assigned

theorem get?_of_mem {r : Record} {field : String × Value} (member : field ∈ r.fields) :
    r.get? field.1 = some field.2 := by
  obtain ⟨before,after,split⟩ := List.append_of_mem member
  refine firstOf_eq_some_iff.mpr ⟨before,after,split,fun earlier => ?_⟩
  have once := r.nodup
  rw [split,List.map_append] at once
  exact (List.nodup_append.mp once).2.2 _ earlier _ List.mem_cons_self rfl

theorem lists_of_fields {r : Record} {assigned : List (String × Value)}
    (made : r.fields = putAll assigned) : r.Lists assigned := by
  have columns : r.columns = (assigned.map (·.1)).eraseDups := by
    rw [Record.columns,made,map_fst_putAll]
  exact {
    once := r.nodup
    columns
    last := fun column v => by rw [get?_of_fields made,lastOf_eq_some_iff]
    unassigned := fun column => by
      rw [get?_of_fields made,← lastOf_isSome,Option.not_isSome_iff_eq_none]
    values := by
      rw [values,Record.columns,List.map_map,List.map_map]
      exact List.map_congr_left fun field member => (get?_of_mem member).symm
    fields := List.zip_of_prod rfl rfl
    size := by
      have same : r.columns.toFinset = (assigned.map (·.1)).toFinset := by
        ext column
        rw [columns,List.mem_toFinset,List.mem_toFinset,List.mem_eraseDups]
      have card : r.columns.toFinset.card = r.columns.length := List.toFinset_card_of_nodup r.nodup
      rw [← same,card,Record.columns,List.length_map,Record.size] }

/-- In every history a record is the ordered map of what has been assigned since it was made. -/
theorem runAll_lists (edits : List Edit) : (Edit.runAll edits).Lists (Edit.assigned edits) :=
  lists_of_fields (Edit.fields_runAll edits)

end Record
end FluentSql

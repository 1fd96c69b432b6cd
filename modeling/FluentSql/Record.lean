import FluentSql.Failure
import FluentSql.Json.Data

/-! Records: the columns that an INSERT or UPDATE assigns. A record lists its columns in the
order of their first assignment, each once, with the value assigned last. -/
namespace FluentSql

structure Record where
  fields : List (String × Value)
  nodup : (fields.map (·.1)).Nodup
  deriving DecidableEq

namespace Record

def columns (r : Record) : List String := r.fields.map (·.1)
def values (r : Record) : List Value := r.fields.map (·.2)
def size (r : Record) : Nat := r.fields.length
def isEmpty (r : Record) : Bool := r.fields.isEmpty

def empty : Record := ⟨[],by simp⟩

def get? (r : Record) (column : String) : Option Value :=
  (r.fields.find? (·.1 = column)).map (·.2)

/-- Replaces the value of a column in place, or adds the column at the end. -/
def assign (column : String) (value : Value) : List (String × Value) → List (String × Value)
  | [] => [(column,value)]
  | field :: rest =>
    if field.1 = column then (column,value) :: rest else field :: assign column value rest

theorem map_fst_assign (column : String) (value : Value) (fields : List (String × Value)) :
    (assign column value fields).map (·.1) =
      if column ∈ fields.map (·.1) then fields.map (·.1) else fields.map (·.1) ++ [column] := by
  induction fields with
  | nil => simp [assign]
  | cons field rest ih =>
    by_cases same : field.1 = column
    · simp [assign,same]
    · have other : ¬ column = field.1 := fun h => same h.symm
      simp only [assign,same,if_false,List.map_cons,List.mem_cons,other,false_or,ih]
      split <;> simp

theorem nodup_assign (column : String) (value : Value) {fields : List (String × Value)}
    (h : (fields.map (·.1)).Nodup) : ((assign column value fields).map (·.1)).Nodup := by
  rw [map_fst_assign]
  split
  · exact h
  · rename_i absent
    rw [List.nodup_append]
    exact ⟨h,by simp,fun a ha b hb => by
      rw [List.mem_singleton] at hb
      exact fun same => absent (hb ▸ same ▸ ha)⟩

def set (r : Record) (column : String) (value : Value) : Record :=
  ⟨assign column value r.fields,nodup_assign column value r.nodup⟩

def setOption (r : Record) (column : String) : Option Value → Record
  | none => r
  | some value => r.set column value

def ofAssignments (assignments : List (String × Value)) : Record :=
  assignments.foldl (fun r (column,value) => r.set column value) empty

def ofJson : Json → Except Failure Record
  | .object members => .ok (ofAssignments (members.map fun (c,v) => (c,.ofJson v)))
  | other =>
    .error (.invalidArgument ("record must serialize to an object, got " ++ other.kind))

def ofData (data : Json.Data) : Except Failure Record :=
  match Json.ofData data with
  | .ok document => ofJson document
  | .error e => .error (.invalidArgument ("record serialization failed: " ++ e.message))

def sameColumns (a b : Record) : Bool := a.columns == b.columns

theorem length_values (r : Record) : r.values.length = r.columns.length := by
  rw [values,columns,List.length_map,List.length_map]

theorem size_eq (r : Record) : r.size = r.columns.length := by rw [size,columns,List.length_map]

theorem isEmpty_iff (r : Record) : r.isEmpty = true ↔ r.columns = [] := by
  rw [isEmpty,columns,List.isEmpty_iff,List.map_eq_nil_iff]

theorem sameColumns_iff (a b : Record) : a.sameColumns b = true ↔ a.columns = b.columns :=
  beq_iff_eq

theorem findIdx?_sameColumns_eq_none_iff {first : Record} {rows : List Record} :
    rows.findIdx? (!·.sameColumns first) = none ↔ ∀ row ∈ rows, row.columns = first.columns := by
  simp only [List.findIdx?_eq_none_iff,Bool.not_eq_false',sameColumns_iff]

end Record
end FluentSql

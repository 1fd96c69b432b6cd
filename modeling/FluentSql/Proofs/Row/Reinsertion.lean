import FluentSql.Proofs.Json.Data
import FluentSql.Proofs.Record.History

/-! Rows as records. The JSON object of a row makes a record of the same columns, in which only
floats that are not finite and the kinds of values that JSON does not have are changed. -/
namespace FluentSql

section Fields

variable {α : Type} {field : String × α}

theorem mem_put {name : String} {value : α} {fields : List (String × α)}
    (member : field ∈ put name value fields) : field = (name,value) ∨ field ∈ fields := by
  induction fields with
  | nil => exact .inl (List.mem_singleton.mp member)
  | cons first rest ih =>
    rw [put] at member
    split at member
    · exact (List.mem_cons.mp member).imp_right (List.mem_cons_of_mem first)
    · rcases List.mem_cons.mp member with rfl | later
      · exact .inr List.mem_cons_self
      · exact (ih later).imp_right (List.mem_cons_of_mem first)

theorem mem_putAll {assignments : List (String × α)} (member : field ∈ putAll assignments) :
    field ∈ assignments := by
  induction assignments using List.reverseRecOn with
  | nil => cases member
  | append_singleton assignments assignment ih =>
    rw [putAll_concat] at member
    rw [List.mem_append,List.mem_singleton]
    exact (mem_put member).symm.imp_left ih

end Fields

theorem Json.renderItems_eq (items : List Json) :
    renderItems items = ",".intercalate (items.map Json.render) := by
  induction items with
  | nil => simp [renderItems]
  | cons item rest ih =>
    cases rest with
    | nil => simp [renderItems]
    | cons next rest =>
      rw [renderItems,ih]
      · simp [String.append_assoc]
      · simp

namespace Value

/-- What is left of a value that is written as JSON and read as a value again. -/
def viaJson : Value → Value
  | .float x => if x.isFinite then .float x else .null
  | .bytes b => .text ("[" ++ ",".intercalate (b.map fun byte => toString byte.toNat) ++ "]")
  | .date d => .text (String.ofList d.render)
  | .timestamp t => .text (String.ofList (t.renderWith 'T'))
  | .instant t => .text (String.ofList t.renderOffset)
  | .decimal d => .text (String.ofList d.render)
  | v => v

theorem ofJson_ofInt64 (n : Int64) : ofJson (.ofInt64 n) = .int n := by
  rw [Json.ofInt64]
  split
  next positive =>
    have signed : 0 ≤ n.toBitVec.toInt := Int64.le_iff_toInt_le.mp positive
    have small : n.toUInt64.toNat < 2 ^ 63 := by
      have half := BitVec.toInt_pos_iff.mp signed
      change n.toBitVec.toNat < _
      omega
    rw [ofJson,ofJsonNumber,if_pos small,Int64.toInt64_toUInt64]
  next => rfl

theorem ofJson_toJson (v : Value) : ofJson v.toJson = v.viaJson := by
  cases v with
  | int n => exact ofJson_ofInt64 n
  | float x =>
    rw [toJson,viaJson]
    split <;> rfl
  | bytes b =>
    rw [toJson,ofJson,Json.render,Json.renderItems_eq,viaJson]
    · rw [List.map_map]
      rfl
    all_goals simp
  | _ => rfl

theorem isProper_toJson (v : Value) : v.toJson.IsProper := by
  cases v with
  | null => exact .null
  | bool b => exact .bool b
  | int n =>
    rw [toJson,Json.ofInt64]
    split
    next => exact .number trivial
    next negative => exact .number (Int64.not_le.mp negative)
  | float x =>
    rw [toJson]
    split
    next finite => exact .number finite
    next => exact .null
  | bytes b =>
    refine .array fun j member => ?_
    obtain ⟨byte,_,rfl⟩ := List.mem_map.mp member
    exact .number trivial
  | _ => exact .string _

end Value

namespace Row

theorem isProper_toJson (r : Row) : r.toJson.IsProper := by
  rw [toJson,Json.ofAssignments,Json.members_eq_putAll]
  refine .object (nodup_putAll _) fun m member => ?_
  obtain ⟨⟨name,v⟩,_,rfl⟩ := List.mem_map.mp (mem_putAll member)
  exact v.isProper_toJson

/-- The record has what the row has. -/
structure Reinserts (r : Row) (record : Record) : Prop where
  /-- Of several columns with a name the first gives the place. -/
  columns : record.columns = r.columns.eraseDups
  /-- The last gives the value. -/
  value : ∀ column v, r.Last column v → record.get? column = some v.viaJson

theorem ofJson_toJson (r : Row) : Record.ofJson r.toJson =
    .ok (.ofAssignments (r.fields.map fun (column,v) => (column,v.viaJson))) := by
  rw [toJson,Json.ofAssignments,Json.members_eq_putAll,Record.ofJson,
    Record.ofAssignments_map_putAll,List.map_map]
  simp only [Function.comp_def,Value.ofJson_toJson]

/-- Every row makes a record, by its JSON object and by what that is serialized to. -/
theorem toJson_reinserts (r : Row) : ∃ record, Record.ofJson r.toJson = .ok record ∧
    Record.ofData r.toJson.toData = .ok record ∧ r.Reinserts record := by
  have made := ofJson_toJson r
  refine ⟨_,made,?_,?_,fun column v last => ?_⟩
  · rw [Record.ofData,Json.ofData_toData r.isProper_toJson]
    exact made
  · rw [Record.columns,Record.fields_ofAssignments,map_fst_putAll,List.map_map,← map_fst_fields]
    rfl
  · rw [Record.get?_ofAssignments,lastOf_map,lastOf_eq_some_iff.mpr last,Option.map_some]

/-- One as a float stays a float. -/
example :
    let r := ofFields [("id",.int 1),("hash",.bytes [1,2]),("id",.float ⟨0x3FF0000000000000⟩)]
    (Record.ofJson r.toJson).toOption.map (·.fields) =
      some [("id",.float ⟨0x3FF0000000000000⟩),("hash",.text "[1,2]")] := by
  decide +kernel

end Row
end FluentSql

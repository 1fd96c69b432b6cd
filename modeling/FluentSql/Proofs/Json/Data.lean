import FluentSql.Proofs.Json.Rendering
import FluentSql.Proofs.Value.Imported

/-! Documents as data. A document that is serialized once more stays as it is. -/
namespace FluentSql.Json

/-- The document as data that is to be serialized. -/
def toData : Json → Data
  | .null => .unit
  | .bool b => .bool b
  | .number n => n.toData
  | .string s => .text s
  | .array items => .sequence (items.map fun j => j.toData)
  | .object members => .object (members.map fun m => (m.1,m.2.toData))
decreasing_by
  · exact sizeOf_item_lt ‹_›
  · exact sizeOf_member_lt ‹_›

/-- Integers are held by their sign, and doubles are finite. -/
def Number.IsProper : Number → Prop
  | .natural _ => True
  | .negative n => n < 0
  | .real x => x.isFinite = true

/-- Documents as they are held: proper numbers, and no object that names a member twice. -/
inductive IsProper : Json → Prop
  | null : IsProper .null
  | bool (b : Bool) : IsProper (.bool b)
  | number {n : Number} (proper : n.IsProper) : IsProper (.number n)
  | string (s : String) : IsProper (.string s)
  | array {items : List Json} (all : ∀ j ∈ items, IsProper j) : IsProper (.array items)
  | object {members : List (String × Json)} (once : (members.map (·.1)).Nodup)
    (all : ∀ m ∈ members, IsProper m.2) : IsProper (.object members)

theorem Number.ofData_toData {n : Number} (proper : n.IsProper) :
    ofData n.toData = .ok (.number n) := by
  cases n with
  | natural n => rw [toData,ofData,ofInteger_toNat]
  | negative n => rw [toData,ofData,ofInteger_toInt proper]
  | real x =>
    have finite : x.isFinite = true := proper
    rw [toData,ofData,if_pos finite]

theorem ofItems_eq (items : List Data) : ofItems items = items.mapM ofData := by
  induction items with
  | nil => rfl
  | cons item rest ih => rw [ofItems,List.mapM_cons,ih]

theorem ofData_toData {j : Json} (proper : j.IsProper) : ofData j.toData = .ok j := by
  induction proper with
  | null => rw [toData,ofData]
  | bool b => rw [toData,ofData]
  | number proper => rw [toData,Number.ofData_toData proper]
  | string s => rw [toData,ofData]
  | @array items _ ih =>
    have each : (items.map fun j => j.toData).mapM ofData = .ok items := by
      rw [Traversal.mapM_ok_iff,List.forall₂_map_left_iff,List.forall₂_same]
      exact ih
    rw [toData,ofData,ofItems_eq,each]
    rfl
  | @object members once _ ih =>
    have each : List.mapM ofEntry ((members.map fun m => (m.1,m.2.toData)).map
        fun field => (Data.text field.1,field.2)) = .ok members := by
      rw [Traversal.mapM_ok_iff,List.map_map,List.forall₂_map_left_iff,List.forall₂_same]
      exact fun m member => ofEntry_text_ok_iff.mpr ⟨rfl,ih m member⟩
    rw [toData,Data.object,ofData,ofEntries_eq,each,Except.map,ofAssignments,members_eq_putAll,
      putAll_of_nodup once]

end FluentSql.Json

import FluentSql.Proofs.Row.Lookup
import FluentSql.Proofs.Traversal
import FluentSql.Record

/-! The columns of a record that is made from assignments, from a JSON object or from structured
data. A column holds what it was assigned last. -/
namespace FluentSql

theorem lastOf_of_forall₂ {α β : Type} {R : α → β → Prop} {fields : List (String × α)}
    {fields' : List (String × β)} (alike : List.Forall₂ (fun a b => b.1 = a.1 ∧ R a.2 b.2) fields fields')
    {name : String} {a : α} (last : lastOf name fields = some a) :
    ∃ b, lastOf name fields' = some b ∧ R a b := by
  rw [lastOf] at last ⊢
  have reversed := List.rel_reverse alike
  generalize fields.reverse = items at last reversed
  generalize fields'.reverse = items' at reversed
  induction reversed with
  | nil => cases last
  | @cons item item' rest rest' head _ ih =>
    rw [firstOf_cons] at last ⊢
    rw [head.1]
    split at last
    next same =>
      cases last
      rw [if_pos same]
      exact ⟨_,rfl,head.2⟩
    next other =>
      rw [if_neg other]
      exact ih last

namespace Json

theorem ofEntries_eq (entries : List (Data × Data)) : ofEntries entries = entries.mapM ofEntry := by
  induction entries with
  | nil => rfl
  | cons entry rest ih => rw [ofEntries,List.mapM_cons,ih]

/-- Data of named fields, as of a structure. -/
def Data.object (fields : List (String × Data)) : Data :=
  .map (fields.map fun field => (.text field.1,field.2))

theorem ofEntry_text_ok_iff {field : String × Data} {assignment : String × Json} :
    ofEntry (.text field.1,field.2) = .ok assignment ↔
      assignment.1 = field.1 ∧ ofData field.2 = .ok assignment.2 := by
  rw [ofEntry]
  change (ofData field.2 >>= fun document => .ok (field.1,document)) = _ ↔ _
  rw [Traversal.bind_ok_iff]
  constructor
  · rintro ⟨document,converted,same⟩
    cases same
    exact ⟨rfl,converted⟩
  · rintro ⟨name,converted⟩
    exact ⟨assignment.2,converted,by rw [← name]⟩

/-- Data of named fields becomes an object of the fields, or one of them has no document. -/
theorem ofData_object (fields : List (String × Data)) : (∃ e, ofData (.object fields) = .error e) ∨
    ∃ assignments, ofData (.object fields) = .ok (ofAssignments assignments) ∧
      List.Forall₂ (fun a b => b.1 = a.1 ∧ ofData a.2 = .ok b.2) fields assignments := by
  rw [Data.object,ofData,ofEntries_eq]
  cases converted : List.mapM ofEntry (fields.map fun field => (Data.text field.1,field.2)) with
  | error e => exact .inl ⟨e,rfl⟩
  | ok assignments =>
    have each := (Traversal.mapM_ok_iff ..).mp converted
    rw [List.forall₂_map_left_iff] at each
    simp only [ofEntry_text_ok_iff] at each
    exact .inr ⟨assignments,rfl,each⟩

end Json

namespace Record

theorem assign_eq_put (column : String) (value : Value) (fields : List (String × Value)) :
    assign column value fields = put column value fields := by
  induction fields with
  | nil => rfl
  | cons field rest ih => rw [assign,put,ih]

theorem fields_ofAssignments (assignments : List (String × Value)) :
    (ofAssignments assignments).fields = putAll assignments := by
  induction assignments using List.reverseRecOn with
  | nil => rfl
  | append_singleton assignments assignment ih =>
    rw [ofAssignments,putAll,List.foldl_append,List.foldl_append]
    change assign assignment.1 assignment.2 (ofAssignments assignments).fields = _
    rw [assign_eq_put,ih]
    rfl

theorem get?_ofAssignments (column : String) (assignments : List (String × Value)) :
    (ofAssignments assignments).get? column = lastOf column assignments := by
  rw [get?,fields_ofAssignments]
  exact firstOf_putAll column assignments

theorem get?_ofJson (column : String) (members : List (String × Json)) :
    (ofJson (.object members)).map (·.get? column) = .ok ((lastOf column members).map Value.ofJson) := by
  rw [ofJson,Except.map,get?_ofAssignments,lastOf_map]

theorem get?_ofData {fields : List (String × Json.Data)} {column : String} {data : Json.Data}
    (last : lastOf column fields = some data) :
    (∃ message, (ofData (.object fields)).map (·.get? column) = .error (.invalidArgument message)) ∨
      ∃ document, Json.ofData data = .ok document ∧
        (ofData (.object fields)).map (·.get? column) = .ok (some (Value.ofJson document)) := by
  rcases Json.ofData_object fields with ⟨e,failed⟩ | ⟨assignments,converted,each⟩
  · left
    rw [ofData,failed]
    exact ⟨_,rfl⟩
  · right
    obtain ⟨document,assigned,same⟩ :=
      lastOf_of_forall₂ (R := fun data document => Json.ofData data = .ok document) each last
    refine ⟨document,same,?_⟩
    have member : lastOf column (Json.members assignments) = some document := by
      rw [Json.members_eq_putAll,lastOf_eq_firstOf (nodup_putAll assignments),firstOf_putAll,assigned]
    rw [ofData,converted,Json.ofAssignments]
    change (ofJson (.object (Json.members assignments))).map (·.get? column) = _
    rw [get?_ofJson,member,Option.map_some]

end Record
end FluentSql

import FluentSql.Row.User
import Mathlib.Data.List.Induction

/-! Columns by name and through JSON. A name that several columns share stands for the first of
them in the row, and for the last of them in the JSON object of the row. The two ways agree where
these two columns hold the same, above all where no other column has the name. -/
namespace FluentSql

section Fields

variable {α β : Type}

def firstOf (name : String) (fields : List (String × α)) : Option α :=
  (fields.find? (·.1 = name)).map (·.2)

def lastOf (name : String) (fields : List (String × α)) : Option α := firstOf name fields.reverse

theorem firstOf_cons (name : String) (field : String × α) (rest : List (String × α)) :
    firstOf name (field :: rest) = if field.1 = name then some field.2 else firstOf name rest := by
  rw [firstOf,List.find?_cons]
  by_cases same : field.1 = name <;> simp [same,firstOf]

theorem firstOf_eq_some_iff {name : String} {fields : List (String × α)} {a : α} :
    firstOf name fields = some a ↔ ∃ before after,
      fields = before ++ (name,a) :: after ∧ name ∉ before.map (·.1) := by
  have others (before : List (String × α)) :
      name ∉ before.map (·.1) ↔ ∀ field ∈ before, (!decide (field.1 = name)) = true := by
    simp only [List.mem_map,not_exists,not_and,Bool.not_eq_true',decide_eq_false_iff_not]
  simp only [firstOf,Option.map_eq_some_iff,List.find?_eq_some_iff_append,others]
  constructor
  · rintro ⟨⟨key,value⟩,⟨same,before,after,split,first⟩,rfl⟩
    cases of_decide_eq_true same
    exact ⟨before,after,split,first⟩
  · rintro ⟨before,after,split,first⟩
    exact ⟨(name,a),⟨decide_eq_true rfl,before,after,split,first⟩,rfl⟩

theorem lastOf_eq_some_iff {name : String} {fields : List (String × α)} {a : α} :
    lastOf name fields = some a ↔ ∃ before after,
      fields = before ++ (name,a) :: after ∧ name ∉ after.map (·.1) := by
  rw [lastOf,firstOf_eq_some_iff]
  constructor
  · rintro ⟨after,before,split,last⟩
    refine ⟨before.reverse,after.reverse,?_,by simpa using last⟩
    rw [← fields.reverse_reverse,split]
    simp
  · rintro ⟨before,after,rfl,last⟩
    exact ⟨after.reverse,before.reverse,by simp,by simpa using last⟩

theorem firstOf_isSome (name : String) (fields : List (String × α)) :
    (firstOf name fields).isSome ↔ name ∈ fields.map (·.1) := by
  induction fields with
  | nil => simp [firstOf]
  | cons field rest ih =>
    rw [firstOf_cons,List.map_cons,List.mem_cons,← ih]
    by_cases same : field.1 = name
    · simp [same]
    · simp [same,Ne.symm same]

theorem lastOf_isSome (name : String) (fields : List (String × α)) :
    (lastOf name fields).isSome ↔ name ∈ fields.map (·.1) := by
  rw [lastOf,firstOf_isSome,List.map_reverse,List.mem_reverse]

theorem lastOf_map (name : String) (f : α → β) (fields : List (String × α)) :
    lastOf name (fields.map fun (key,value) => (key,f value)) = (lastOf name fields).map f := by
  simp only [lastOf,firstOf,← List.map_reverse,List.find?_map,Option.map_map]
  rfl

/-- A value put under a name, in the place of the first field that has it or else at the end. -/
def put (name : String) (value : α) : List (String × α) → List (String × α)
  | [] => [(name,value)]
  | field :: rest => if field.1 = name then (name,value) :: rest else field :: put name value rest

theorem firstOf_put (name key : String) (value : α) (fields : List (String × α)) :
    firstOf name (put key value fields) = if key = name then some value else firstOf name fields := by
  induction fields with
  | nil => rw [put,firstOf_cons]
  | cons field rest ih =>
    by_cases replaced : field.1 = key
    · rw [put,if_pos replaced,firstOf_cons,firstOf_cons,replaced]
      by_cases same : key = name <;> simp only [same,if_true,if_false]
    · rw [put,if_neg replaced,firstOf_cons,firstOf_cons,ih]
      by_cases same : key = name
      · rw [if_pos same,if_pos same,if_neg fun other => replaced (other.trans same.symm)]
      · rw [if_neg same,if_neg same]

def putAll (assignments : List (String × α)) : List (String × α) :=
  assignments.foldl (fun fields assignment => put assignment.1 assignment.2 fields) []

/-- Of a name that is assigned more than once, the last value stays. -/
theorem firstOf_putAll (name : String) (assignments : List (String × α)) :
    firstOf name (putAll assignments) = lastOf name assignments := by
  induction assignments using List.reverseRecOn with
  | nil => rfl
  | append_singleton assignments assignment ih =>
    rw [putAll,List.foldl_append,lastOf,List.reverse_append]
    change firstOf name (put assignment.1 assignment.2 (putAll assignments)) =
      firstOf name (assignment :: assignments.reverse)
    rw [firstOf_put,firstOf_cons,ih,lastOf]

theorem map_fst_put (name : String) (value : α) (fields : List (String × α)) :
    (put name value fields).map (·.1) =
      if name ∈ fields.map (·.1) then fields.map (·.1) else fields.map (·.1) ++ [name] := by
  induction fields with
  | nil => simp [put]
  | cons field rest ih =>
    by_cases same : field.1 = name
    · simp [put,same]
    · have other : ¬ name = field.1 := fun h => same h.symm
      simp only [put,same,if_false,List.map_cons,List.mem_cons,other,false_or,ih]
      split <;> simp

theorem nodup_putAll (assignments : List (String × α)) :
    ((putAll assignments).map (·.1)).Nodup := by
  induction assignments using List.reverseRecOn with
  | nil => simp [putAll]
  | append_singleton assignments assignment ih =>
    rw [putAll,List.foldl_append]
    change ((put assignment.1 assignment.2 (putAll assignments)).map (·.1)).Nodup
    rw [map_fst_put]
    split
    · exact ih
    · rename_i absent
      refine List.nodup_append.mpr ⟨ih,by simp,fun name member last single same => ?_⟩
      rw [List.mem_singleton] at single
      exact absent (single ▸ same ▸ member)

/-- Where no name is given twice, its first field is its last. -/
theorem lastOf_eq_firstOf {fields : List (String × α)} (once : (fields.map (·.1)).Nodup)
    (name : String) : lastOf name fields = firstOf name fields := by
  refine Option.ext fun a => ?_
  rw [lastOf_eq_some_iff,firstOf_eq_some_iff]
  -- a second field with the name would give the name twice
  have apart (before after : List (String × α)) (split : fields = before ++ (name,a) :: after) :
      name ∉ before.map (·.1) ∧ name ∉ after.map (·.1) := by
    rw [split,List.map_append,List.map_cons] at once
    obtain ⟨_,later,distinct⟩ := List.nodup_append.mp once
    exact ⟨fun member => distinct name member name List.mem_cons_self rfl,
      (List.nodup_cons.mp later).1⟩
  constructor
  · rintro ⟨before,after,split,_⟩
    exact ⟨before,after,split,(apart before after split).1⟩
  · rintro ⟨before,after,split,_⟩
    exact ⟨before,after,split,(apart before after split).2⟩

end Fields

namespace Json

theorem insert_eq_put (name : String) (value : Json) (fields : List (String × Json)) :
    insert name value fields = put name value fields := by
  induction fields with
  | nil => rfl
  | cons field rest ih => rw [insert,put,ih]

theorem members_eq_putAll (assignments : List (String × Json)) :
    members assignments = putAll assignments := by
  simp only [members,putAll,insert_eq_put]

theorem get?_ofAssignments (name : String) (assignments : List (String × Json)) :
    (ofAssignments assignments).get? name = lastOf name assignments := by
  rw [ofAssignments,members_eq_putAll]
  exact firstOf_putAll name assignments

end Json

namespace Row

/-- The first of the columns with a name holds this value. -/
def First (r : Row) (column : String) (v : Value) : Prop :=
  ∃ before after, r.fields = before ++ (column,v) :: after ∧ column ∉ before.map (·.1)

/-- The last of the columns with a name holds this value. -/
def Last (r : Row) (column : String) (v : Value) : Prop :=
  ∃ before after, r.fields = before ++ (column,v) :: after ∧ column ∉ after.map (·.1)

/-- The JSON object of a row has a name where the row has it, and the same value under it. -/
def Agrees (r : Row) (column : String) : Prop :=
  r.toJson.get? column = (r.get? column).map Value.toJson

theorem get?_eq_some_iff {r : Row} {column : String} {v : Value} :
    r.get? column = some v ↔ r.First column v := firstOf_eq_some_iff

theorem fields_ofFields (fields : List (String × Value)) : (ofFields fields).fields = fields := by
  rw [Row.fields,columns_ofFields,values_ofFields,List.zip_map']
  exact List.map_id fields

theorem get?_toJson (r : Row) (column : String) :
    r.toJson.get? column = (lastOf column r.fields).map Value.toJson := by
  rw [toJson,Json.get?_ofAssignments,lastOf_map]

theorem get?_toJson_eq_some_iff {r : Row} {column : String} {document : Json} :
    r.toJson.get? column = some document ↔ ∃ v, r.Last column v ∧ document = v.toJson := by
  rw [get?_toJson,Option.map_eq_some_iff]
  constructor
  · rintro ⟨v,last,rfl⟩
    exact ⟨v,lastOf_eq_some_iff.mp last,rfl⟩
  · rintro ⟨v,last,rfl⟩
    exact ⟨v,lastOf_eq_some_iff.mpr last,rfl⟩

theorem get?_isSome (r : Row) (column : String) :
    (r.get? column).isSome ↔ column ∈ r.columns := by
  rw [← map_fst_fields]
  exact firstOf_isSome column r.fields

theorem get?_toJson_isSome (r : Row) (column : String) :
    (r.toJson.get? column).isSome ↔ column ∈ r.columns := by
  rw [get?_toJson,Option.isSome_map,lastOf_isSome,map_fst_fields]

theorem agrees_iff {r : Row} {column : String} :
    r.Agrees column ↔ ∀ v w, r.First column v → r.Last column w → v.toJson = w.toJson := by
  constructor
  · intro agrees v w first last
    have sought := get?_eq_some_iff.mpr first
    have document := get?_toJson_eq_some_iff.mpr ⟨w,last,rfl⟩
    rw [Agrees,sought,document] at agrees
    exact (Option.some.inj agrees).symm
  · intro same
    have together := (r.get?_isSome column).trans (r.get?_toJson_isSome column).symm
    rw [Agrees]
    cases sought : r.get? column with
    | none => simpa [sought] using together
    | some v =>
      have present : (r.toJson.get? column).isSome := together.mp (by rw [sought,Option.isSome_some])
      obtain ⟨document,found⟩ := Option.isSome_iff_exists.mp present
      obtain ⟨w,last,rfl⟩ := get?_toJson_eq_some_iff.mp found
      rw [found,Option.map_some,same v w (get?_eq_some_iff.mp sought) last]

/-- The first column with a name is also the last where no other has the name. -/
theorem last_of_first {r : Row} {column : String} (once : r.columns.count column ≤ 1) {v : Value}
    (first : r.First column v) : r.Last column v := by
  obtain ⟨before,after,split,_⟩ := first
  refine ⟨before,after,split,fun member => ?_⟩
  have more : 0 < (after.map (·.1)).count column := List.count_pos_iff.mpr member
  rw [← map_fst_fields,split,List.map_append,List.map_cons,List.count_append,
    List.count_cons_self] at once
  omega

theorem agrees_of_unshared {r : Row} {column : String} (once : r.columns.count column ≤ 1) :
    r.Agrees column := by
  refine agrees_iff.mpr fun v w first last => ?_
  have only := lastOf_eq_some_iff.mpr (last_of_first once first)
  rw [lastOf_eq_some_iff.mpr last] at only
  rw [Option.some.inj only]

/-- What a name stands for in a row and in the JSON object of the row. -/
structure LookedUp (r : Row) (column : String) : Prop where
  /-- The object has a name where the row has it. -/
  key : (r.toJson.get? column).isSome ↔ (r.get? column).isSome
  /-- The row gives the first of the columns with that name. -/
  inRow : ∀ v, r.get? column = some v ↔ r.First column v
  /-- The object gives the last of them. -/
  inObject : ∀ document, r.toJson.get? column = some document ↔
    ∃ v, r.Last column v ∧ document = v.toJson
  /-- So they agree where the first and the last hold the same. -/
  agreement : r.Agrees column ↔ ∀ v w, r.First column v → r.Last column w → v.toJson = w.toJson
  /-- They do where there is only one. -/
  unshared : r.columns.count column ≤ 1 → r.Agrees column

theorem lookedUp (r : Row) (column : String) : r.LookedUp column where
  key := (r.get?_toJson_isSome column).trans (r.get?_isSome column).symm
  inRow := fun _ => get?_eq_some_iff
  inObject := fun _ => get?_toJson_eq_some_iff
  agreement := agrees_iff
  unshared := agrees_of_unshared

/-- Two tables have a column for the key. The row keeps the first for it, and a structure that is
read from its JSON object gets the second. -/
theorem lookedUp_joined :
    let joined := Row.ofFields [("id",.int 1),("name",.text "Ada"),("email",.null),("id",.int 2)]
    joined.Agrees "name" ∧ joined.get? "id" = some (.int 1) ∧
      joined.toJson.get? "id" = some (Value.toJson (.int 2)) ∧ ¬ joined.Agrees "id" ∧
      User.ofRow joined = .ok ⟨1,"Ada",none⟩ ∧ User.ofRowJson joined = .ok ⟨2,"Ada",none⟩ := by
  intro joined
  have first : joined.First "id" (.int 1) :=
    ⟨[],[("name",.text "Ada"),("email",.null),("id",.int 2)],rfl,by simp⟩
  have last : joined.Last "id" (.int 2) :=
    ⟨[("id",.int 1),("name",.text "Ada"),("email",.null)],[],rfl,by simp⟩
  have differ : ¬ joined.Agrees "id" := by
    intro agrees
    have same : Json.number (.natural 1) = Json.number (.natural 2) :=
      (lookedUp joined "id").agreement.mp agrees _ _ first last
    exact absurd (Json.Number.natural.inj (Json.number.inj same)) (by decide)
  exact ⟨(lookedUp joined "name").unshared (by decide),((lookedUp joined "id").inRow _).mpr first,
    ((lookedUp joined "id").inObject _).mpr ⟨_,last,rfl⟩,differ,rfl,rfl⟩

end Row
end FluentSql

import FluentSql.Proofs.Row.Reinsertion

/-! A structure read from a row. Read through the JSON object of the row, each field is what the
member of its name is read as, wherever it stands and whatever the other members hold. Where no
two columns share a name, that member is written from the column that is read by name, and the
field is read from it as from the column. -/
namespace FluentSql

theorem firstOf_of_notMem {α : Type} {name : String} {fields : List (String × α)}
    (absent : name ∉ fields.map (·.1)) : firstOf name fields = none := by
  rw [← firstOf_isSome] at absent
  exact Option.not_isSome_iff_eq_none.mp absent

theorem Row.getAs_ok_iff {α : Type} [OfValue α] {r : Row} {column : String} {x : α} :
    r.getAs α column = .ok x ↔ ∃ v, r.get? column = some v ∧
      (ofValue v : Except AccessError α) = .ok x := by
  unfold getAs
  cases r.get? column with
  | none => simp
  | some v => cases taken : (ofValue v : Except AccessError α) <;> simp [Except.mapError,taken]

theorem Row.exists_members (r : Row) :
    ∃ members, r.toJson = .object members ∧ (members.map (·.1)).Nodup := by
  refine ⟨_,rfl,?_⟩
  rw [Json.members_eq_putAll]
  apply nodup_putAll

theorem Row.exists_member {α : Type} [OfValue α] {r : Row} (once : r.columns.Nodup)
    {column : String} {x : α} (taken : r.getAs α column = .ok x) :
    ∃ v : Value, r.toJson.get? column = some v.toJson ∧
      (ofValue v : Except AccessError α) = .ok x := by
  obtain ⟨v,found,access⟩ := getAs_ok_iff.mp taken
  have agrees := agrees_of_unshared (List.nodup_iff_count_le_one.mp once column)
  rw [Agrees,found] at agrees
  exact ⟨v,agrees,access⟩

namespace User

/-- What a field comes to: what the member of its name is read as, or what it was before. -/
def readOver {α : Type} (read : Json → Except FieldError (Option α)) (before : Option α) :
    Option Json → Except FieldError (Option α)
  | none => .ok before
  | some found => read found

/-- What the fields come to when the members of an object are read over them. -/
@[mk_iff]
structure Fields.Become (f : Fields) (members : List (String × Json)) (g : Fields) : Prop where
  id : readOver (fun found => (readId found).map some) f.id (firstOf "id" members) = .ok g.id
  name : readOver (fun found => (readText found).map some) f.name (firstOf "name" members) =
    .ok g.name
  email : readOver readOptional f.email (firstOf "email" members) = .ok g.email

theorem Fields.add_become_iff {f g : Fields} {member : String × Json}
    {rest : List (String × Json)} (absent : member.1 ∉ rest.map (·.1)) :
    (∃ next, f.add member = .ok next ∧ next.Become rest g) ↔ f.Become (member :: rest) g := by
  -- no later member has the name, so the field keeps what is read here
  have behind := firstOf_of_notMem absent
  unfold add
  split
  next value =>
    cases taken : readId value <;> simp [become_iff,firstOf_cons,readOver,behind,taken,Except.map]
  next value =>
    cases taken : readText value <;>
      simp [become_iff,firstOf_cons,readOver,behind,taken,Except.map]
  next value =>
    cases taken : readOptional value <;>
      simp [become_iff,firstOf_cons,readOver,behind,taken,Except.map]
  next noId noName noEmail =>
    -- the member has no field's name, so it is passed over
    have id : member.1 ≠ "id" := fun same => noId member.2 (Prod.ext same rfl)
    have name : member.1 ≠ "name" := fun same => noName member.2 (Prod.ext same rfl)
    have email : member.1 ≠ "email" := fun same => noEmail member.2 (Prod.ext same rfl)
    simp [become_iff,firstOf_cons,id,name,email]

theorem Fields.foldlM_add_ok_iff {members : List (String × Json)}
    (once : (members.map (·.1)).Nodup) {f g : Fields} :
    members.foldlM Fields.add f = .ok g ↔ f.Become members g := by
  induction members generalizing f with
  | nil =>
    cases f
    cases g
    simp [become_iff,firstOf,readOver,pure,Except.pure]
  | cons member rest ih =>
    obtain ⟨absent,later⟩ := List.nodup_cons.mp once
    rw [List.foldlM_cons,Traversal.bind_ok_iff,← add_become_iff absent]
    simp only [ih later]

theorem Fields.toUser_ok_iff {f : Fields} {u : User} :
    f.toUser = .ok u ↔ f.id = some u.id ∧ f.name = some u.name ∧ f.email = u.email := by
  obtain ⟨id,name,email⟩ := f
  obtain ⟨n,s,e⟩ := u
  cases id with
  | none => simp [toUser]
  | some id => cases name <;> simp [toUser]

/-- How a user is read from a document: the email may be missing, the rest must be there. -/
structure ReadFrom (document : Json) (u : User) : Prop where
  id : ∃ found, document.get? "id" = some found ∧ readId found = .ok u.id
  name : ∃ found, document.get? "name" = some found ∧ readText found = .ok u.name
  email : readOver readOptional none (document.get? "email") = .ok u.email

theorem readOver_some_iff {α : Type} {read : Json → Except FieldError α} {found : Option Json}
    {x : α} : readOver (fun document => (read document).map some) none found = .ok (some x) ↔
      ∃ document, found = some document ∧ read document = .ok x := by
  cases found with
  | none => simp [readOver]
  | some document => simp [readOver,Traversal.map_some_ok_iff]

theorem ofMembers_ok_iff {members : List (String × Json)} (once : (members.map (·.1)).Nodup)
    {u : User} : ofMembers members = .ok u ↔ ReadFrom (.object members) u := by
  unfold ofMembers
  simp only [Traversal.bind_ok_iff,Fields.foldlM_add_ok_iff once,Fields.toUser_ok_iff]
  constructor
  · rintro ⟨⟨id,name,email⟩,taken,rfl,rfl,rfl⟩
    exact ⟨readOver_some_iff.mp taken.id,readOver_some_iff.mp taken.name,taken.email⟩
  · intro taken
    refine ⟨⟨some u.id,some u.name,u.email⟩,⟨?_,?_,taken.email⟩,rfl,rfl,rfl⟩
    · exact readOver_some_iff.mpr taken.id
    · exact readOver_some_iff.mpr taken.name

theorem ofRowJson_ok_iff {r : Row} {u : User} :
    ofRowJson r = .ok u ↔ ReadFrom r.toJson u := by
  obtain ⟨members,written,once⟩ := r.exists_members
  rw [ofRowJson,written,ofJson,← ofMembers_ok_iff once]
  cases ofMembers members <;> simp [Except.mapError]

theorem readId_ok_iff {document : Json} {n : Int64} :
    readId document = .ok n ↔ Value.ofJson document = .int n := by
  cases document with
  | number k =>
    cases k with
    | natural k =>
      by_cases small : k.toNat < 2 ^ 63 <;>
        simp [readId,Value.ofJson,Value.ofJsonNumber,small]
    | _ => simp [readId,Value.ofJson,Value.ofJsonNumber]
  | _ => simp [readId,Value.ofJson]

theorem readId_toJson {v : Value} {n : Int64} (taken : ofValue v = .ok n) :
    readId v.toJson = .ok n := by
  rw [readId_ok_iff,Value.ofJson_toJson]
  cases v with
  | int m =>
    cases taken
    rfl
  | _ => cases taken

theorem readText_toJson {v : Value} {s : String} (taken : ofValue v = .ok s) :
    readText v.toJson = .ok s := by
  cases v with
  | text t =>
    cases taken
    rfl
  | _ => cases taken

theorem readOptional_toJson {v : Value} {s : Option String} (taken : ofValue v = .ok s) :
    readOptional v.toJson = .ok s := by
  cases v with
  | null =>
    cases taken
    rfl
  | text t =>
    cases taken
    rfl
  | _ => cases taken

/-- Where typed access to the columns succeeds, the object of the row gives the same. -/
theorem ofRowJson_of_getAs {r : Row} {n : Int64} {s : String} {e : Option String}
    (once : r.columns.Nodup) (id : r.getAs Int64 "id" = .ok n)
    (name : r.getAs String "name" = .ok s) (email : r.getAs (Option String) "email" = .ok e) :
    ofRowJson r = .ok ⟨n,s,e⟩ := by
  obtain ⟨v,member,taken⟩ := Row.exists_member once id
  obtain ⟨w,text,spelled⟩ := Row.exists_member once name
  obtain ⟨x,last,optional⟩ := Row.exists_member once email
  refine ofRowJson_ok_iff.mpr ⟨⟨_,member,readId_toJson taken⟩,⟨_,text,readText_toJson spelled⟩,?_⟩
  rw [last]
  exact readOptional_toJson optional

/-- Columns that no field is read from are passed over, also where JSON does not have their kind. -/
theorem ofRowJson_of_getAs_foreign :
    let r := Row.ofFields [("photo",.bytes [255,216]),("email",.null),
      ("score",.float ⟨0x7FF8000000000000⟩),("id",.int (-9223372036854775808)),
      ("balance",.decimal .zero),("name",.text "Ada")]
    r.columns.Nodup ∧ r.getAs Int64 "id" = .ok (-9223372036854775808) ∧
      r.getAs String "name" = .ok "Ada" ∧ r.getAs (Option String) "email" = .ok none ∧
      ofRowJson r = .ok ⟨-9223372036854775808,"Ada",none⟩ := by
  intro r
  have once : r.columns.Nodup := by decide
  exact ⟨once,rfl,rfl,rfl,ofRowJson_of_getAs once rfl rfl rfl⟩

end User
end FluentSql

import FluentSql.Proofs.Statement.Draft

/-! Where the texts of the caller in a laid out statement come from: each was handed over in one
of the calls, or is a column of a record. -/
namespace FluentSql
open Layout

private theorem conjunct_writings {c : Clause} {a : Asked} (asked : c.conjunct? = some a) :
    ∀ text ∈ writings a.layout, text ∈ c.texts := by
  cases c with
  | condition column operator value =>
    cases asked
    simp [Asked.layout,Clause.texts,Stretch.writing?]
  | membership column values =>
    rw [Clause.conjunct?] at asked
    split at asked
    · cases asked
    · cases asked
      simp [Asked.layout,Clause.texts,Stretch.writing?]
  | raw sql =>
    cases asked
    simp [Asked.layout,Clause.texts,Stretch.writing?]
  | _ => cases asked

private theorem disjunct_writings {c : Clause} {a : Asked} (asked : c.disjunct? = some a) :
    ∀ text ∈ writings a.layout, text ∈ c.texts := by
  cases c with
  | alternative column operator value =>
    cases asked
    simp [Asked.layout,Clause.texts,Stretch.writing?]
  | _ => cases asked

private theorem join_writings {c : Clause} {j : Join} (asked : c.join? = some j) :
    ∀ text ∈ writings j.layout, text ∈ c.texts := by
  cases c with
  | join kind name on =>
    cases asked
    cases kind <;> simp [Join.layout,Clause.texts,Stretch.writing?]
  | _ => cases asked

private theorem table_writings {c : Clause} {name : String} (asked : c.table? = some name) :
    ∀ text ∈ writings [.written name], text ∈ c.texts := by
  cases c with
  | table name =>
    cases asked
    simp [Clause.texts,Stretch.writing?]
  | _ => cases asked

private theorem groupBy_writings {c : Clause} {column : String}
    (asked : c.groupBy? = some column) :
    ∀ text ∈ writings [.fixed " GROUP BY ",.written column], text ∈ c.texts := by
  cases c with
  | groupBy column =>
    cases asked
    simp [Clause.texts,Stretch.writing?]
  | _ => cases asked

private theorem orderBy_writings {c : Clause} {o : Order} (asked : c.orderBy? = some o) :
    ∀ text ∈ writings (.fixed " ORDER BY " :: o.layout), text ∈ c.texts := by
  cases c with
  | orderBy column direction =>
    cases asked
    simp [Order.layout,Clause.texts,Stretch.writing?]
  | _ => cases asked

namespace Draft

variable {calls : List Clause} {text : String}

private theorem writings_whereLayout (member : text ∈ writings (ofClauses calls).whereLayout) :
    ∃ c ∈ calls, text ∈ c.texts := by
  rw [writings,filterMap_whereLayout _ (fun _ => rfl),List.mem_flatMap] at member
  obtain ⟨a,asked,inside⟩ := member
  rcases List.mem_append.mp asked with conjunct | disjunct
  · obtain ⟨c,called,found⟩ := List.mem_filterMap.mp conjunct
    exact ⟨c,called,conjunct_writings found text inside⟩
  · obtain ⟨c,called,found⟩ := List.mem_filterMap.mp disjunct
    exact ⟨c,called,disjunct_writings found text inside⟩

private theorem called_of_last {α : Type} {f : Clause → Option α} {x : α}
    (last : (calls.filterMap f).getLast? = some x) : ∃ c ∈ calls, f c = some x :=
  List.mem_filterMap.mp (List.mem_of_getLast? last)

/-- A slot holds what the last call for it wrote. -/
private theorem writings_slot {α : Type} {f : Clause → Option α} {shape : α → Layout}
    (own : ∀ {c : Clause} {x : α}, f c = some x → ∀ text ∈ writings (shape x), text ∈ c.texts)
    (member : text ∈ writings ((calls.filterMap f).getLast?.elim [] shape)) :
    ∃ c ∈ calls, text ∈ c.texts := by
  cases last : (calls.filterMap f).getLast? with
  | none =>
    rw [last] at member
    cases member
  | some x =>
    rw [last] at member
    obtain ⟨c,called,asked⟩ := called_of_last last
    exact ⟨c,called,own asked text member⟩

private theorem writings_selection (member : text ∈ writings (ofClauses calls).selection) :
    ∃ c ∈ calls, text ∈ c.texts := by
  cases last : (calls.filterMap Clause.columns?).getLast? with
  | none => simp [selection,ofClauses,last,Stretch.writing?] at member
  | some names =>
    obtain ⟨c,called,asked⟩ := called_of_last last
    have inside : text ∈ names := by
      rw [selection,ofClauses,last,Option.getD_some] at member
      split at member
      · simp [Stretch.writing?] at member
      · simpa [writings_separated,List.flatMap_map,Stretch.writing?] using member
    refine ⟨c,called,?_⟩
    cases c <;> cases asked
    exact inside

private theorem writings_joinsLayout (member : text ∈ writings (ofClauses calls).joinsLayout) :
    ∃ c ∈ calls, text ∈ c.texts := by
  rw [joinsLayout,writings,List.filterMap_flatMap,List.mem_flatMap] at member
  obtain ⟨j,asked,inside⟩ := member
  obtain ⟨c,called,found⟩ := List.mem_filterMap.mp asked
  exact ⟨c,called,join_writings found text inside⟩

private theorem writings_select (member : text ∈ writings (ofClauses calls).select) :
    ∃ c ∈ calls, text ∈ c.texts := by
  have noLimit : writings (ofClauses calls).limitLayout = [] := by
    rw [limitLayout]
    cases (ofClauses calls).limit <;> rfl
  simp only [select,writings_append,writings_cons,noLimit,List.append_nil,List.mem_append]
    at member
  rcases member with ((((columns | fixed | table) | joins) | conditions) | groupBy) | orderBy
  · exact writings_selection columns
  · cases fixed
  · exact writings_slot table_writings table
  · exact writings_joinsLayout joins
  · exact writings_whereLayout conditions
  · exact writings_slot groupBy_writings groupBy
  · exact writings_slot orderBy_writings orderBy

private theorem writings_delete (member : text ∈ writings (ofClauses calls).delete) :
    ∃ c ∈ calls, text ∈ c.texts := by
  simp only [delete,writings_append,writings_cons,List.mem_append] at member
  rcases member with (fixed | table) | conditions
  · cases fixed
  · exact writings_slot table_writings table
  · exact writings_whereLayout conditions

private theorem writings_insert {rows : List Record}
    (member : text ∈ writings ((ofClauses calls).insert rows)) :
    (∃ c ∈ calls, text ∈ c.texts) ∨ ∃ row ∈ rows, text ∈ row.columns := by
  have noValues : writings (separated ", "
      (rows.map fun row => enclosed (ofValues row.values))) = [] := by
    simp [writings_separated,List.flatMap_map]
  simp only [insert,writings_append,writings_cons,noValues,List.mem_append] at member
  rcases member with ((fixed | table) | fixed | columns) | fixed | none
  · cases fixed
  · exact .inl (writings_slot table_writings table)
  · cases fixed
  · cases rows with
    | nil => cases columns
    | cons first rest =>
      refine .inr ⟨first,by simp,?_⟩
      simpa [writings_separated,List.flatMap_map,Stretch.writing?] using columns
  · cases fixed
  · cases none

private theorem writings_update {row : Record}
    (member : text ∈ writings ((ofClauses calls).update row)) :
    (∃ c ∈ calls, text ∈ c.texts) ∨ text ∈ row.columns := by
  simp only [update,writings_append,writings_cons,List.mem_append] at member
  rcases member with ((fixed | table) | fixed | sets) | conditions
  · cases fixed
  · exact .inl (writings_slot table_writings table)
  · cases fixed
  · right
    rw [writings_separated,List.flatMap_map,List.mem_flatMap] at sets
    obtain ⟨field,inside,same⟩ := sets
    have same : text = field.1 := by simpa [assignment,Stretch.writing?] using same
    rw [same]
    exact List.mem_map_of_mem inside
  · exact .inl (writings_whereLayout conditions)

/-- What is rendered was handed over in a call or with a record. -/
theorem mem_texts_of_mem_writings {r : Request}
    (member : text ∈ writings ((ofClauses calls).layout r)) :
    (∃ c ∈ calls, text ∈ c.texts) ∨ ∃ row ∈ r.records, text ∈ row.columns := by
  cases r with
  | select => exact .inl (writings_select member)
  | insert row => exact writings_insert member
  | insertMany rows => exact writings_insert member
  | update row =>
    rcases writings_update member with called | column
    · exact .inl called
    · exact .inr ⟨row,by simp [Request.records],column⟩
  | delete => exact .inl (writings_delete member)

end Draft
end FluentSql

import FluentSql.Proofs.Statement.Matching

/-! A state that matches a draft renders to the statement that the draft lays out, text and
parameters alike. -/
namespace FluentSql.Draft.Matches

variable {d : Draft} {q : Pending}

private theorem isEmpty_eq {α β : Type} {related : α → β → Prop} {xs : List α} {ys : List β}
    (all : List.Forall₂ related xs ys) : ys.isEmpty = xs.isEmpty := by
  cases all <;> rfl

private theorem conditionCount_eq (m : d.Matches q) : q.conditionCount = d.conditionCount := by
  rw [Pending.conditionCount,conditionCount,m.conditions.length_eq,m.alternatives.length_eq]

private theorem conditionText_eq (m : d.Matches q) {a : Asked} {c : Condition}
    (held : a.Held q.parameters c) : q.conditionText c = Layout.sql (d.conditionLayout a) := by
  rw [Pending.conditionText,conditionLayout,held.raw,held.sql,m.conditionCount_eq]
  split
  · rw [Layout.sql_enclosed]
  · rfl

private theorem map_conditionText (m : d.Matches q) {asked : List Asked}
    {conditions : List Condition}
    (held : List.Forall₂ (Asked.Held q.parameters) asked conditions) :
    conditions.map q.conditionText = (asked.map d.conditionLayout).map Layout.sql := by
  induction held with
  | nil => rfl
  | cons head _ ih => rw [List.map_cons,List.map_cons,List.map_cons,m.conditionText_eq head,ih]

theorem conjunctionText_eq (m : d.Matches q) :
    q.conjunctionText = Layout.sql d.conjunction := by
  have parts := m.map_conditionText m.conditions
  rw [Pending.conjunctionText,conjunction,parts,isEmpty_eq m.alternatives,← m.conditions.length_eq]
  split
  · rw [Layout.sql_enclosed,Layout.sql_separated]
  · rw [Layout.sql_separated]

theorem disjunctionText_eq (m : d.Matches q) :
    q.disjunctionText = Layout.sql d.disjunction := by
  rw [Pending.disjunctionText,disjunction,m.map_conditionText m.alternatives,
    Layout.sql_separated]

theorem whereText_eq (m : d.Matches q) : q.whereText = Layout.sql d.whereLayout := by
  rw [Pending.whereText,whereLayout,isEmpty_eq m.conditions,isEmpty_eq m.alternatives,
    m.conjunctionText_eq,m.disjunctionText_eq]
  cases d.conjuncts.isEmpty <;> cases d.disjuncts.isEmpty <;>
    simp [Stretch.sql,String.append_assoc]

theorem whereParameters_eq (m : d.Matches q) :
    q.whereParameters = Layout.values d.whereLayout := by
  have conditions := flatMap_values_of_held m.conditions
  have alternatives := flatMap_values_of_held m.alternatives
  rw [Layout.values,filterMap_whereLayout _ (fun _ => rfl),List.flatMap_append]
  exact congrArg₂ (· ++ ·) conditions alternatives

private theorem joinsText_eq (m : d.Matches q) : q.joinsText = Layout.sql d.joinsLayout := by
  rw [Pending.joinsText,joinsLayout,m.joins]
  induction d.joins with
  | nil => simp
  | cons j rest ih => simpa [Stretch.sql,String.append_assoc] using ih

private theorem values_joinsLayout (d : Draft) : Layout.values d.joinsLayout = [] := by
  have alone (j : Join) : Layout.values j.layout = [] := by
    cases found : j.kind <;> simp [Join.layout,found,Stretch.value?]
  rw [joinsLayout]
  induction d.joins with
  | nil => rfl
  | cons j rest ih => simp [ih,alone,Stretch.value?]

private theorem tableLayout_eq (m : d.Matches q) {name : String}
    (named : q.Names name) : d.tableLayout = [.written name] := by
  rw [tableLayout,← m.table,named.1,Option.elim_some]

private theorem columnsText_eq (m : d.Matches q) :
    "SELECT " ++ q.columnsText = Layout.sql d.selection := by
  rw [Pending.columnsText,selection,m.columns]
  split
  · rfl
  · simp [Layout.sql_separated,Stretch.sql,Function.comp_def]

private theorem groupByText_eq (m : d.Matches q) :
    q.groupByText = Layout.sql d.groupByLayout := by
  rw [Pending.groupByText,groupByLayout,m.groupBy]
  cases d.groupBy <;> simp [Stretch.sql]

private theorem orderByText_eq (m : d.Matches q) :
    q.orderByText = Layout.sql d.orderByLayout := by
  rw [Pending.orderByText,orderByLayout,m.orderBy]
  cases d.orderBy <;> simp [Stretch.sql]

private theorem limitText_eq (m : d.Matches q) : q.limitText = Layout.sql d.limitLayout := by
  rw [Pending.limitText,limitLayout,m.limit]
  cases d.limit <;> simp [Stretch.sql]

private theorem values_selection (d : Draft) : Layout.values d.selection = [] := by
  rw [selection]
  split
  · rfl
  · simp [Layout.values_separated,Stretch.value?,List.flatMap_map]

private theorem values_slots (d : Draft) :
    Layout.values d.groupByLayout = [] ∧ Layout.values d.orderByLayout = [] ∧
      Layout.values d.limitLayout = [] := by
  rw [groupByLayout,orderByLayout,limitLayout]
  refine ⟨?_,?_,?_⟩
  · cases d.groupBy <;> rfl
  · cases d.orderBy <;> rfl
  · cases d.limit <;> rfl

theorem toSelect_eq (m : d.Matches q) {s : Statement} (ok : q.toSelect = .ok s) :
    s = ⟨.select,Layout.sql d.select,Layout.values d.select⟩ := by
  obtain ⟨name,table,rfl⟩ := Pending.toSelect_ok_iff.mp ok
  obtain ⟨noGroup,noOrder,noLimit⟩ := values_slots d
  rw [m.columnsText_eq,m.joinsText_eq,m.whereText_eq,m.groupByText_eq,m.orderByText_eq,
    m.limitText_eq,m.whereParameters_eq,select,m.tableLayout_eq table]
  simp [Stretch.sql,Stretch.value?,String.append_assoc,values_selection,noGroup,noOrder,noLimit,
    values_joinsLayout]

theorem toDelete_eq (m : d.Matches q) {s : Statement} (ok : q.toDelete = .ok s) :
    s = ⟨.delete,Layout.sql d.delete,Layout.values d.delete⟩ := by
  obtain ⟨name,table,rfl⟩ := Pending.toDelete_ok_iff.mp ok
  rw [m.whereText_eq,m.whereParameters_eq,delete,m.tableLayout_eq table]
  simp [Stretch.sql,Stretch.value?,String.append_assoc]

theorem toUpdate_eq (m : d.Matches q) {row : Record} {s : Statement}
    (ok : q.toUpdate row = .ok s) :
    s = ⟨.update,Layout.sql (d.update row),Layout.values (d.update row)⟩ := by
  obtain ⟨_,name,table,rfl⟩ := Pending.toUpdate_ok_iff.mp ok
  have text : Layout.sql (Layout.separated ", " (row.fields.map assignment)) =
      ", ".intercalate (row.columns.map (· ++ " = ?")) := by
    simp [assignment,Layout.sql_separated,Function.comp_def,Record.columns,Stretch.sql]
  have values : Layout.values (Layout.separated ", " (row.fields.map assignment)) =
      row.values := by
    rw [Layout.values_separated,List.flatMap_map,Record.values,List.map_eq_flatMap]
    simp [assignment,Stretch.value?]
  rw [← text,← values,m.whereText_eq,m.whereParameters_eq,update,m.tableLayout_eq table]
  simp [Stretch.sql,Stretch.value?,String.append_assoc]

private theorem map_group_eq {rows : List Record} {first : Record}
    (same : ∀ row ∈ rows, row.columns = first.columns) :
    rows.map (fun row => Layout.sql (Layout.enclosed (Layout.ofValues row.values))) =
      List.replicate rows.length ("(" ++ placeholders first.size ++ ")") := by
  rw [List.map_eq_replicate_iff]
  intro row member
  have size : row.values.length = first.size := by
    rw [row.length_values,same row member,first.size_eq]
  rw [Layout.sql_enclosed,sql_ofValues,size]

theorem toInsertMany_eq (m : d.Matches q) {rows : List Record} {s : Statement}
    (ok : q.toInsertMany rows = .ok s) :
    s = ⟨.insert,Layout.sql (d.insert rows),Layout.values (d.insert rows)⟩ := by
  obtain ⟨name,required,rendered⟩ := (Traversal.bind_ok_iff ..).mp ok
  have table := Pending.requireTable_ok_iff.mp required
  split at rendered
  · cases rendered
  · rename_i first rest
    split at rendered
    · cases rendered
    · split at rendered
      · cases rendered
      · rename_i none
        cases rendered
        have columns : ", ".intercalate first.columns =
            Layout.sql (Layout.separated ", " (first.columns.map ([.written ·]))) := by
          simp [Layout.sql_separated,Function.comp_def,Stretch.sql]
        have groups := map_group_eq (Record.findIdx?_sameColumns_eq_none_iff.mp none)
        have values : Layout.values (Layout.separated ", " (first.columns.map ([.written ·]))) =
            [] := by
          simp [Layout.values_separated,List.flatMap_map,Stretch.value?]
        rw [columns,← groups,insert,m.tableLayout_eq table]
        simp [Layout.sql_separated,Layout.values_separated,List.flatMap_map,Function.comp_def,
          values,Stretch.sql,Stretch.value?,String.append_assoc]

theorem render_eq (m : d.Matches q) {r : Request} {s : Statement} (ok : r.render q = .ok s) :
    s = ⟨r.kind,Layout.sql (d.layout r),Layout.values (d.layout r)⟩ := by
  cases r with
  | select => exact m.toSelect_eq ok
  | insert row => exact m.toInsertMany_eq ok
  | insertMany rows => exact m.toInsertMany_eq ok
  | update row => exact m.toUpdate_eq ok
  | delete => exact m.toDelete_eq ok

end FluentSql.Draft.Matches

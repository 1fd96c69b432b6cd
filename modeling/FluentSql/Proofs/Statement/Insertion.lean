import FluentSql.Proofs.Record.History
import FluentSql.Proofs.Statement.Request

/-! Statements that insert rows. Their columns, their groups of question marks and their parameters
are made apart from each other and fit together: every row fills one group, column by column. -/
namespace FluentSql

section Cells

variable {α β : Type} {f : α → List β} {n : ℕ} {items : List α}

theorem length_flatMap_of_length (each : ∀ a ∈ items, (f a).length = n) :
    (items.flatMap f).length = items.length * n := by
  rw [List.length_flatMap,List.map_congr_left each,List.map_const',List.sum_replicate_nat]

/-- Rows of one length, one behind the other. -/
theorem getElem?_flatMap_of_length (each : ∀ a ∈ items, (f a).length = n) {i j : ℕ} {a : α}
    (item : items[i]? = some a) (inside : j < n) : (items.flatMap f)[i * n + j]? = (f a)[j]? := by
  induction items generalizing i with
  | nil => cases item
  | cons first rest ih =>
    obtain ⟨length,others⟩ := List.forall_mem_cons.mp each
    rw [List.flatMap_cons]
    cases i with
    | zero =>
      cases item
      rw [Nat.zero_mul,Nat.zero_add,List.getElem?_append_left (by omega)]
    | succ i =>
      have later : (i + 1) * n + j - n = i * n + j := by
        rw [Nat.succ_mul]
        omega
      have beyond : n ≤ (i + 1) * n + j := by
        rw [Nat.succ_mul]
        omega
      rw [List.getElem?_append_right (by omega),length,later]
      exact ih others item

end Cells

namespace Record

/-- The value in the place of a column is the value of that column. -/
theorem exists_value {r : Record} {i : ℕ} {column : String} (place : r.columns[i]? = some column) :
    ∃ v, r.values[i]? = some v ∧ r.get? column = some v := by
  rw [columns,List.getElem?_map,Option.map_eq_some_iff] at place
  obtain ⟨field,found,rfl⟩ := place
  refine ⟨field.2,?_,get?_of_mem (List.mem_of_getElem? found)⟩
  rw [values,List.getElem?_map,found,Option.map_some]

end Record

namespace Pending

/-- One group of question marks for every row, one question mark for every column. -/
def insertText (table : String) (columns : List String) (rows : ℕ) : String :=
  let group := "(" ++ ", ".intercalate (List.replicate columns.length "?") ++ ")"
  "INSERT INTO " ++ table ++ " (" ++ ", ".intercalate columns ++ ") VALUES " ++
    ", ".intercalate (List.replicate rows group)

/-- The first row whose columns are not those of the row in front. -/
def Stray (first : Record) (rows : List Record) (i : ℕ) : Prop :=
  (∃ row, rows[i]? = some row ∧ row.columns ≠ first.columns) ∧
    ∀ j < i, ∀ row, rows[j]? = some row → row.columns = first.columns

theorem findIdx?_eq_some_iff_stray {first : Record} {rows : List Record} {i : ℕ} :
    rows.findIdx? (!·.sameColumns first) = some i ↔ Stray first rows i := by
  have differs (row : Record) :
      (!row.sameColumns first) = true ↔ row.columns ≠ first.columns := by
    rw [Bool.not_eq_true',← Bool.not_eq_true,Record.sameColumns_iff]
  rw [List.findIdx?_eq_some_iff_getElem,Stray]
  simp only [differs,not_not]
  constructor
  · rintro ⟨inside,other,same⟩
    refine ⟨⟨_,List.getElem?_eq_getElem inside,other⟩,fun j earlier row place => ?_⟩
    obtain ⟨_,rfl⟩ := List.getElem?_eq_some_iff.mp place
    exact same j earlier
  · rintro ⟨⟨row,place,other⟩,same⟩
    obtain ⟨inside,rfl⟩ := List.getElem?_eq_some_iff.mp place
    exact ⟨inside,other,fun j earlier => same j earlier _ (List.getElem?_eq_getElem _)⟩

/-- All that inserting rows can come to. -/
inductive Insertion (q : Pending) : List Record → Except RenderError Statement → Prop
  | unnamed {rows : List Record} (unnamed : ∀ table, ¬ q.Names table) :
    Insertion q rows (.error .noTable)
  | noRows {table : String} (named : q.Names table) : Insertion q [] (.error .noRows)
  | noColumns {table : String} {first : Record} {rest : List Record} (named : q.Names table)
    (none : first.columns = []) : Insertion q (first :: rest) (.error .noColumns)
  | mismatch {table : String} {first : Record} {rest : List Record} {i : ℕ}
    (named : q.Names table) (some : first.columns ≠ []) (stray : Stray first (first :: rest) i) :
    Insertion q (first :: rest) (.error (.columnsDiffer i first.columns))
  | laid {table : String} {first : Record} {rest : List Record} (named : q.Names table)
    (some : first.columns ≠ []) (same : ∀ row ∈ first :: rest, row.columns = first.columns) :
    Insertion q (first :: rest) (.ok ⟨.insert,insertText table first.columns (rest.length + 1),
      (first :: rest).flatMap Record.values⟩)

theorem toInsertMany_insertion (q : Pending) (rows : List Record) :
    q.Insertion rows (q.toInsertMany rows) := by
  obtain ⟨table,named,required⟩ | ⟨unnamed,required⟩ := q.requireTable_cases
  · rw [toInsertMany,required]
    cases rows with
    | nil => exact .noRows named
    | cons first rest =>
      change q.Insertion _ (if first.isEmpty then _ else _)
      split
      next none => exact .noColumns named (first.isEmpty_iff.mp none)
      next some =>
        have some := mt first.isEmpty_iff.mpr some
        split
        next i found => exact .mismatch named some (findIdx?_eq_some_iff_stray.mp found)
        next none =>
          have same := Record.findIdx?_sameColumns_eq_none_iff.mp none
          rw [first.size_eq]
          exact .laid named some same
  · rw [toInsertMany,required]
    exact .unnamed unnamed

theorem exists_toInsertMany_iff {q : Pending} {rows : List Record} :
    (∃ s, q.toInsertMany rows = .ok s) ↔ (∃ table, q.Names table) ∧
      ∃ first ∈ rows.head?, first.columns ≠ [] ∧ ∀ row ∈ rows, row.columns = first.columns := by
  have insertion := q.toInsertMany_insertion rows
  generalize q.toInsertMany rows = result at insertion ⊢
  cases insertion with
  | unnamed unnamed => simp [unnamed]
  | noRows named => simp
  | noColumns named none => simp [none]
  | mismatch named some stray =>
    obtain ⟨⟨row,place,other⟩,_⟩ := stray
    refine iff_of_false (fun ⟨s,ok⟩ => nomatch ok) ?_
    rintro ⟨_,_,⟨⟩,_,same⟩
    exact other (same row (List.mem_of_getElem? place))
  | laid named some same => exact iff_of_true ⟨_,rfl⟩ ⟨⟨_,named⟩,_,rfl,some,same⟩

/-- The statement is a table of the values: a row for each record, under the columns of all. -/
structure Tabulates (rows : List Record) (s : Statement) (table : String)
    (columns : List String) : Prop where
  kind : s.kind = .insert
  sql : s.sql = insertText table columns rows.length
  once : columns.Nodup
  some : columns ≠ []
  each : ∀ row ∈ rows, row.columns = columns
  count : s.parameters.length = rows.length * columns.length
  cell : ∀ i row j column, rows[i]? = .some row → columns[j]? = .some column →
    ∃ v, row.get? column = .some v ∧ s.parameters[i * columns.length + j]? = .some v

theorem tabulates_of_toInsertMany {q : Pending} {rows : List Record} {s : Statement}
    (ok : q.toInsertMany rows = .ok s) : ∃ table columns, q.Names table ∧
      Tabulates rows s table columns := by
  have insertion := q.toInsertMany_insertion rows
  rw [ok] at insertion
  cases insertion with
  | @laid table first rest named some same =>
    have lengths : ∀ row ∈ first :: rest, row.values.length = first.columns.length :=
      fun row member => by rw [row.length_values,same row member]
    refine ⟨table,first.columns,named,rfl,rfl,first.nodup,some,same,
      length_flatMap_of_length lengths,fun i row j column atRow atColumn => ?_⟩
    obtain ⟨inside,_⟩ := List.getElem?_eq_some_iff.mp atColumn
    rw [← same row (List.mem_of_getElem? atRow)] at atColumn
    obtain ⟨v,value,found⟩ := Record.exists_value atColumn
    exact ⟨v,found,(getElem?_flatMap_of_length lengths atRow inside).trans value⟩

theorem Stray.unique {first : Record} {rows : List Record} {i j : ℕ} (stray : Stray first rows i)
    (other : Stray first rows j) : i = j :=
  Option.some.inj <| (findIdx?_eq_some_iff_stray.mpr stray).symm.trans <|
    findIdx?_eq_some_iff_stray.mpr other

theorem toInsertMany_of_stray {q : Pending} {table : String} {first : Record}
    {rest : List Record} {i : ℕ} (named : q.Names table) (some : first.columns ≠ [])
    (stray : Stray first (first :: rest) i) :
    q.toInsertMany (first :: rest) = .error (.columnsDiffer i first.columns) := by
  have insertion := q.toInsertMany_insertion (first :: rest)
  generalize q.toInsertMany (first :: rest) = result at insertion ⊢
  cases insertion with
  | unnamed unnamed => exact absurd named (unnamed table)
  | noColumns _ none => exact absurd none some
  | mismatch _ _ found => rw [stray.unique found]
  | laid _ _ same =>
    obtain ⟨⟨row,place,other⟩,_⟩ := stray
    exact absurd (same row (List.mem_of_getElem? place)) other

theorem toInsertMany_congr {q other : Pending} (same : other.table = q.table)
    (rows : List Record) : other.toInsertMany rows = q.toInsertMany rows := by
  rw [toInsertMany,toInsertMany,requireTable,requireTable,same]

/-- What it takes to insert some records, and what comes of it. -/
structure Inserts (q : Pending) (rows : List Record) : Prop where
  renders : (∃ s, q.toInsertMany rows = .ok s) ↔ (∃ table, q.Names table) ∧
    ∃ first ∈ rows.head?, first.columns ≠ [] ∧ ∀ row ∈ rows, row.columns = first.columns
  tabulates : ∀ s, q.toInsertMany rows = .ok s →
    ∃ table columns, q.Names table ∧ Tabulates rows s table columns
  /-- Nothing but the table counts of what else has been asked for. -/
  unrelated : ∀ other : Pending, other.table = q.table →
    other.toInsertMany rows = q.toInsertMany rows
  /-- Of several records that do not match the first is named. -/
  mismatch : ∀ table, ∀ first ∈ rows.head?, ∀ i, q.Names table → first.columns ≠ [] →
    Stray first rows i → (q.toInsertMany rows).mapError RenderError.toFailure =
      .error (.invalidArgument ("row " ++ toString i ++ " does not match the columns of row 0 (" ++
        ", ".intercalate first.columns ++ ")"))

theorem toInsertMany_inserts (q : Pending) (rows : List Record) : q.Inserts rows where
  renders := exists_toInsertMany_iff
  tabulates _ := tabulates_of_toInsertMany
  unrelated _ same := toInsertMany_congr same rows
  mismatch table first head i named some stray := by
    cases rows with
    | nil => cases head
    | cons _ rest =>
      cases head
      rw [toInsertMany_of_stray named some stray]
      rfl

example :
    let row (name : String) (age : Int64) : Record :=
      .ofAssignments [("name",.text name),("age",.int age)]
    ((empty.setTable "users").toInsertMany [row "ada" 36,row "bob" 41]).toOption =
      some ⟨.insert,"INSERT INTO users (name, age) VALUES (?, ?), (?, ?)",
        [.text "ada",.int 36,.text "bob",.int 41]⟩ := by
  decide +kernel

end Pending
end FluentSql

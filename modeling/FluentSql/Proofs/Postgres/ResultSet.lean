import FluentSql.Proofs.Builder.Atomicity
import FluentSql.Proofs.Postgres.Completion

/-! Result sets. The rows of a server become rows of values, all of them or none: the first cell
that cannot be decoded, row by row, is the failure of the whole. No operation on a server ever
fails for the shape of an answer. -/
namespace FluentSql

def Value.int? : Value → Option Int64
  | .int n => some n
  | _ => none

namespace Postgres
open Wire

/-- A cell and the column it belongs to. -/
structure Place where
  index : Nat
  column : Column
  cell : Cell

namespace Place

def value (p : Place) : Except CellError Value := decode p.column.type p.cell

def read (p : Place) : Except Failure Value := Server.decodeCell p.index p.column p.cell

theorem read_error_iff (p : Place) (f : Failure) :
    p.read = .error f ↔ ∃ e, p.value = .error e ∧ f = .decode p.column.name (e.message p.index) := by
  rw [read,Server.decodeCell,value]
  cases decode p.column.type p.cell with
  | ok v => simp [Except.mapError]
  | error e => simp [Except.mapError,eq_comm]

theorem read_ok_iff (p : Place) (v : Value) : p.read = .ok v ↔ p.value = .ok v := by
  rw [read,Server.decodeCell,value]
  cases decode p.column.type p.cell <;> simp [Except.mapError]

end Place

/-- The cells of a row under their columns; one that did not come is null. -/
def placesFrom (index : Nat) (columns : List Column) (cells : List Cell) : List Place :=
  columns.mapIdx fun i column => ⟨index + i,column,cells[i]?.getD none⟩

theorem placesFrom_cons (index : Nat) (column : Column) (columns : List Column)
    (cells : List Cell) :
    placesFrom index (column :: columns) cells =
      ⟨index,column,cells.head?.getD none⟩ :: placesFrom (index + 1) columns (cells.drop 1) := by
  rw [placesFrom,List.mapIdx_cons,List.head?_eq_getElem?,placesFrom]
  simp [Nat.add_assoc,Nat.add_comm 1]

namespace Server

variable {server : Server} {f : Failure} {cells : List Cell} {values : List Value} {row : Row}

/-- All cells of the result, row by row. -/
def places (server : Server) : List Place := server.rows.flatMap (placesFrom 0 server.columns)

/-- The row has the columns of the server, and under each of them what its cell is decoded to. -/
structure Shows (server : Server) (cells : List Cell) (row : Row) : Prop where
  columns : row.columns = server.columns.map (·.name)
  values : List.Forall₂ (fun p v => p.value = .ok v) (placesFrom 0 server.columns cells) row.values

theorem decodeFrom_eq (index : Nat) (columns : List Column) (cells : List Cell) :
    decodeFrom index columns cells = (placesFrom index columns cells).mapM Place.read := by
  induction columns generalizing index cells with
  | nil => rfl
  | cons column columns ih =>
    rw [placesFrom_cons,List.mapM_cons,← ih,decodeFrom,Place.read]
    cases decodeCell index column (cells.head?.getD none) with
    | error f => rfl
    | ok v => cases decodeFrom (index + 1) columns (cells.drop 1) <;> rfl

/-- There are as many values as columns, so that a row is never refused for its size. -/
theorem decodeRow_of_decodeFrom (decoded : decodeFrom 0 server.columns cells = .ok values) :
    ∃ row, server.decodeRow cells = .ok row ∧ row.columns = server.columns.map (·.name) ∧
      row.values = values := by
  have pairs := decoded
  rw [decodeFrom_eq,Traversal.mapM_ok_iff] at pairs
  have sizes : (server.columns.map (·.name)).length = values.length := by
    rw [List.length_map,← pairs.length_eq,placesFrom,List.length_mapIdx]
  refine ⟨⟨_,values,sizes⟩,?_,rfl,rfl⟩
  rw [decodeRow,decoded]
  exact dif_pos sizes

theorem shows_of_decodeRow (decoded : server.decodeRow cells = .ok row) :
    server.Shows cells row := by
  cases each : decodeFrom 0 server.columns cells with
  | error f =>
    rw [decodeRow,each] at decoded
    cases decoded
  | ok values =>
    obtain ⟨made,same,columns,rfl⟩ := decodeRow_of_decodeFrom each
    cases same.symm.trans decoded
    rw [decodeFrom_eq,Traversal.mapM_ok_iff] at each
    exact ⟨columns,each.imp fun p v => (p.read_ok_iff v).mp⟩

theorem decodeRow_error_iff (cells : List Cell) (f : Failure) :
    server.decodeRow cells = .error f ↔
      (placesFrom 0 server.columns cells).mapM Place.read = .error f := by
  rw [← decodeFrom_eq]
  cases decoded : decodeFrom 0 server.columns cells with
  | error g =>
    rw [decodeRow,decoded]
    simp [Bind.bind,Except.bind]
  | ok values =>
    obtain ⟨row,made,_⟩ := decodeRow_of_decodeFrom decoded
    simp [made]

theorem decodeRows_error_iff (server : Server) (f : Failure) :
    server.rows.mapM server.decodeRow = .error f ↔
      Traversal.FailsFirst Place.read server.places f := by
  rw [← Traversal.mapM_error_iff,places]
  exact Traversal.mapM_error_iff_flatMap _ _ _ _ (fun cells _ f => decodeRow_error_iff cells f) f

theorem shows_of_decodeRows {rows : List Row}
    (decoded : server.rows.mapM server.decodeRow = .ok rows) :
    List.Forall₂ server.Shows server.rows rows :=
  ((Traversal.mapM_ok_iff _ _ _).mp decoded).imp fun _ _ => shows_of_decodeRow

theorem exists_decodeRows (decodable : ∀ p ∈ server.places, ∃ v, p.value = .ok v) :
    ∃ rows, server.rows.mapM server.decodeRow = .ok rows := by
  cases decoded : server.rows.mapM server.decodeRow with
  | ok rows => exact ⟨rows,rfl⟩
  | error f =>
    obtain ⟨before,p,after,split,_,failed⟩ := (decodeRows_error_iff server f).mp decoded
    obtain ⟨e,error,_⟩ := (p.read_error_iff f).mp failed
    obtain ⟨v,ok⟩ := decodable p (by rw [split]; exact List.mem_append_right _ List.mem_cons_self)
    cases ok.symm.trans error

theorem exists_first_undecodable (bad : ∃ p ∈ server.places, ∃ e, p.value = .error e) :
    ∃ before p after e, server.places = before ++ p :: after ∧
      (∀ q ∈ before, ∃ v, q.value = .ok v) ∧ p.value = .error e ∧
      server.rows.mapM server.decodeRow = .error (.decode p.column.name (e.message p.index)) := by
  obtain ⟨p,member,e,error⟩ := bad
  obtain ⟨f,first⟩ := Traversal.exists_failsFirst
    ⟨p,member,_,(p.read_error_iff _).mpr ⟨e,error,rfl⟩⟩
  have failed := (decodeRows_error_iff server f).mpr first
  obtain ⟨before,q,after,split,passes,refused⟩ := first
  obtain ⟨e,error,rfl⟩ := (q.read_error_iff f).mp refused
  refine ⟨before,q,after,e,split,fun r earlier => ?_,error,failed⟩
  obtain ⟨v,ok⟩ := passes r earlier
  exact ⟨v,(r.read_ok_iff v).mp ok⟩

/-- The identifier of an INSERT is read from the first cell that came. -/
theorem insertId_eq (server : Server) :
    server.insertId = match server.places.head? with
      | none => .ok none
      | some p => p.read.map Value.int? := by
  rw [insertId.eq_def,places]
  cases server.rows with
  | nil => rfl
  | cons cells rows =>
    cases columns : server.columns with
    | nil =>
      have none : (cells :: rows).flatMap (placesFrom 0 []) = [] :=
        List.flatMap_eq_nil_iff.mpr fun _ _ => rfl
      rw [none]
      rfl
    | cons column columns =>
      rw [List.flatMap_cons,placesFrom_cons]
      change _ = (decodeCell 0 column (cells.head?.getD none)).map Value.int?
      simp only
      cases decodeCell 0 column (cells.head?.getD none) with
      | error f => rfl
      | ok v => cases v <;> rfl

theorem reply_isRows {config : Config} {kind : Statement.Kind} {reply : Reply}
    (answered : server.reply config kind = .ok reply) : reply.isRows = kind.returnsRows := by
  cases kind with
  | select =>
    obtain ⟨rows,_,rfl⟩ := (Traversal.map_ok_iff _ _ _).mp answered
    rfl
  | insert =>
    rw [Server.reply] at answered
    split at answered
    · obtain ⟨id,_,rfl⟩ := (Traversal.map_ok_iff _ _ _).mp answered
      rfl
    · cases answered
      rfl
  | update =>
    cases answered
    rfl
  | delete =>
    cases answered
    rfl

theorem insertId_error_iff (server : Server) (f : Failure) :
    server.insertId = .error f ↔ ∃ p, server.places.head? = some p ∧ p.read = .error f := by
  rw [insertId_eq]
  cases server.places.head? with
  | none => simp
  | some p => simp [Traversal.map_error_iff]

/-- Where a statement was completed, only a cell can fail. -/
theorem reply_error {config : Config} {kind : Statement.Kind}
    (refused : server.reply config kind = .error f) : ∃ p ∈ server.places, p.read = .error f := by
  cases kind with
  | select =>
    have failed := (Traversal.map_error_iff _ _ _).mp refused
    obtain ⟨before,p,after,split,_,error⟩ := (decodeRows_error_iff server f).mp failed
    exact ⟨p,by rw [split]; exact List.mem_append_right _ List.mem_cons_self,error⟩
  | insert =>
    rw [Server.reply] at refused
    split at refused
    · have failed := (Traversal.map_error_iff _ _ _).mp refused
      obtain ⟨p,first,error⟩ := (insertId_error_iff server f).mp failed
      exact ⟨p,List.mem_of_head? first,error⟩
    · cases refused
  | update => cases refused
  | delete => cases refused

/-- A server never answers in the wrong shape, and its failures do not speak of shapes. -/
theorem execute_shaped (server : Server) (config : Config) (s : Statement) :
    (∀ reply, (config.execute server s).result = .ok reply → reply.isRows = s.kind.returnsRows) ∧
    ∀ f, (config.execute server s).result = .error f → ¬ f.IsUnexpected := by
  obtain ⟨_,result⟩ | ⟨_,f,result,expected⟩ := server.execute_cases config s
  · rw [result]
    refine ⟨fun reply => reply_isRows,fun f refused => ?_⟩
    obtain ⟨p,_,error⟩ := reply_error refused
    obtain ⟨e,_,rfl⟩ := (p.read_error_iff f).mp error
    exact id
  · rw [result]
    refine ⟨nofun,fun g same => ?_⟩
    cases same
    exact expected

theorem shows_of_execute {config : Config} {s : Statement} {rows : List Row}
    (answered : (config.execute server s).result = .ok (.rows rows)) :
    List.Forall₂ server.Shows server.rows rows := by
  obtain ⟨_,result⟩ | ⟨_,f,result,_⟩ := server.execute_cases config s
  · rw [result] at answered
    have select : s.kind = .select := by
      have due : true = s.kind.returnsRows := reply_isRows answered
      cases kind : s.kind with
      | select => rfl
      | _ => rw [kind] at due; cases due
    rw [select] at answered
    obtain ⟨found,decoded,same⟩ := (Traversal.map_ok_iff _ _ _).mp answered
    cases same
    exact shows_of_decodeRows decoded
  · rw [result] at answered
    cases answered

/-- An answer that is always due is handed on as it is. -/
theorem answers_due (server : Server) (config : Config) (s : Statement) :
    server.answers.execute config s >>= Reply.dueTo s.kind = (config.execute server s).result := by
  change (config.execute server s).result >>= _ = _
  cases answer : (config.execute server s).result with
  | error f => rfl
  | ok reply => exact Reply.dueTo_of_fits ((server.execute_shaped config s).1 reply answer)

end Server
end Postgres
end FluentSql

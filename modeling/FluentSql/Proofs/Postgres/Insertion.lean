import FluentSql.Proofs.Postgres.Operations

/-! Inserting on a server. An INSERT that the server completed is reported as such unless the
cell that holds the identifier cannot be decoded. Then it is reported as failed although the rows
are there, and the pending state is kept, so that the next attempt inserts them again. -/
namespace FluentSql
open Postgres

namespace Postgres.Server

/-- Where an INSERT finds its identifier: in the first cell that came, if it asked for one. -/
def idPlace? (server : Server) (config : Config) : Option Place :=
  if config.insertIdColumn.isSome then server.places.head? else none

/-- The identifier is the integer in that cell, if there is one. -/
def identifier? (server : Server) (config : Config) : Option Int64 :=
  (server.idPlace? config).bind fun p => p.value.toOption.bind Value.int?

theorem reply_insert (server : Server) (config : Config) : ∃ affected,
    server.reply config .insert = match server.idPlace? config with
      | none => .ok (.counts none affected)
      | some p => p.read.map fun v => .counts v.int? affected := by
  cases asked : config.insertIdColumn with
  | none => exact ⟨affectedRows server.tag,by rw [reply,idPlace?,asked]; rfl⟩
  | some column =>
    refine ⟨server.rows.length,?_⟩
    rw [reply,asked,idPlace?,asked,Option.isSome_some,if_pos rfl,insertId_eq]
    cases server.places.head? with
    | none => rfl
    | some p =>
      simp only
      cases p.read <;> rfl

end Postgres.Server

namespace Terminal

variable {α : Type} {server : Server} {b : Builder Config} {t : Terminal α}
variable {config : Config} {s : Statement}

theorem unpack_counts (inserts : t.request.kind = .insert) (id : Option Int64) (affected : Nat) :
    t.unpack (.counts id affected) = .ok (.insertId id) := by
  cases t with
  | insert row => rfl
  | insertMany rows => rfl
  | _ => cases inserts

theorem untyped_of_inserts (inserts : t.request.kind = .insert) : t.isTyped = false := by
  cases t with
  | insert row => rfl
  | insertMany rows => rfl
  | _ => cases inserts

theorem pending_of_error {f : Failure} (untyped : t.isTyped = false)
    (error : (t.run server.answers b).result = .error f) :
    (t.run server.answers b).builder.pending = b.pending := by
  obtain ⟨_,_,kept⟩ | ⟨_,_,_,_,_,_,fits,result,_⟩ := run_kept_or_cleared server.answers b t
  · exact kept
  · obtain ⟨outcome,unpacked⟩ := unpack_of_fits untyped fits
    cases error.symm.trans (result.trans unpacked)

/-- What is reported of an INSERT, and what the server made of it. -/
structure Inserted (server : Server) (b : Builder Config) (t : Terminal α) : Prop where
  /-- A completed INSERT succeeds and clears the state, unless its identifier is undecodable. -/
  reported : ∀ config s, b.executor = some config → t.statement b.pending = .ok s →
    server.Completes config s → (∀ p, server.idPlace? config = some p → ∃ v, p.value = .ok v) →
    (t.run server.answers b).result = .ok (.insertId (server.identifier? config)) ∧
      (t.run server.answers b).builder.pending = .empty
  /-- Otherwise it fails and keeps the state, and the next attempt is the same statement. -/
  misreported : ∀ config s p e, b.executor = some config → t.statement b.pending = .ok s →
    server.Completes config s → server.idPlace? config = some p → p.value = .error e →
    (t.run server.answers b).result = .error (.decode p.column.name (e.message p.index)) ∧
      (t.run server.answers b).builder.pending = b.pending ∧
      ∀ answers : Answers Config,
        (t.run answers (t.run server.answers b).builder).calls = [.statement config s]
  /-- Every other failure is one of a statement that the server did not complete. -/
  failed : ∀ f, (t.run server.answers b).result = .error f →
    (t.run server.answers b).builder.pending = b.pending ∧
      ∀ config s, b.executor = some config → t.statement b.pending = .ok s →
        server.Completes config s → ∃ p e, server.idPlace? config = some p ∧ p.value = .error e

theorem reported_of_decodable (inserts : t.request.kind = .insert)
    (connected : b.executor = some config) (rendered : t.statement b.pending = .ok s)
    (completed : server.Completes config s)
    (decodable : ∀ p, server.idPlace? config = some p → ∃ v, p.value = .ok v) :
    (t.run server.answers b).result = .ok (.insertId (server.identifier? config)) ∧
      (t.run server.answers b).builder.pending = .empty := by
  obtain ⟨affected,reply⟩ := server.reply_insert config
  have answered : (config.execute server s).result =
      .ok (.counts (server.identifier? config) affected) := by
    rw [Server.execute_of_completes completed,kind_of_statement rendered,inserts,reply,
      Server.identifier?]
    cases place : server.idPlace? config with
    | none => rfl
    | some p =>
      obtain ⟨v,value⟩ := decodable p place
      change p.read.map _ = .ok (Reply.counts (p.value.toOption.bind Value.int?) affected)
      rw [(p.read_ok_iff v).mpr value,value]
      rfl
  obtain ⟨result,cleared⟩ := run_answered_on connected rendered answered
  exact ⟨by rw [result,unpack_counts inserts],cleared⟩

theorem misreported_of_undecodable {p : Place} {e : Wire.CellError}
    (inserts : t.request.kind = .insert) (connected : b.executor = some config)
    (rendered : t.statement b.pending = .ok s) (completed : server.Completes config s)
    (place : server.idPlace? config = some p) (error : p.value = .error e) :
    (t.run server.answers b).result = .error (.decode p.column.name (e.message p.index)) ∧
      (t.run server.answers b).builder = { b with lastQuery := some s.sql } := by
  obtain ⟨affected,reply⟩ := server.reply_insert config
  refine run_failed_on connected rendered ?_
  rw [Server.execute_of_completes completed,kind_of_statement rendered,inserts,reply,place]
  exact (Traversal.map_error_iff _ _ _).mpr ((p.read_error_iff _).mpr ⟨e,error,rfl⟩)

theorem run_inserted (server : Server) (b : Builder Config) (t : Terminal α)
    (inserts : t.request.kind = .insert) : t.Inserted server b where
  reported := fun config s => reported_of_decodable inserts
  misreported := by
    intro config s p e connected rendered completed place error
    obtain ⟨result,builder⟩ :=
      misreported_of_undecodable inserts connected rendered completed place error
    refine ⟨result,by rw [builder],fun answers => ?_⟩
    rw [builder]
    exact (run_ending answers _ t).calls_eq connected rendered
  failed := by
    intro f error
    refine ⟨pending_of_error (untyped_of_inserts inserts) error,?_⟩
    intro config s connected rendered completed
    have undecodable : ¬ ∀ p, server.idPlace? config = some p → ∃ v, p.value = .ok v := by
      intro decodable
      have reported := reported_of_decodable inserts connected rendered completed decodable
      cases error.symm.trans reported.1
    cases place : server.idPlace? config with
    | none => exact absurd (by simp [place]) undecodable
    | some p =>
      cases value : p.value with
      | error e => exact ⟨p,e,rfl,value⟩
      | ok v => exact absurd (by simp [place,value]) undecodable

/-- A row is inserted under an address as its identifier, for which there is no type of value. -/
theorem run_inserted_address :
    let server : Server := {
      parameterTypes := [.text]
      columns := [⟨"id",.builtin "inet"⟩]
      rows := [[some [2,32,0,4,192,0,2,1]]]
      tag := "INSERT 0 1" }
    let b : Builder Config := { executor := some {}, pending := { table := some "hosts" } }
    let s : Statement := ⟨.insert,"INSERT INTO hosts (name) VALUES (?)",[.text "db1"]⟩
    let host : Record := ⟨[("name",.text "db1")],by decide⟩
    let turn := (Terminal.insert host : Terminal Unit).run server.answers b
    server.Completes {} s ∧
      turn.result = .error (.decode "id" "unsupported column type inet") ∧
      turn.builder.pending = b.pending ∧
      ∀ answers : Answers Config,
        ((Terminal.insert host : Terminal Unit).run answers turn.builder).calls =
          [.statement {} s] := by
  intro server b s host turn
  have completed : server.Completes {} s := by
    refine ⟨⟨[some [100,98,49]],?_⟩,rfl⟩
    simp only [server,s]
    exact List.mem_cons_of_mem _ List.mem_cons_self
  have inserted : (Terminal.insert host : Terminal Unit).Inserted server b :=
    run_inserted server b _ rfl
  obtain ⟨result,kept,again⟩ := inserted.misreported {} s
    ⟨0,⟨"id",.builtin "inet"⟩,some [2,32,0,4,192,0,2,1]⟩ (.unsupported (.builtin "inet"))
    rfl rfl completed rfl rfl
  exact ⟨completed,result,kept,again⟩

end Terminal
end FluentSql

import FluentSql.Proofs.Postgres.ResultSet

/-! Operations that run a statement on a server. An operation never fails for the shape of an
answer, gets one row for every row of the server, and when a cell cannot be decoded it fails for
the first such cell and keeps the pending state. -/
namespace FluentSql.Terminal
open Postgres

variable {α : Type} {server : Server} {b : Builder Config} {t : Terminal α}
variable {config : Config} {s : Statement} {f : Failure}

theorem run_failed_on (connected : b.executor = some config)
    (rendered : t.statement b.pending = .ok s)
    (failed : (config.execute server s).result = .error f) :
    (t.run server.answers b).result = .error f ∧
      (t.run server.answers b).builder = { b with lastQuery := some s.sql } := by
  rw [← server.answers_due] at failed
  rw [run_refused connected rendered failed]
  exact ⟨rfl,rfl⟩

theorem run_answered_on {reply : Reply} (connected : b.executor = some config)
    (rendered : t.statement b.pending = .ok s)
    (answered : (config.execute server s).result = .ok reply) :
    (t.run server.answers b).result = t.unpack reply ∧
      (t.run server.answers b).builder.pending = .empty := by
  have fits := (server.execute_shaped config s).1 reply answered
  rw [kind_of_statement rendered] at fits
  rw [run_answered connected rendered answered fits]
  exact ⟨rfl,rfl⟩

/-- How an operation ends on a server. -/
structure Served (server : Server) (b : Builder Config) (t : Terminal α) : Prop where
  /-- No failure speaks of the shape of an answer. -/
  shaped : t.isTyped = false → ∀ message,
    (t.run server.answers b).result ≠ .error (.unexpectedResult message)
  /-- Where rows are read as another type, only that reading can speak of shapes. -/
  readings : ∀ message, (t.run server.answers b).result = .error (.unexpectedResult message) →
    ∃ rows, List.Forall₂ server.Shows server.rows rows ∧
      t.Unreadable rows (.unexpectedResult message)
  /-- There is one row for each row of the server, in their order. -/
  rows : t = .get → ∀ rows, (t.run server.answers b).result = .ok (.rows rows) →
    List.Forall₂ server.Shows server.rows rows
  /-- Where every cell can be decoded, a completed statement has these rows. -/
  decodable : ∀ config s, b.executor = some config → t.statement b.pending = .ok s →
    s.kind = .select → server.Completes config s →
    (∀ p ∈ server.places, ∃ v, p.value = .ok v) →
    ∃ rows, List.Forall₂ server.Shows server.rows rows ∧
      (t.run server.answers b).result = t.unpack (.rows rows) ∧
      (t.run server.answers b).builder.pending = .empty
  /-- The first cell that cannot be decoded, row by row, is the failure of the whole. -/
  undecodable : ∀ config s, b.executor = some config → t.statement b.pending = .ok s →
    s.kind = .select → server.Completes config s →
    (∃ p ∈ server.places, ∃ e, p.value = .error e) →
    ∃ before p after e, server.places = before ++ p :: after ∧
      (∀ q ∈ before, ∃ v, q.value = .ok v) ∧ p.value = .error e ∧
      (t.run server.answers b).result = .error (.decode p.column.name (e.message p.index)) ∧
      (t.run server.answers b).builder.pending = b.pending

/-- A failure of shape can only come from reading the rows of the server as another type. -/
theorem unreadable_of_unexpected (unexpected : f.IsUnexpected)
    (error : (t.run server.answers b).result = .error f) :
    ∃ rows, List.Forall₂ server.Shows server.rows rows ∧ t.Unreadable rows f := by
  have ending := run_ending server.answers b t
  generalize t.run server.answers b = turn at ending error
  cases ending with
  | unconnected none =>
    cases error
    cases unexpected
  | unrendered connected refused =>
    cases error
    cases unexpected
  | refused connected rendered refused =>
    cases error
    rw [server.answers_due] at refused
    exact absurd unexpected ((server.execute_shaped _ _).2 f refused)
  | answered connected rendered answer fits =>
    rw [kind_of_statement rendered] at fits
    obtain ⟨rows,rfl,unreadable⟩ := (unpack_error_iff f fits).mp error
    exact ⟨rows,Server.shows_of_execute answer,unreadable⟩

theorem shows_of_get (got : t = .get) {rows : List Row}
    (ok : (t.run server.answers b).result = .ok (.rows rows)) :
    List.Forall₂ server.Shows server.rows rows := by
  subst got
  obtain ⟨_,error,_⟩ | ⟨config,s,reply,_,_,answer,_,result,_⟩ :=
    run_kept_or_cleared server.answers b (.get : Terminal α)
  · cases error.symm.trans ok
  · rw [result] at ok
    cases reply with
    | rows found =>
      cases ok
      exact Server.shows_of_execute answer
    | counts id affected => cases ok

theorem run_served (server : Server) (b : Builder Config) (t : Terminal α) :
    t.Served server b where
  shaped := by
    intro untyped message error
    obtain ⟨rows,_,unreadable⟩ := unreadable_of_unexpected (f := .unexpectedResult message)
      True.intro error
    cases t with
    | getAs read => cases untyped
    | firstAs read => cases untyped
    | _ => cases unreadable
  readings := fun message => unreadable_of_unexpected (f := .unexpectedResult message) True.intro
  rows := fun got rows => shows_of_get got
  decodable := by
    intro config s connected rendered select completed decodable
    obtain ⟨rows,decoded⟩ := Server.exists_decodeRows decodable
    have answered : (config.execute server s).result = .ok (.rows rows) := by
      rw [Server.execute_of_completes completed,select,Server.reply,decoded]
      rfl
    exact ⟨rows,Server.shows_of_decodeRows decoded,run_answered_on connected rendered answered⟩
  undecodable := by
    intro config s connected rendered select completed bad
    obtain ⟨before,p,after,e,split,passes,error,undecoded⟩ :=
      Server.exists_first_undecodable bad
    have failed : (config.execute server s).result =
        .error (.decode p.column.name (e.message p.index)) := by
      rw [Server.execute_of_completes completed,select,Server.reply,undecoded]
      rfl
    obtain ⟨result,builder⟩ := run_failed_on connected rendered failed
    exact ⟨before,p,after,e,split,passes,error,result,by rw [builder]⟩

/-- The second row fails in its second column, and the third row in its first. -/
theorem run_served_malformed :
    let server : Server := {
      columns := [⟨"id",.int4⟩,⟨"age",.int2⟩]
      rows := [[some [0,0,0,1],none],[some [0,0,0,2],some [7]],[some [0],none]] }
    let b : Builder Config :=
      { executor := some {}, pending := { table := some "users", limit := some 9 } }
    let turn := (Terminal.first : Terminal Unit).run server.answers b
    turn.result = .error (.decode "age" "error deserializing column 1") ∧
      turn.builder.pending = b.pending := by
  intro server b turn
  have completed : server.Completes {} ⟨.select,"SELECT * FROM users LIMIT 1",[]⟩ :=
    ⟨⟨[],List.mem_cons_of_mem _ List.mem_cons_self⟩,rfl⟩
  have bad : ∃ p ∈ server.places, ∃ e, p.value = .error e :=
    ⟨⟨0,⟨"id",.int4⟩,some [0]⟩,by simp [Server.places,placesFrom,server],.malformed,rfl⟩
  have served : (Terminal.first : Terminal Unit).Served server b := run_served server b .first
  obtain ⟨_,_,_,_,_,_,_,_,kept⟩ :=
    served.undecodable {} ⟨.select,"SELECT * FROM users LIMIT 1",[]⟩ rfl rfl rfl completed bad
  have failed : (Config.execute {} server ⟨.select,"SELECT * FROM users LIMIT 1",[]⟩).result =
      .error (.decode "age" "error deserializing column 1") := rfl
  exact ⟨(run_failed_on rfl rfl failed).1,kept⟩

end FluentSql.Terminal

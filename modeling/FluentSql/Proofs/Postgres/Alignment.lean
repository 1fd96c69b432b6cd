import FluentSql.Postgres.Executor
import FluentSql.Proofs.Postgres.Scan
import FluentSql.Proofs.Statement.Rendering
import FluentSql.Proofs.Statement.Writings

/-! Parameters and placeholders fall into line. Whatever the calls were and in whatever order,
numbering the placeholders of a rendered statement and putting the parameters in gives the text
with every value in its own place, unless the caller wrote placeholders of its own; then the
statement is refused. -/
namespace FluentSql.Postgres
open Layout

namespace Config

variable {config : Config} {s : Statement}

theorem prepare_of_count_eq (numbering : config.numberPlaceholders = true)
    (same : Placeholder.count s.sql = s.parameters.length) :
    config.prepare s = .ok
      (String.ofList ((Placeholder.marks s.sql).flatMap Placeholder.spell) ++
        config.returning s.kind) := by
  rw [prepare,number,if_neg (by simp [numbering]),if_pos same,Placeholder.number_eq]
  rfl

theorem prepare_of_count_ne (numbering : config.numberPlaceholders = true)
    (other : Placeholder.count s.sql ≠ s.parameters.length) :
    ∃ message, config.prepare s = .error (.invalidArgument message) := by
  rw [prepare,number,if_neg (by simp [numbering]),if_neg other]
  exact ⟨_,rfl⟩

end Config

/-- Placeholders and parameters are as many and in the same order, so that each value replaces
its own question mark; with a question mark too many the statement is not sent. -/
theorem prepare_aligned (config : Config) (numbering : config.numberPlaceholders = true)
    (calls : List Clause) (r : Request) (s : Statement)
    (closedCalls : ∀ c ∈ calls, ∀ text ∈ c.texts, Placeholder.Closed text)
    (closedRecords : ∀ row ∈ r.records, ∀ text ∈ row.columns, Placeholder.Closed text)
    (rendered : r.render (Pending.ofClauses calls) = .ok s) :
    let l := (Draft.ofClauses calls).layout r
    let marks := Placeholder.marks s.sql
    s.sql = sql l ∧
    ((∀ text ∈ writings l, Placeholder.count text = 0) →
      config.prepare s = .ok
        (String.ofList (marks.flatMap Placeholder.spell) ++ config.returning s.kind) ∧
      Placeholder.introduced marks = List.range' 1 s.parameters.length ∧
      marks.flatMap (Placeholder.fill s.parameters) = filled l) ∧
    ((∃ text ∈ writings l, Placeholder.count text ≠ 0) →
      ∃ message, config.prepare s = .error (.invalidArgument message) ∧
        ∀ server, config.execute server s = ⟨[],.error (.invalidArgument message)⟩) := by
  intro l marks
  have same := (Draft.matches_ofClauses calls).render_eq rendered
  have text : s.sql = sql l := by rw [same]
  have parameters : s.parameters = values l := by rw [same]
  have closed : ∀ text ∈ writings l, Placeholder.Closed text := by
    intro text member
    rcases Draft.mem_texts_of_mem_writings member with ⟨c,called,inside⟩ | ⟨row,given,inside⟩
    · exact closedCalls c called text inside
    · exact closedRecords row given text inside
  have fenced : Fenced l := Draft.fenced_layout _ r
  have counted : Placeholder.count s.sql =
      s.parameters.length + ((writings l).map Placeholder.count).sum := by
    rw [text,parameters]
    exact count_sql fenced closed
  refine ⟨text,?_,?_⟩
  · intro quiet
    rw [sum_count_eq_zero quiet,Nat.add_zero] at counted
    have marked : marks = marksFrom 0 l := by
      have scanned := marks_sql fenced closed quiet
      rw [← text] at scanned
      exact scanned
    refine ⟨Config.prepare_of_count_eq numbering counted,?_,?_⟩
    · rw [← counted]
      exact Placeholder.introduced_marks s.sql
    · rw [marked]
      exact fill_marksFrom l s.parameters 0 parameters
  · rintro ⟨text,inside,own⟩
    have more := sum_count_pos inside own
    have differs : Placeholder.count s.sql ≠ s.parameters.length := by omega
    obtain ⟨message,refused⟩ := Config.prepare_of_count_ne numbering differs
    refine ⟨message,refused,?_⟩
    intro server
    rw [Config.execute,refused]

theorem prepare_aligned_update :
    let config : Config := {}
    let row := Record.empty.set "name" (.text "Jo")
    let calls : List Clause := [.alternative "role" "=" (.text "admin"),.table "users",
      .raw "deleted_at IS NULL",.membership "id" [.int 1,.int 2]]
    let s : Statement := ⟨.update,
      "UPDATE users SET name = ? WHERE ((deleted_at IS NULL) AND id IN (?, ?)) OR role = ?",
      [.text "Jo",.int 1,.int 2,.text "admin"]⟩
    let own : Statement := ⟨.delete,"DELETE FROM users WHERE a = ?",[]⟩
    ((∀ c ∈ calls, ∀ text ∈ c.texts, Placeholder.Closed text) ∧
      (∀ column ∈ row.columns, Placeholder.Closed column) ∧
      (Request.update row).render (Pending.ofClauses calls) = .ok s ∧
      config.prepare s = .ok
        "UPDATE users SET name = $1 WHERE ((deleted_at IS NULL) AND id IN ($2, $3)) OR role = $4" ∧
      (Placeholder.marks s.sql).flatMap (Placeholder.fill s.parameters) =
        filled ((Draft.ofClauses calls).update row)) ∧
    Request.delete.render (Pending.ofClauses [.table "users",.raw "a = ?"]) = .ok own ∧
    ∃ message, config.prepare own = .error (.invalidArgument message) := by
  intro config row calls s own
  have closedCalls : ∀ c ∈ calls, ∀ text ∈ c.texts, Placeholder.Closed text := by decide
  have closedRow : ∀ column ∈ row.columns, Placeholder.Closed column := by decide
  have rendered : (Request.update row).render (Pending.ofClauses calls) = .ok s := by decide
  have aligned := prepare_aligned config rfl calls (.update row) s closedCalls
    (by simpa [Request.records] using closedRow) rendered
  obtain ⟨prepared,_,filled⟩ := aligned.2.1 (by decide)
  have renderedOwn : Request.delete.render (Pending.ofClauses [.table "users",.raw "a = ?"]) =
      .ok own := by decide
  have refused := (prepare_aligned config rfl [.table "users",.raw "a = ?"] .delete own
    (by decide) (by decide) renderedOwn).2.2 ⟨"a = ?",by decide,by decide⟩
  obtain ⟨message,refused,_⟩ := refused
  refine ⟨⟨closedCalls,closedRow,rendered,?_,filled⟩,renderedOwn,message,refused⟩
  rw [prepared]
  decide

end FluentSql.Postgres

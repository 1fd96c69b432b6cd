import FluentSql.Postgres.Executor

/-! What becomes of a statement on a server. It is completed when the server was sent it with
its parameters and raised no error. The executor then answers what the cells of the server say,
in the shape that is due to the kind of the statement; otherwise it fails, for a reason that is
never the shape of an answer. -/
namespace FluentSql

def Failure.IsUnexpected : Failure → Prop
  | .unexpectedResult _ => True
  | _ => False

namespace Postgres
open Wire

variable {server : Server} {config : Config} {s : Statement} {f : Failure}

theorem Config.prepare_error (refused : config.prepare s = .error f) :
    ∃ message, f = .invalidArgument message := by
  rw [prepare,number] at refused
  split at refused
  · cases refused
  · split at refused
    · cases refused
    · cases refused
      exact ⟨_,rfl⟩

theorem bindFrom_error {index : Nat} {parameters : List (Value × ColumnType)}
    (refused : bindFrom index parameters = .error f) :
    ∃ message, f = .executionFailed none message := by
  induction parameters generalizing index with
  | nil => cases refused
  | cons parameter rest ih =>
    rw [bindFrom] at refused
    split at refused
    · cases refused
      exact ⟨_,rfl⟩
    · cases later : bindFrom (index + 1) rest with
      | ok cells =>
        rw [later] at refused
        cases refused
      | error g =>
        rw [later] at refused
        cases refused
        exact ih later

theorem bindAll_error {types : List ColumnType} {parameters : List Value}
    (refused : bindAll types parameters = .error f) :
    ∃ message, f = .executionFailed none message := by
  rw [bindAll] at refused
  split at refused
  · exact bindFrom_error refused
  · cases refused
    exact ⟨_,rfl⟩

namespace Server

/-- The server was sent the statement with its parameters, and raised no error. -/
def Completes (server : Server) (config : Config) (s : Statement) : Prop :=
  (∃ cells, Message.bind cells ∈ (config.execute server s).sent) ∧ server.runError = none

/-- A statement is either completed, or there is a failure of the connection or of the server. -/
theorem submit_cases (server : Server) (sql : String) (parameters : List Value) :
    ((server.submit sql parameters).result = .ok () ∧
      (∃ cells, Message.bind cells ∈ (server.submit sql parameters).sent) ∧
      server.runError = none) ∨
    (∃ code message, (server.submit sql parameters).result =
        .error (.executionFailed code message)) ∧
      ((∃ cells, Message.bind cells ∈ (server.submit sql parameters).sent) →
        server.runError ≠ none) := by
  rw [submit]
  split
  · exact .inr ⟨⟨_,_,rfl⟩,by simp⟩
  · split
    · exact .inr ⟨⟨_,_,rfl⟩,by simp⟩
    · split
      · rename_i refused
        obtain ⟨message,rfl⟩ := bindAll_error refused
        exact .inr ⟨⟨_,_,rfl⟩,by simp⟩
      · rename_i cells _
        cases raised : server.runError with
        | some e => exact .inr ⟨⟨_,_,rfl⟩,by simp⟩
        | none => exact .inl ⟨rfl,⟨cells,by simp⟩,rfl⟩

/-- What the server answers when it completes a statement, and otherwise a failure. -/
theorem execute_cases (server : Server) (config : Config) (s : Statement) :
    (server.Completes config s ∧
      (config.execute server s).result = server.reply config s.kind) ∨
    ¬ server.Completes config s ∧
      ∃ f, (config.execute server s).result = .error f ∧ ¬ f.IsUnexpected := by
  cases prepared : config.prepare s with
  | error f =>
    obtain ⟨message,rfl⟩ := Config.prepare_error prepared
    rw [Completes,Config.execute,prepared]
    exact .inr ⟨by simp,_,rfl,id⟩
  | ok sql =>
    rw [Completes,Config.execute,prepared]
    obtain ⟨result,sent,silent⟩ | ⟨⟨code,message,result⟩,raised⟩ :=
      server.submit_cases sql s.parameters
    · left
      refine ⟨⟨sent,silent⟩,?_⟩
      change (server.submit sql s.parameters).result >>= _ = _
      rw [result]
      rfl
    · right
      refine ⟨fun completed => raised completed.1 completed.2,.executionFailed code message,?_,id⟩
      change (server.submit sql s.parameters).result >>= _ = _
      rw [result]
      rfl

theorem execute_of_completes (completed : server.Completes config s) :
    (config.execute server s).result = server.reply config s.kind := by
  obtain ⟨_,result⟩ | ⟨open_,_⟩ := server.execute_cases config s
  · exact result
  · exact absurd completed open_

end Server
end Postgres
end FluentSql

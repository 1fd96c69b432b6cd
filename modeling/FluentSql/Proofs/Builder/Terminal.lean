import FluentSql.Builder.Command
import FluentSql.Proofs.Statement.Request

/-! Operations that run a statement, in one form. Each of them hands over one statement and
unpacks the reply; what the builder looks like afterwards depends on the statement alone. -/
namespace FluentSql

variable {ε α β : Type}

namespace Turn

theorem map_andThen {γ : Type} (turn : Turn ε α) (f : α → Except Failure β) (g : β → γ) :
    (turn.andThen f).map g = turn.andThen fun a => (f a).map g := by
  obtain ⟨result,_,_,_⟩ := turn
  cases result <;> rfl

theorem andThen_andThen {γ : Type} (turn : Turn ε α) (f : α → Except Failure β)
    (g : β → Except Failure γ) :
    (turn.andThen f).andThen g = turn.andThen fun a => f a >>= g := by
  obtain ⟨result,_,_,_⟩ := turn
  cases result <;> rfl

theorem andThen_congr (turn : Turn ε α) {f g : α → Except Failure β} (same : ∀ a, f a = g a) :
    turn.andThen f = turn.andThen g := by
  rw [funext same]

end Turn

namespace Reply

def isRows : Reply → Bool
  | .rows _ => true
  | .counts _ _ => false

theorem dueTo_of_fits {kind : Statement.Kind} {reply : Reply}
    (fits : reply.isRows = kind.returnsRows) : reply.dueTo kind = .ok reply := by
  cases reply <;> simp_all [isRows,dueTo]

theorem dueTo_of_misfits {kind : Statement.Kind} {reply : Reply}
    (misfits : reply.isRows ≠ kind.returnsRows) :
    ∃ message, reply.dueTo kind = .error (.unexpectedResult message) := by
  cases reply <;> simp_all [isRows,dueTo]

end Reply

theorem Answers.execute_of_accepted {answers : Answers ε} {e : ε} {s : Statement}
    {kind : Statement.Kind} {reply : Reply}
    (accepted : answers.execute e s >>= Reply.dueTo kind = .ok reply) :
    answers.execute e s = .ok reply ∧ reply.isRows = kind.returnsRows := by
  cases answer : answers.execute e s with
  | error f =>
    rw [answer] at accepted
    cases accepted
  | ok given =>
    have due : given.dueTo kind = .ok reply := by rwa [answer] at accepted
    by_cases fits : given.isRows = kind.returnsRows
    · rw [Reply.dueTo_of_fits fits] at due
      cases due
      exact ⟨rfl,fits⟩
    · obtain ⟨message,error⟩ := Reply.dueTo_of_misfits fits
      rw [error] at due
      cases due

namespace Builder

variable {answers : Answers ε} {b : Builder ε} {render : Pending → Except RenderError Statement}
variable {e : ε} {s : Statement}

theorem run_unconnected (none : b.executor = none) :
    b.run answers render = ⟨.error .notConnected,b,[],[]⟩ := by
  rw [run,none]

theorem run_unrendered {r : RenderError} (connected : b.executor = some e)
    (error : render b.pending = .error r) :
    b.run answers render = ⟨.error r.toFailure,b,[],[]⟩ := by
  simp only [run,connected,error]

theorem run_failed {f : Failure} (connected : b.executor = some e)
    (rendered : render b.pending = .ok s)
    (failed : answers.execute e s >>= Reply.dueTo s.kind = .error f) :
    b.run answers render =
      ⟨.error f,{ b with lastQuery := some s.sql },[.statement e s],
        b.tracer.before s ++ b.tracer.onFailure s f⟩ := by
  simp only [run,connected,rendered,send,failed]

theorem run_answered {reply : Reply} (connected : b.executor = some e)
    (rendered : render b.pending = .ok s)
    (answered : answers.execute e s >>= Reply.dueTo s.kind = .ok reply) :
    b.run answers render =
      ⟨.ok reply,{ b with lastQuery := some s.sql, pending := .empty },[.statement e s],
        b.tracer.before s⟩ := by
  simp only [run,connected,rendered,send,answered]

/-- The limit of one goes with the statement, and is undone when there is no reply to unpack. -/
theorem first_eq (answers : Answers ε) (b : Builder ε) :
    b.first answers =
      (b.run answers fun q => (q.setLimit 1).toSelect).andThen fun reply =>
        reply.toRows.map List.head? := by
  cases connected : b.executor with
  | none =>
    rw [first,get,run_unconnected connected,run_unconnected (by exact connected)]
    rfl
  | some e =>
    cases rendered : (b.pending.setLimit 1).toSelect with
    | error r =>
      rw [first,get,run_unrendered connected rendered,
        run_unrendered (by exact connected) (by exact rendered)]
      rfl
    | ok s =>
      cases answered : answers.execute e s >>= Reply.dueTo s.kind with
      | error f =>
        rw [first,get,run_failed connected rendered answered,
          run_failed (by exact connected) (by exact rendered) (by exact answered)]
        rfl
      | ok reply =>
        have select : s.kind = .select := (Request.render_inv (r := .select) rendered).2
        have fits := (Answers.execute_of_accepted answered).2
        rw [first,get,run_answered connected rendered answered,
          run_answered (by exact connected) (by exact rendered) (by exact answered)]
        cases reply with
        | rows found => rfl
        | counts id affected => simp [select,Reply.isRows,Statement.Kind.returnsRows] at fits

end Builder

namespace Terminal

def request : Terminal α → Request
  | .insert row => .insert row
  | .insertMany rows => .insertMany rows
  | .update row => .update row
  | .delete => .delete
  | _ => .select

def isTyped : Terminal α → Bool
  | .getAs _ => true
  | .firstAs _ => true
  | _ => false

def prepare : Terminal α → Pending → Pending
  | .first,q => q.setLimit 1
  | .firstAs _,q => q.setLimit 1
  | _,q => q

def statement (t : Terminal α) (q : Pending) : Except RenderError Statement :=
  t.request.render (t.prepare q)

def unpack : Terminal α → Reply → Except Failure (Outcome α)
  | .get,reply => reply.toRows.map .rows
  | .first,reply => reply.toRows.map (.row ·.head?)
  | .getAs read,reply => do
    let rows ← reply.toRows
    let items ← rows.mapM read
    return .items items
  | .firstAs read,reply => do
    match (← reply.toRows).head? with
    | some row => return .item (some (← read row))
    | none => return .item none
  | .insert _,reply => reply.toCounts.map (.insertId ·.1)
  | .insertMany _,reply => reply.toCounts.map (.insertId ·.1)
  | .update _,reply => reply.toCounts.map (.changed <| decide <| 0 < ·.2)
  | .delete,reply => reply.toCounts.map (.changed <| decide <| 0 < ·.2)

/-- Every operation runs one statement and unpacks the reply. -/
theorem run_eq (answers : Answers ε) (b : Builder ε) (t : Terminal α) :
    t.run answers b = (b.run answers t.statement).andThen t.unpack := by
  cases t with
  | get =>
    rw [run,Builder.get,Turn.map_andThen]
    rfl
  | first =>
    rw [run,Builder.first_eq,Turn.map_andThen]
    exact Turn.andThen_congr _ fun reply => by cases reply <;> rfl
  | getAs read =>
    rw [run,Builder.getAs,Builder.get,Turn.andThen_andThen,Turn.map_andThen]
    refine Turn.andThen_congr _ fun reply => ?_
    cases reply with
    | rows found =>
      show (found.mapM read).map Outcome.items = found.mapM read >>= _
      cases found.mapM read <;> rfl
    | counts id affected => rfl
  | firstAs read =>
    rw [run,Builder.firstAs,Builder.first_eq,Turn.andThen_andThen,Turn.map_andThen]
    refine Turn.andThen_congr _ fun reply => ?_
    cases reply with
    | rows found =>
      cases found with
      | nil => rfl
      | cons row rest =>
        show ((read row).map some).map Outcome.item = read row >>= _
        cases read row <;> rfl
    | counts id affected => rfl
  | insert row =>
    rw [run,Builder.insert,Turn.map_andThen]
    exact Turn.andThen_congr _ fun reply => by cases reply <;> rfl
  | insertMany rows =>
    rw [run,Builder.insertMany,Turn.map_andThen]
    exact Turn.andThen_congr _ fun reply => by cases reply <;> rfl
  | update row =>
    rw [run,Builder.update,Turn.map_andThen]
    exact Turn.andThen_congr _ fun reply => by cases reply <;> rfl
  | delete =>
    rw [run,Builder.delete,Turn.map_andThen]
    exact Turn.andThen_congr _ fun reply => by cases reply <;> rfl

end Terminal
end FluentSql

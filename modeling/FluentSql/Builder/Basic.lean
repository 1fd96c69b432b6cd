import FluentSql.Executor
import FluentSql.Row.Access
import FluentSql.Statement.Rendering
import FluentSql.Trace

/-! Builders. A builder gathers a pending statement over several calls and hands it to its
executor. Success clears the pending statement, and a failure of the executor keeps it for
another attempt. -/
namespace FluentSql

structure Builder (ε : Type) where
  executor : Option ε := none
  pending : Pending := .empty
  lastQuery : Option String := none
  tracer : Trace.Tracer := {}

/-- What one operation does: its result, the builder after it, the calls made to executors
and the events logged. -/
structure Turn (ε α : Type) where
  result : Except Failure α
  builder : Builder ε
  calls : List (Call ε) := []
  events : List Trace.Event := []

namespace Turn

def andThen {ε α β : Type} (turn : Turn ε α) (f : α → Except Failure β) : Turn ε β :=
  { turn with result := turn.result >>= f }

def map {ε α β : Type} (f : α → β) (turn : Turn ε α) : Turn ε β :=
  { turn with result := turn.result.map f }

end Turn

namespace Builder

variable {ε : Type}

def apply (b : Builder ε) (c : Clause) : Builder ε := { b with pending := b.pending.apply c }
def reset (b : Builder ε) : Builder ε := { b with pending := .empty }
def connect (b : Builder ε) (executor : ε) : Builder ε := { b with executor := some executor }
def disconnect (b : Builder ε) : Builder ε := { b with executor := none }
def trace (b : Builder ε) (tracer : Trace.Tracer) : Builder ε := { b with tracer := tracer }

def toSelect (b : Builder ε) : Except Failure Statement :=
  b.pending.toSelect.mapError RenderError.toFailure

def send (answers : Answers ε) (b : Builder ε) (executor : ε) (s : Statement) :
    Turn ε Reply :=
  let asked := { b with lastQuery := some s.sql }
  match answers.execute executor s >>= Reply.dueTo s.kind with
  | .ok reply => {
      result := .ok reply
      builder := { asked with pending := .empty }
      calls := [.statement executor s]
      events := b.tracer.before s }
  | .error failure => {
      result := .error failure
      builder := asked
      calls := [.statement executor s]
      events := b.tracer.before s ++ b.tracer.onFailure s failure }

/-- Runs the statement that the pending state makes. Nothing happens without an executor, or
where the state makes no statement. -/
def run (answers : Answers ε) (b : Builder ε)
    (render : Pending → Except RenderError Statement) : Turn ε Reply :=
  match b.executor with
  | none => { result := .error .notConnected, builder := b }
  | some executor =>
    match render b.pending with
    | .error e => { result := .error e.toFailure, builder := b }
    | .ok s => b.send answers executor s

def get (answers : Answers ε) (b : Builder ε) : Turn ε (List Row) :=
  (b.run answers Pending.toSelect).andThen Reply.toRows

/-- The first row. The limit is one for this statement only, and after a failure it is what
it was. -/
def first (answers : Answers ε) (b : Builder ε) : Turn ε (Option Row) :=
  let turn := get answers { b with pending := b.pending.setLimit 1 }
  match turn.result with
  | .ok rows => { turn with result := .ok rows.head? }
  | .error failure => { turn with
      result := .error failure
      builder := { turn.builder with
        pending := { turn.builder.pending with limit := b.pending.limit } } }

def getAs {α : Type} (answers : Answers ε) (b : Builder ε) (read : Row → Except Failure α) :
    Turn ε (List α) :=
  (b.get answers).andThen fun rows => rows.mapM read

def firstAs {α : Type} (answers : Answers ε) (b : Builder ε) (read : Row → Except Failure α) :
    Turn ε (Option α) :=
  (b.first answers).andThen fun
    | some row => (read row).map some
    | none => .ok none

/-- The identifier of the inserted row, if the executor tells one. -/
def insert (answers : Answers ε) (b : Builder ε) (row : Record) : Turn ε (Option Int64) :=
  (b.run answers (·.toInsert row)).andThen fun reply => reply.toCounts.map (·.1)

def insertMany (answers : Answers ε) (b : Builder ε) (rows : List Record) :
    Turn ε (Option Int64) :=
  (b.run answers (·.toInsertMany rows)).andThen fun reply => reply.toCounts.map (·.1)

def update (answers : Answers ε) (b : Builder ε) (row : Record) : Turn ε Bool :=
  (b.run answers (·.toUpdate row)).andThen fun reply => reply.toCounts.map (decide <| 0 < ·.2)

def delete (answers : Answers ε) (b : Builder ε) : Turn ε Bool :=
  (b.run answers Pending.toDelete).andThen fun reply => reply.toCounts.map (decide <| 0 < ·.2)

def transact (answers : Answers ε) (b : Builder ε) (t : Transaction) : Turn ε Unit :=
  match b.executor with
  | none => { result := .error .notConnected, builder := b }
  | some executor => {
      result := answers.transact executor t
      builder := b
      calls := [.transaction executor t] }

/-- Hands a statement straight to the executor, past the pending state and the log. -/
def execute (answers : Answers ε) (b : Builder ε) (s : Statement) : Turn ε Reply :=
  match b.executor with
  | none => { result := .error .notConnected, builder := b }
  | some executor => {
      result := answers.execute executor s
      builder := b
      calls := [.statement executor s] }

end Builder
end FluentSql

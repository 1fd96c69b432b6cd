import FluentSql.Builder.Basic

/-! Operations on a builder as data, so that whole runs can be spoken about. -/
namespace FluentSql

/-- Operations that run a statement. Rows are read as `α` where a reading is given. -/
inductive Terminal (α : Type)
  | get
  | first
  | getAs (read : Row → Except Failure α)
  | firstAs (read : Row → Except Failure α)
  | insert (row : Record)
  | insertMany (rows : List Record)
  | update (row : Record)
  | delete

inductive Command (ε α : Type)
  | clause (c : Clause)
  | reset
  | connect (executor : ε)
  | disconnect
  | trace (tracer : Trace.Tracer)
  | toSelect
  | terminal (t : Terminal α)
  | transact (t : Transaction)
  | execute (s : Statement)

inductive Outcome (α : Type)
  | done
  | disconnected (wasConnected : Bool)
  | statement (s : Statement)
  | rows (rows : List Row)
  | row (row : Option Row)
  | items (items : List α)
  | item (item : Option α)
  | insertId (id : Option Int64)
  | changed (changed : Bool)
  | reply (reply : Reply)

variable {ε α : Type}

def Terminal.run (answers : Answers ε) (b : Builder ε) : Terminal α → Turn ε (Outcome α)
  | .get => (b.get answers).map .rows
  | .first => (b.first answers).map .row
  | .getAs read => (b.getAs answers read).map .items
  | .firstAs read => (b.firstAs answers read).map .item
  | .insert row => (b.insert answers row).map .insertId
  | .insertMany rows => (b.insertMany answers rows).map .insertId
  | .update row => (b.update answers row).map .changed
  | .delete => (b.delete answers).map .changed

def Command.run (answers : Answers ε) (b : Builder ε) : Command ε α → Turn ε (Outcome α)
  | .clause c => { result := .ok .done, builder := b.apply c }
  | .reset => { result := .ok .done, builder := b.reset }
  | .connect executor => { result := .ok .done, builder := b.connect executor }
  | .disconnect =>
    { result := .ok (.disconnected b.executor.isSome), builder := b.disconnect }
  | .trace tracer => { result := .ok .done, builder := b.trace tracer }
  | .toSelect => { result := b.toSelect.map .statement, builder := b }
  | .terminal t => t.run answers b
  | .transact t => (b.transact answers t).map fun () => .done
  | .execute s => (b.execute answers s).map .reply

/-- Runs commands one after another, each with the answers the executors give at its time. -/
def Builder.runAll (b : Builder ε) : List (Answers ε × Command ε α) → List (Turn ε (Outcome α))
  | [] => []
  | (answers,command) :: rest =>
    let turn := command.run answers b
    turn :: turn.builder.runAll rest

end FluentSql

import FluentSql.Executor
import FluentSql.Postgres.Prepare
import FluentSql.Postgres.Server

/-! The executor that runs statements on a server. -/
namespace FluentSql.Postgres

def Server.reply (server : Server) (config : Config) : Statement.Kind → Except Failure Reply
  | .select => (server.rows.mapM server.decodeRow).map Reply.rows
  | .insert =>
    match config.insertIdColumn with
    | some _ => server.insertId.map fun id => .counts id server.rows.length
    | none => .ok (.counts none (affectedRows server.tag))
  | .update | .delete => .ok (.counts none (affectedRows server.tag))

def Config.execute (config : Config) (server : Server) (s : Statement) : Exchange Reply :=
  match config.prepare s with
  | .error failure => ⟨[],.error failure⟩
  | .ok sql =>
    (server.submit sql s.parameters).andThen fun () => server.reply config s.kind

def Server.transact (server : Server) (t : Transaction) : Exchange Unit :=
  ⟨[.simple t.render],match server.runError with
    | some e => .error e.toFailure
    | none => .ok ()⟩

/-- How executors answer while a server meets every statement in the same way. -/
def Server.answers (server : Server) : Answers Config where
  execute config s := (config.execute server s).result
  transact _ t := (server.transact t).result

def Server.messages (server : Server) : Call Config → List Message
  | .statement config s => (config.execute server s).sent
  | .transaction _ t => (server.transact t).sent

end FluentSql.Postgres

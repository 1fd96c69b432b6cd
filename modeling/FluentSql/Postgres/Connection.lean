import FluentSql.Failure
import FluentSql.Postgres.ConnectionString

/-! Connecting, directly or through a pool, as far as it goes without a server: what is wrong
with a connection string, and what a new pool holds. -/
namespace FluentSql.Postgres

inductive ConnectError
  | malformed
  /-- No host at all, or hosts, addresses and ports that do not go together. -/
  | incomplete
  | unreachable
  deriving DecidableEq

def ConnectError.message : ConnectError → String
  | .malformed => "invalid connection string"
  | .incomplete => "invalid configuration"
  | .unreachable => "error connecting to server"

/-- There is a host, names and addresses match in number, and so do several ports. -/
def Target.isComplete (t : Target) : Bool :=
  (t.hosts != 0 || t.addresses != 0) &&
    (t.hosts == 0 || t.addresses == 0 || t.hosts == t.addresses) &&
    (t.ports ≤ 1 || t.ports == max t.hosts t.addresses)

def Target.connectError (t : Target) : ConnectError :=
  if t.isComplete then .unreachable else .incomplete

def connectFailure (text : String) : Failure :=
  match ConnectionString.read text with
  | none => .connection ConnectError.malformed.message
  | some target => .connection target.connectError.message

/-- A pool of connections, none of which is made before it is wanted. -/
structure Pool where
  target : Target
  maxSize : Nat
  size : Nat := 0
  deriving DecidableEq

namespace Pool

def defaultSize : Nat := 16

def create (text : String) (maxSize : Nat) : Except Failure Pool :=
  match ConnectionString.read text with
  | none => .error (.connection ConnectError.malformed.message)
  | some target => .ok { target, maxSize }

def takeFailure (p : Pool) : Failure :=
  .pool ("Error occurred while creating a new object: " ++ p.target.connectError.message)

end Pool
end FluentSql.Postgres

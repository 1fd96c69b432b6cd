import FluentSql.Value

/-! What can go wrong between building a statement and reading its rows. -/
namespace FluentSql

inductive Failure
  | notConnected
  | executionFailed (code : Option String) (message : String)
  | invalidArgument (message : String)
  | decode (column message : String)
  /-- The executor answered with rows where counts were due, or the reverse. -/
  | unexpectedResult (message : String)
  | connection (message : String)
  | pool (message : String)
  deriving DecidableEq

namespace Failure

def message : Failure → String
  | .notConnected => "Connection not established: call connect() before executing queries"
  | .executionFailed none m => "Execution failed: " ++ m
  | .executionFailed (some code) m => "Execution failed [" ++ code ++ "]: " ++ m
  | .invalidArgument m => "Invalid argument: " ++ m
  | .decode column m => "Decode error on column '" ++ column ++ "': " ++ m
  | .unexpectedResult m => "Unexpected result: " ++ m
  | .connection m => "Connection error: " ++ m
  | .pool m => "Pool error: " ++ m

def code : Failure → Option String
  | .executionFailed code _ => code
  | _ => none

def isNotConnected : Failure → Bool
  | .notConnected => true
  | _ => false

def isUniqueViolation (f : Failure) : Bool := f.code == some "23505"
def isForeignKeyViolation (f : Failure) : Bool := f.code == some "23503"

end Failure

/-- An unsigned number is bound as a signed one, if it is small enough. -/
def Value.ofUInt64 (n : UInt64) : Except Failure Value :=
  if n.toNat < 2 ^ 63 then .ok (.int n.toInt64)
  else .error (.invalidArgument
    (toString n.toNat ++ " does not fit in a signed 64-bit integer"))

end FluentSql

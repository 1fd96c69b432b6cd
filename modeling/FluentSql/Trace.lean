import FluentSql.Failure
import FluentSql.Statement.Basic

/-! The log of executed statements. An event comes before every statement and another after a
failure. Events hold the text of the statement, cut to a number of bytes, and never a value. -/
namespace FluentSql.Trace

inductive Level
  | error
  | warn
  | info
  | debug
  | trace
  deriving DecidableEq

inductive Event
  | statement (level : Level) (kind : Statement.Kind) (parameterCount : Nat) (sql : String)
  | failed (kind : Statement.Kind) (sql code error : String)
  deriving DecidableEq

/-- Goes back from a number of bytes to the next place at which no character is divided. -/
def boundary (s : String) : Nat → Nat
  | 0 => 0
  | size + 1 =>
    if String.Pos.Raw.isValid s ⟨size + 1⟩ then size + 1 else boundary s size

theorem isValid_boundary (s : String) (limit : Nat) :
    String.Pos.Raw.IsValid s ⟨boundary s limit⟩ := by
  induction limit with
  | zero => exact String.Pos.Raw.isValid_zero
  | succ size ih =>
    rw [boundary]
    split
    next whole => exact String.Pos.Raw.isValid_eq_true_iff.mp whole
    next => exact ih

/-- The beginning of a text up to a number of bytes, less what it has of a divided character. -/
def cut (limit : Nat) (s : String) : String :=
  if s.utf8ByteSize ≤ limit then s
  else (s.sliceTo ⟨⟨boundary s limit⟩,isValid_boundary s limit⟩).copy

/-- Without a level nothing is logged; without a limit texts are not cut. -/
structure Tracer where
  level : Option Level := some .debug
  limit : Option Nat := some 200
  deriving DecidableEq

namespace Tracer

def disabled : Tracer := ⟨none,none⟩

/-- A text that was cut ends in three points. -/
def shorten (t : Tracer) (sql : String) : String :=
  match t.limit with
  | some limit => if limit < sql.utf8ByteSize then cut limit sql ++ "..." else sql
  | none => sql

def before (t : Tracer) (s : Statement) : List Event :=
  match t.level with
  | some level => [.statement level s.kind s.parameters.length (t.shorten s.sql)]
  | none => []

def onFailure (t : Tracer) (s : Statement) (f : Failure) : List Event :=
  match t.level with
  | some _ => [.failed s.kind (t.shorten s.sql) (f.code.getD "-") f.message]
  | none => []

end Tracer
end FluentSql.Trace

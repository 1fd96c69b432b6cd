import FluentSql.Row.Basic
import FluentSql.Text.Numeral
import FluentSql.Wire.Decode
import FluentSql.Wire.Encode

/-! Talking to a server. A statement is prepared, its parameters are bound by the types the
server gives them, and the server answers with rows of cells and a closing tag, or with an
error at either stage. -/
namespace FluentSql.Postgres
open Wire

structure ServerError where
  code : String
  message : String
  constraint : Option String := none
  deriving DecidableEq

/-- The name of a violated constraint goes before the message. -/
def ServerError.toFailure (e : ServerError) : Failure :=
  .executionFailed (some e.code) (match e.constraint with
    | some constraint => constraint ++ ": " ++ e.message
    | none => e.message)

structure Column where
  name : String
  type : ColumnType
  deriving DecidableEq

abbrev Cell := Option Bytes

structure Server where
  parameterTypes : List ColumnType := []
  columns : List Column := []
  rows : List (List Cell) := []
  tag : String := "OK"
  prepareError : Option ServerError := none
  /-- Raised while the statement runs, after any rows. -/
  runError : Option ServerError := none

inductive Message
  | prepare (sql : String)
  | bind (cells : List Cell)
  | simple (sql : String)
  deriving DecidableEq

structure Exchange (α : Type) where
  sent : List Message
  result : Except Failure α

namespace Exchange

def andThen {α β : Type} (e : Exchange α) (f : α → Except Failure β) : Exchange β :=
  ⟨e.sent,e.result >>= f⟩

end Exchange

def bindFrom (index : Nat) : List (Value × ColumnType) → Except Failure (List Cell)
  | [] => .ok []
  | (v,ty) :: rest =>
    match bind v ty with
    | .error _ =>
      .error (.executionFailed none ("error serializing parameter " ++ toString index))
    | .ok cell => (bindFrom (index + 1) rest).map (cell :: ·)

def bindAll (types : List ColumnType) (parameters : List Value) : Except Failure (List Cell) :=
  if types.length = parameters.length then bindFrom 0 (parameters.zip types)
  else .error (.executionFailed none
    ("expected " ++ toString types.length ++ " parameters but got " ++
      toString parameters.length))

/-- On the wire a statement ends at a NUL, so one that has a NUL inside cannot be sent. -/
def hasWireForm (sql : String) : Bool := sql.toList.all (· != '\x00')

namespace Server

def submit (server : Server) (sql : String) (parameters : List Value) : Exchange Unit :=
  if !hasWireForm sql then
    ⟨[],.error (.executionFailed none "error encoding message to server")⟩
  else match server.prepareError with
  | some e => ⟨[.prepare sql],.error e.toFailure⟩
  | none =>
    match bindAll server.parameterTypes parameters with
    | .error failure => ⟨[.prepare sql],.error failure⟩
    | .ok cells => ⟨[.prepare sql,.bind cells],match server.runError with
      | some e => .error e.toFailure
      | none => .ok ()⟩

/-- The number at the end of a tag, or zero where there is none. -/
def affectedRows (tag : String) : Nat :=
  let word := (tag.toList.reverse.takeWhile (· != ' ')).reverse
  match Numeral.readNat (2 ^ 64 - 1) word with
  | .ok n => n
  | .error _ => 0

def decodeCell (index : Nat) (column : Column) (cell : Cell) : Except Failure Value :=
  (decode column.type cell).mapError fun (e : CellError) =>
    .decode column.name (e.message index)

/-- Decodes the cells of a row from a given column on; a cell that did not come is null. -/
def decodeFrom (index : Nat) : List Column → List Cell → Except Failure (List Value)
  | [], _ => .ok []
  | column :: columns, cells =>
    match decodeCell index column (cells.head?.getD none) with
    | .error failure => .error failure
    | .ok v => (decodeFrom (index + 1) columns (cells.drop 1)).map (v :: ·)

def decodeRow (server : Server) (cells : List Cell) : Except Failure Row :=
  decodeFrom 0 server.columns cells >>= Row.of? (server.columns.map (·.name))

/-- The first cell of the first row, when it holds an integer. -/
def insertId (server : Server) : Except Failure (Option Int64) :=
  match server.rows, server.columns with
  | cells :: _, column :: _ =>
    match decodeCell 0 column (cells.head?.getD none) with
    | .error failure => .error failure
    | .ok (.int n) => .ok (some n)
    | .ok _ => .ok none
  | _, _ => .ok none

end Server
end FluentSql.Postgres

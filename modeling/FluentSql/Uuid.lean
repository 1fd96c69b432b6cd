import FluentSql.Text.Hex
import FluentSql.Text.Split

/-! Universally unique identifiers: sixteen bytes, written as five groups of hexadecimal digits.
Reading also takes the digits without hyphens, and the groups in braces or behind `urn:uuid:`,
which may be in capitals. -/
namespace FluentSql

structure Uuid where
  bytes : List UInt8
  size_eq : bytes.length = 16
  deriving DecidableEq

namespace Uuid

def of? (bytes : List UInt8) : Option Uuid :=
  if h : bytes.length = 16 then some ⟨bytes,h⟩ else none

def render (u : Uuid) : List Char :=
  Hex.render (u.bytes.take 4) ++ '-' :: Hex.render ((u.bytes.drop 4).take 2) ++
    '-' :: Hex.render ((u.bytes.drop 6).take 2) ++ '-' :: Hex.render ((u.bytes.drop 8).take 2) ++
    '-' :: Hex.render (u.bytes.drop 10)

inductive ReadError
  | length (found : Nat)
  | character (found : Char) (offset : Nat)
  | groupCount (found : Nat)
  | groupLength (group expected found : Nat)
  deriving DecidableEq

def ReadError.message : ReadError → String
  | .length found => "invalid length: found " ++ toString found
  | .character found offset =>
    "invalid character: found `" ++ found.toString ++ "` at " ++ toString offset
  | .groupCount found => "invalid group count: expected 5, found " ++ toString found
  | .groupLength group expected found =>
    "invalid group length in group " ++ toString group ++ ": expected " ++ toString expected ++
      ", found " ++ toString found

def byteLength (cs : List Char) : Nat := cs.foldr (fun c bytes => c.utf8Size + bytes) 0

/-- The first character that is neither a hexadecimal digit nor a hyphen, and how many bytes
stand before it. -/
def firstStray : Nat → List Char → Option (Char × Nat)
  | _, [] => none
  | offset, c :: rest =>
    if c = '-' ∨ (Hex.value? c).isSome then firstStray (offset + c.utf8Size) rest
    else some (c,offset)

/-- What is wrong with the groups of a text of `length` bytes, if anything is. The last group is
counted as all that the four others and their hyphens would leave of the text. -/
def groupError? (length : Nat) : List (List Char) → Option ReadError
  | [a,b,c,d,e] =>
    if a.length ≠ 8 then some (.groupLength 0 8 a.length)
    else if b.length ≠ 4 then some (.groupLength 1 4 b.length)
    else if c.length ≠ 4 then some (.groupLength 2 4 c.length)
    else if d.length ≠ 4 then some (.groupLength 3 4 d.length)
    else if e.length ≠ 12 then some (.groupLength 4 12 (length - 24))
    else none
  | groups => some (.groupCount groups.length)

def ofDigits (digits : List Char) : Except ReadError Uuid :=
  match of? (Hex.readPairs digits) with
  | some u => .ok u
  | none => .error (.length digits.length)

/-- Reads five groups out of a text of `length` bytes, of which `offset` stand before them. -/
def readGroups (length offset : Nat) (body : List Char) : Except ReadError Uuid :=
  match firstStray offset body with
  | some (c,position) => .error (.character c position)
  | none =>
    let groups := Text.splitOn '-' body
    match groupError? length groups with
    | some e => .error e
    | none => ofDigits groups.flatten

def readBare (length : Nat) (text : List Char) : Except ReadError Uuid :=
  if text.all fun c => (Hex.value? c).isSome then
    if text.length = 32 then ofDigits text else .error (.length length)
  else readGroups length 0 text

inductive Wrapping
  | bare
  | braces
  | urn

def urn : List Char := "urn:uuid:".toList

def unwrap (text : List Char) : Wrapping × List Char :=
  if text.head? = some '\x7b' ∧ text.getLast? = some '\x7d' then
    (.braces,(text.drop 1).dropLast)
  else if urn.isPrefixOf (text.map Char.toLower) then (.urn,text.drop urn.length)
  else (.bare,text)

/-- A text of 36 bytes, wrapped or not, can only be five groups, and errors count from its
start. In any other text they count from the start of the wrapping. -/
def read (text : List Char) : Except ReadError Uuid :=
  let length := byteLength text
  let (wrapping,body) := unwrap text
  if length = 36 then readGroups 36 0 text
  else if byteLength body = 36 then readGroups 36 0 body
  else if length = 0 ∨ 45 < length then .error (.length length)
  else match wrapping with
    | .bare => readBare length body
    | .braces => readGroups length 1 body
    | .urn => readGroups length urn.length body

end Uuid
end FluentSql

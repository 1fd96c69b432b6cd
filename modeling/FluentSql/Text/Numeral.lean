import FluentSql.Power

/-! Decimal numerals: an optional sign and ASCII digits. Reading goes from left to right and
reports the first thing that is wrong, a stray character or a digit that leaves the range. -/
namespace FluentSql.Numeral

def digitValue (c : Char) : Nat := c.toNat - '0'.toNat

/-- The digits of a number, filled up with zeros on the left to a least width. -/
def padded (width n : Nat) : List Char :=
  List.replicate (width - (Nat.toDigits 10 n).length) '0' ++ Nat.toDigits 10 n

def renderInt (n : Int) : List Char :=
  if n < 0 then '-' :: Nat.toDigits 10 n.natAbs else Nat.toDigits 10 n.natAbs

inductive RangeError
  | tooLarge
  | tooSmall
  deriving DecidableEq

def RangeError.message : RangeError → String
  | .tooLarge => "number too large to fit in target type"
  | .tooSmall => "number too small to fit in target type"

inductive ReadError
  | empty
  | invalidDigit
  | range (e : RangeError)
  deriving DecidableEq

def ReadError.message : ReadError → String
  | .empty => "cannot parse integer from empty string"
  | .invalidDigit => "invalid digit found in string"
  | .range e => e.message

/-- Reads digits onto `acc`, refusing to pass `limit`. -/
def readDigits (limit : Nat) (beyond : RangeError) (acc : Nat) :
    List Char → Except ReadError Nat
  | [] => .ok acc
  | c :: rest =>
    if c.isDigit then
      let next := acc * 10 + digitValue c
      if limit < next then .error (.range beyond) else readDigits limit beyond next rest
    else .error .invalidDigit

def readNat (limit : Nat) : List Char → Except ReadError Nat
  | [] => .error .empty
  | ['+'] => .error .invalidDigit
  | '+' :: rest => readDigits limit .tooLarge 0 rest
  | cs => readDigits limit .tooLarge 0 cs

def readInt (least greatest : Nat) : List Char → Except ReadError Int
  | ['-'] => .error .invalidDigit
  | '-' :: rest => (readDigits least .tooSmall 0 rest).map fun n : Nat => -(n : Int)
  | cs => (readNat greatest cs).map Int.ofNat

def readInt64 (cs : List Char) : Except ReadError Int64 :=
  (readInt (2 ^ 63) (2 ^ 63 - 1) cs).map Int64.ofInt

end FluentSql.Numeral

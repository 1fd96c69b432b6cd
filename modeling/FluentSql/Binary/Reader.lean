import FluentSql.Binary.Basic

/-! Reading a double-precision number from decimal text. The value written is rounded once, to
nearest with ties to even. -/
namespace FluentSql.Binary

inductive ReadError
  | empty
  | malformed
  deriving DecidableEq

def ReadError.message : ReadError → String
  | .empty => "cannot parse float from empty string"
  | .malformed => "invalid float literal"

def ofDigits (cs : List Char) : Nat := Nat.ofDigitChars 10 cs 0

/-- The number nearest to `± coefficient · 10 ^ exponent`. An exponent so far out that every
coefficient of that many digits overflows or vanishes is not computed with. -/
def ofDecimal (negative : Bool) (coefficient : Nat) (exponent : Int) : Binary64 :=
  let lead := exponent + (Nat.toDigits 10 coefficient).length
  if coefficient = 0 ∨ lead < -400 then .zero negative
  else if 400 < lead then .infinity negative
  else .ofRatio negative (coefficient * Nat.pow 10 exponent.toNat) (Nat.pow 10 (-exponent).toNat)

def readExponent (cs : List Char) : Option Int :=
  let (negative,digits) := match cs with
    | '-' :: r => (true,r)
    | '+' :: r => (false,r)
    | r => (false,r)
  if digits.isEmpty || !digits.all Char.isDigit then none
  else if negative then some (-(ofDigits digits : Int)) else some (ofDigits digits)

/-- Digits with an optional point, at least one digit in all, then an optional exponent. -/
def readUnsigned (negative : Bool) (cs : List Char) : Option Binary64 :=
  let whole := cs.takeWhile Char.isDigit
  let (fraction,rest) := match cs.dropWhile Char.isDigit with
    | '.' :: r => (r.takeWhile Char.isDigit,r.dropWhile Char.isDigit)
    | r => ([],r)
  if whole.isEmpty && fraction.isEmpty then none
  else
    let exponent := match rest with
      | [] => some 0
      | c :: r => if c = 'e' ∨ c = 'E' then readExponent r else none
    exponent.map fun e =>
      ofDecimal negative (ofDigits (whole ++ fraction)) (e - fraction.length)

def readSpecial (negative : Bool) (cs : List Char) : Option Binary64 :=
  let word := String.ofList (cs.map Char.toLower)
  if word = "inf" ∨ word = "infinity" then some (.infinity negative)
  else if word = "nan" then some (if negative then Binary64.nan.neg else .nan)
  else none

end FluentSql.Binary

namespace FluentSql.Binary64
open Binary

def read (cs : List Char) : Except ReadError Binary64 :=
  let (negative,body) := match cs with
    | '-' :: r => (true,r)
    | '+' :: r => (false,r)
    | r => (false,r)
  if cs.isEmpty then .error .empty
  else match (readUnsigned negative body).or (readSpecial negative body) with
    | some x => .ok x
    | none => .error .malformed

end FluentSql.Binary64

import FluentSql.Json.Basic
import FluentSql.Text.Numeral

/-! Reading the numbers of a JSON document. Integers of 64 bits are exact. Any other number is
the product or quotient of two doubles, the digits that fit in 64 bits and a power of ten, and
so may miss the nearest double in its last place. -/
namespace FluentSql.Json.Number
open FluentSql.Numeral (digitValue)

def maxCoefficient : Nat := 2 ^ 64 - 1

/-- Takes digits while the number stays within 64 bits. The result is the number, how many
digits it took, and the rest of the text. -/
def takeDigits : Nat → Nat → List Char → Nat × Nat × List Char
  | n, count, [] => (n,count,[])
  | n, count, c :: rest =>
    if c.isDigit ∧ n * 10 + digitValue c ≤ maxCoefficient then
      takeDigits (n * 10 + digitValue c) (count + 1) rest
    else (n,count,c :: rest)

def leadingDigits (cs : List Char) : Nat := (cs.takeWhile Char.isDigit).length

/-- Multiplies by a power of ten, in steps that doubles can hold; none on overflow. -/
def scaleBy : Nat → Int → Binary64 → Option Binary64
  | 0, _, x => some x
  | fuel + 1, exponent, x =>
    let power := Binary64.ofRatio false (Nat.pow 10 (min exponent.natAbs 308)) 1
    if exponent.natAbs ≤ 308 then
      if 0 ≤ exponent then
        let scaled := x.mul power
        if scaled.isFinite then some scaled else none
      else some (x.div power)
    else if x.isZero then some x
    else if 0 ≤ exponent then none
    else scaleBy fuel (exponent + 308) (x.div power)

/-- The double for `± n · 10 ^ exponent`. Two divisions leave nothing of a 64-bit number. -/
def assemble (negative : Bool) (n : Nat) (exponent : Int) : Option Number :=
  (scaleBy 4 exponent (.ofRatio false n 1)).map fun x =>
    .real (.ofMagnitude negative x.magnitude)

/-- After `e`: an optional sign and digits. An exponent beyond 31 bits overflows, or makes
zero. -/
def readExponent (negative : Bool) (n : Nat) (exponent : Int) (cs : List Char) :
    Option (Number × List Char) :=
  let (down,cs) := match cs with
    | '+' :: rest => (false,rest)
    | '-' :: rest => (true,rest)
    | rest => (false,rest)
  let digits := cs.takeWhile Char.isDigit
  let rest := cs.dropWhile Char.isDigit
  let power := Nat.ofDigitChars 10 digits 0
  if digits.isEmpty then none
  else if 2 ^ 31 ≤ power then
    if n ≠ 0 ∧ !down then none else some (.real (.zero negative),rest)
  else
    (assemble negative n (if down then exponent - power else exponent + power)).map (·,rest)

def readEnding (negative : Bool) (n : Nat) (exponent : Int) :
    List Char → Option (Number × List Char)
  | c :: rest =>
    if c = 'e' ∨ c = 'E' then readExponent negative n exponent rest
    else (assemble negative n exponent).map (·,c :: rest)
  | [] => (assemble negative n exponent).map (·,[])

/-- After the point: at least one digit. Digits that do not fit in 64 bits are ignored. -/
def readFraction (negative : Bool) (n : Nat) (exponent : Int) (cs : List Char) :
    Option (Number × List Char) :=
  let (taken,count,rest) := takeDigits n 0 cs
  let surplus := leadingDigits rest
  if count + surplus = 0 then none
  else readEnding negative taken (exponent - count) (rest.drop surplus)

def ofInteger (negative : Bool) (n : Nat) : Number :=
  if !negative then .natural (UInt64.ofNat n)
  else if 0 < n ∧ n ≤ 2 ^ 63 then .negative (Int64.ofInt (-(n : Int)))
  else .real (.ofRatio true n 1)

/-- The integer digits are followed by a point, an exponent or the end of the number. Integer
digits that do not fit in 64 bits count as powers of ten. -/
def readUnsigned (negative : Bool) (cs : List Char) : Option (Number × List Char) :=
  let (n,count,rest) := takeDigits 0 0 cs
  let surplus := leadingDigits rest
  let leadingZero := cs.head? = some '0' ∧ 1 < count + surplus
  if count = 0 ∨ leadingZero then none
  else match rest.drop surplus with
    | '.' :: fraction => readFraction negative n surplus fraction
    | ending =>
      if surplus = 0 ∧ ending.head? ≠ some 'e' ∧ ending.head? ≠ some 'E' then
        some (ofInteger negative n,ending)
      else readEnding negative n surplus ending

def read : List Char → Option (Number × List Char)
  | '-' :: rest => readUnsigned true rest
  | cs => readUnsigned false cs

end FluentSql.Json.Number

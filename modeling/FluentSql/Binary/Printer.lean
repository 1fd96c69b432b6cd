import FluentSql.Binary.Shortest

/-! Text of binary numbers: the positional form, which never shows an exponent, and the form of
numbers inside a JSON document, which both precisions have. -/
namespace FluentSql.Binary

def signChars (negative : Bool) : List Char := if negative then ['-'] else []

def Scientific.positional (s : Scientific) (wholeEnding : List Char) : List Char :=
  let ds := s.digits
  let before := s.leadingExponent + 1
  if before ≤ 0 then '0' :: '.' :: (List.replicate (-before).toNat '0' ++ ds)
  else if ds.length ≤ before.toNat then
    ds ++ List.replicate (before.toNat - ds.length) '0' ++ wholeEnding
  else ds.take before.toNat ++ '.' :: ds.drop before.toNat

def Scientific.withExponent (s : Scientific) : List Char :=
  let e := s.leadingExponent
  let fraction := match s.digits.drop 1 with
    | [] => []
    | rest => '.' :: rest
  s.digits.take 1 ++ fraction ++ 'e' :: (if e < 0 then '-' else '+') :: Nat.toDigits 10 e.natAbs

/-- Text of a finite number in a JSON document: positional, always with a fraction, where the
exponent of the leading digit is within bounds; otherwise with a signed exponent. Of two
shortest decimals equally near the even one is written. -/
def Format.renderJson (f : Format) (low high : Int) (negative : Bool) (magnitude : Nat) : String :=
  let body :=
    if magnitude = 0 then "0.0".toList
    else
      let s := shortest .even f magnitude
      if low ≤ s.leadingExponent ∧ s.leadingExponent ≤ high then s.positional ['.','0']
      else s.withExponent
  String.ofList (signChars negative ++ body)

end FluentSql.Binary

namespace FluentSql.Binary64
open Binary

/-- Positional text; of two shortest decimals equally near the greater is written. -/
def render (x : Binary64) : String :=
  if x.isNaN then "NaN"
  else if !x.isFinite then String.ofList (signChars x.negative ++ "inf".toList)
  else if x.isZero then String.ofList (signChars x.negative ++ ['0'])
  else String.ofList (signChars x.negative ++ (shortest .up double x.magnitude).positional [])

/-- Positional from 0.00001 up to sixteen digits before the point. -/
def renderJson (x : Binary64) : String := double.renderJson (-5) 15 x.negative x.magnitude

end FluentSql.Binary64

namespace FluentSql.Binary32
open Binary

/-- Positional from 0.000001 up to thirteen digits before the point. -/
def renderJson (x : Binary32) : String := single.renderJson (-6) 12 x.negative x.magnitude

end FluentSql.Binary32

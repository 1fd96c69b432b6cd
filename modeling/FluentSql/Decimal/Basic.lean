import FluentSql.Rounding
import FluentSql.Text.Numeral

/-! Exact decimals: a sign, a coefficient of at most 96 bits and at most 28 fractional digits.
The scale is part of a decimal, so `1.0` and `1.00` are two decimals of one value. A zero may
carry a minus sign. -/
namespace FluentSql

structure Decimal where
  negative : Bool
  coefficient : Nat
  scale : Nat
  coefficient_lt : coefficient < 2 ^ 96
  scale_le : scale ≤ 28
  deriving DecidableEq

namespace Decimal

def ofParts? (negative : Bool) (coefficient scale : Nat) : Option Decimal :=
  if h : coefficient < 2 ^ 96 ∧ scale ≤ 28 then some ⟨negative,coefficient,scale,h.1,h.2⟩
  else none

def zero : Decimal := ⟨false,0,0,by decide,by decide⟩

def ofInt64 (n : Int64) : Decimal where
  negative := n < 0
  coefficient := n.toInt.natAbs
  scale := 0
  coefficient_lt := by have := n.le_toInt; have := n.toInt_lt; omega
  scale_le := by decide

def isZero (d : Decimal) : Bool := d.coefficient == 0

def unit (d : Decimal) : Nat := Nat.pow 10 d.scale

def isInteger (d : Decimal) : Bool := d.coefficient % d.unit == 0

def signedCoefficient (d : Decimal) : Int :=
  if d.negative then -(d.coefficient : Int) else d.coefficient

def toInt (d : Decimal) : Int :=
  let whole : Int := (d.coefficient / d.unit : Nat)
  if d.negative then -whole else whole

def numEq (a b : Decimal) : Bool := a.signedCoefficient * b.unit == b.signedCoefficient * a.unit

def render (d : Decimal) : List Char :=
  let fraction := if d.scale = 0 then [] else '.' :: Numeral.padded d.scale (d.coefficient % d.unit)
  (if d.negative then ['-'] else []) ++ Nat.toDigits 10 (d.coefficient / d.unit) ++ fraction

private theorem roundDiv_up_le (n : Nat) {den : Nat} (h : 0 < den) : roundDiv .up n den ≤ n := by
  have floor : den * (n / den) + n % den = n := Nat.div_add_mod n den
  have below : n % den < den := Nat.mod_lt n h
  have le : n / den ≤ n := Nat.div_le_self n den
  simp only [roundDiv,Tie.roundsUp]
  split
  · exact le
  · have grows : n / den + 1 ≤ n := by
      rcases Nat.lt_or_ge 1 den with two | one
      · have : 2 * (n / den) ≤ den * (n / den) := Nat.mul_le_mul_right _ two
        omega
      · have : den = 1 := by omega
        subst this
        omega
    split <;> simp <;> exact grows

/-- Fewer fractional digits, a half going away from zero. -/
def roundTo (d : Decimal) (scale : Nat) (h : scale ≤ d.scale) : Decimal where
  negative := d.negative
  coefficient := roundDiv .up d.coefficient (Nat.pow 10 (d.scale - scale))
  scale := scale
  coefficient_lt :=
    Nat.lt_of_le_of_lt (roundDiv_up_le _ (Nat.pow_pos (by decide))) d.coefficient_lt
  scale_le := Nat.le_trans h d.scale_le

def pad : Nat → Decimal → Decimal
  | 0, d => d
  | count + 1, d =>
    if h : d.coefficient * 10 < 2 ^ 96 ∧ d.scale + 1 ≤ 28 then
      pad count ⟨d.negative,d.coefficient * 10,d.scale + 1,h.1,h.2⟩
    else d

/-- The same value with a given number of fractional digits, rounded or padded with zeros. -/
def rescale (d : Decimal) (scale : Nat) : Decimal :=
  if h : scale ≤ d.scale then d.roundTo scale h else d.pad (scale - d.scale)

end Decimal
end FluentSql

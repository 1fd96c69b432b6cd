import FluentSql.Decimal.Basic
import FluentSql.Binary.Basic

/-! Decimals and double-precision numbers. A double becomes a decimal of fifteen or sixteen
digits: its power of two is traded for a power of ten inside 96 bits, and then the surplus
digits are rounded away. -/
namespace FluentSql.Decimal
open Binary

abbrev Scaled := Nat × Int

/-- Replaces `2 ^ -steps` by powers of ten: each factor `1 / 2` becomes `5 / 10`, unless the
coefficient can be halved, exactly or because five times it would not fit. -/
def absorbHalves : Nat → Scaled → Scaled
  | 0, s => s
  | steps + 1, (m,e) =>
    if m % 2 = 0 then absorbHalves steps (m / 2,e + 1)
    else if 5 * m < 2 ^ 96 then absorbHalves steps (5 * m,e)
    else absorbHalves steps (m / 2,e + 1)

/-- Replaces `2 ^ steps` by powers of ten: each factor `2` becomes `10 / 5`, the division by
five being put off while doubling fits. -/
def absorbDoubles : Nat → Scaled → Option Scaled
  | 0, s => some s
  | steps + 1, (m,e) =>
    if m < 2 ^ 95 then absorbDoubles steps (2 * m,e - 1)
    else if (steps : Int) + 1 < 2 * e then none
    else absorbDoubles steps (m / 5,e)

def multiplyOut : Nat → Nat → Option Nat
  | 0, m => some m
  | power + 1, m => if 10 * m < 2 ^ 96 then multiplyOut power (10 * m) else none

def dropDigit (m : Nat) : Nat := m / 10 + (if 5 ≤ m % 10 then 1 else 0)

/-- Drops fractional digits until 28 are left. A coefficient that vanishes is plain zero. -/
def dropToCapacity : Nat → Nat → Nat → Nat × Nat
  | 0, m, scale => (m,scale)
  | surplus + 1, m, scale =>
    if m / 10 = 0 then (0,0) else dropToCapacity surplus (dropDigit m) (scale - 1)

/-- Drops fractional digits while the coefficient has more than 52 bits. -/
def dropToPrecision : Nat → Nat → Nat × Nat
  | m, 0 => (m,0)
  | m, scale + 1 => if 2 ^ 52 ≤ m then dropToPrecision (dropDigit m) scale else (m,scale + 1)

def dropTrailingZeros : Nat → Nat → Nat × Nat
  | m, 0 => (m,0)
  | m, scale + 1 => if m % 10 = 0 then dropTrailingZeros (m / 10) scale else (m,scale + 1)

/-- The power of two that goes with the significand of a double. -/
def powerOfTwo (x : Binary64) : Int := (double.binade x.magnitude : Int) - double.grain.log2

def ofDouble (x : Binary64) : Option Decimal :=
  if !x.isFinite then none
  else if x.isZero then ofParts? x.negative 0 0
  else do
    let m := double.significand x.magnitude
    let e := powerOfTwo x
    let (m,e) ←
      if e ≤ 0 then some (absorbHalves (-e).toNat (m,e)) else absorbDoubles e.toNat (m,e)
    let m ← multiplyOut e.toNat m
    let scale := (-e).toNat
    let (m,scale) := dropToCapacity (scale - 28) m scale
    let (m,scale) := dropToPrecision m scale
    let (m,scale) := dropTrailingZeros m scale
    ofParts? x.negative m scale

def powerOfTen : Nat → Nat → Binary64 → Binary64 → Binary64
  | 0, _, _, acc => acc
  | fuel + 1, n, base, acc =>
    if n = 0 then acc
    else
      let acc := if n % 2 = 1 then acc.mul base else acc
      powerOfTen fuel (n / 2) (base.mul base) acc

/-- The magnitude of the double for a decimal with a fraction: whole part and fraction are
rounded on their own, added, and cut to the scale of the decimal. -/
def fractionalToDouble (d : Decimal) : Binary64 :=
  let whole := Binary64.ofRatio false (d.coefficient / d.unit) 1
  let fraction :=
    (Binary64.ofRatio false (d.coefficient % d.unit) 1).div (Binary64.ofRatio false d.unit 1)
  if fraction.isZero then whole
  else
    let power := powerOfTen 5 d.scale (.ofInt 10) (.ofInt 1)
    (((whole.addMagnitudes fraction).mul power).round).div power

def toDouble (d : Decimal) : Binary64 :=
  if d.scale = 0 then .ofInt d.signedCoefficient
  else
    let x := d.fractionalToDouble
    .ofMagnitude d.negative x.magnitude

end FluentSql.Decimal

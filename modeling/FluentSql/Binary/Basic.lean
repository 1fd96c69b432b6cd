import FluentSql.Binary.Format

/-! Double- and single-precision numbers as their bits. Every operation takes the exact result
and rounds it once, to nearest with ties to even. -/
namespace FluentSql

structure Binary64 where
  bits : UInt64
  deriving DecidableEq

structure Binary32 where
  bits : UInt32
  deriving DecidableEq

namespace Binary64
open Binary

def ofMagnitude (negative : Bool) (magnitude : Nat) : Binary64 :=
  ⟨UInt64.ofNat ((if negative then 2 ^ 63 else 0) + magnitude)⟩

def ofRatio (negative : Bool) (num den : Nat) : Binary64 :=
  ofMagnitude negative (double.nearest num den)

def ofInt (n : Int) : Binary64 := ofRatio (decide (n < 0)) n.natAbs 1

def negative (x : Binary64) : Bool := 2 ^ 63 ≤ x.bits.toNat
def magnitude (x : Binary64) : Nat := x.bits.toNat % 2 ^ 63

def isNaN (x : Binary64) : Bool := double.infinity < x.magnitude
def isFinite (x : Binary64) : Bool := x.magnitude < double.infinity
def isZero (x : Binary64) : Bool := x.magnitude == 0

/-- The value of a finite number is `± units / grain`. -/
def units (x : Binary64) : Nat := double.units x.magnitude

def nan : Binary64 := ⟨0x7ff8000000000000⟩
def infinity (negative : Bool) : Binary64 := ofMagnitude negative double.infinity
def zero (negative : Bool) : Binary64 := ofMagnitude negative 0

def neg (x : Binary64) : Binary64 := ofMagnitude (!x.negative) x.magnitude

/-- Numeric equality: a NaN equals nothing, and the two zeros equal each other. -/
def numEq (x y : Binary64) : Bool :=
  !x.isNaN && !y.isNaN && (x.bits == y.bits || (x.isZero && y.isZero))

def isInteger (x : Binary64) : Bool := x.isFinite && x.units % double.grain == 0

def toInt (x : Binary64) : Int :=
  let whole : Int := (x.units / double.grain : Nat)
  if x.negative then -whole else whole

/-- The integer nearest to a finite number, a half going away from zero. -/
def round (x : Binary64) : Binary64 :=
  ofRatio x.negative (roundDiv .up x.units double.grain) 1

def addMagnitudes (x y : Binary64) : Binary64 :=
  ofRatio false (x.units + y.units) double.grain

def mul (x y : Binary64) : Binary64 :=
  ofRatio (x.negative != y.negative) (x.units * y.units) (double.grain * double.grain)

/-- The quotient of two finite numbers, the second of them not zero. -/
def div (x y : Binary64) : Binary64 :=
  ofRatio (x.negative != y.negative) x.units y.units

end Binary64

namespace Binary32
open Binary

def ofMagnitude (negative : Bool) (magnitude : Nat) : Binary32 :=
  ⟨UInt32.ofNat ((if negative then 2 ^ 31 else 0) + magnitude)⟩

def ofInt (n : Int) : Binary32 := ofMagnitude (decide (n < 0)) (single.nearest n.natAbs 1)

def negative (x : Binary32) : Bool := 2 ^ 31 ≤ x.bits.toNat
def magnitude (x : Binary32) : Nat := x.bits.toNat % 2 ^ 31

def isFinite (x : Binary32) : Bool := x.magnitude < single.infinity

/-- The same number in double precision. A NaN keeps its sign and leading payload bits and
becomes quiet. -/
def widen (x : Binary32) : Binary64 :=
  let m := x.magnitude
  if m < single.infinity then Binary64.ofRatio x.negative (single.units m) single.grain
  else if m = single.infinity then .infinity x.negative
  else .ofMagnitude x.negative (double.infinity + 2 ^ 51 + m % 2 ^ 22 * 2 ^ 29)

/-- The nearest single-precision number. A NaN keeps its sign and leading payload bits and
becomes quiet. -/
def ofDouble (x : Binary64) : Binary32 :=
  let m := x.magnitude
  if m < double.infinity then ofMagnitude x.negative (single.nearest x.units double.grain)
  else if m = double.infinity then ofMagnitude x.negative single.infinity
  else ofMagnitude x.negative (single.infinity + 2 ^ 22 + m % 2 ^ 51 / 2 ^ 29)

end Binary32
end FluentSql

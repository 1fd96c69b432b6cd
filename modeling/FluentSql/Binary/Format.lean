import FluentSql.Rounding

/-! Binary floating-point formats with an implicit leading bit. The magnitude of a number is
the integer read from all its bits but the sign. Magnitudes up to `infinity` stand for growing
values, and every finite one is a whole number of `units` of size `1 / grain`, so that all
arithmetic on finite numbers is arithmetic on naturals. -/
namespace FluentSql.Binary

structure Format where
  /-- Bits of a significand, the implicit one included. -/
  precision : Nat
  /-- Bits of the exponent field. -/
  exponentWidth : Nat
  deriving DecidableEq

def double : Format := ⟨53,11⟩
def single : Format := ⟨24,8⟩

namespace Format

def implicitBit (f : Format) : Nat := Nat.pow 2 (f.precision - 1)

/-- The magnitude of infinity; larger magnitudes are not numbers. -/
def infinity (f : Format) : Nat := (Nat.pow 2 f.exponentWidth - 1) * f.implicitBit

/-- How many smallest positive numbers make one. -/
def grain (f : Format) : Nat :=
  Nat.pow 2 (Nat.pow 2 (f.exponentWidth - 1) + f.precision - 3)

/-- The step between neighbours of a magnitude is `2 ^ binade` units. -/
def binade (f : Format) (magnitude : Nat) : Nat := magnitude / f.implicitBit - 1

def significand (f : Format) (magnitude : Nat) : Nat :=
  magnitude - f.binade magnitude * f.implicitBit

/-- The value of a magnitude, as a multiple of `1 / grain`. -/
def units (f : Format) (magnitude : Nat) : Nat :=
  f.significand magnitude * Nat.pow 2 (f.binade magnitude)

/-- The magnitude whose value is nearest to `num / den`, the even one of two equally near;
values beyond the last finite number round to infinity. -/
def nearest (f : Format) (num den : Nat) : Nat :=
  let scaled := num * f.grain
  let binade := (scaled / den).log2 + 1 - f.precision
  min f.infinity (binade * f.implicitBit + roundDiv .even scaled (den * Nat.pow 2 binade))

end Format
end FluentSql.Binary

import FluentSql.Binary.Basic

/-! The shortest decimal that reads back as a given binary number. A decimal reads back when it
lies between the midpoints to the two neighbours, ends included for an even significand. The
fewest digits win, then the decimal nearest to the number. -/
namespace FluentSql.Binary

structure Scientific where
  coefficient : Nat
  exponent : Int
  deriving DecidableEq

namespace Scientific

def digits (s : Scientific) : List Char := Nat.toDigits 10 s.coefficient

def leadingExponent (s : Scientific) : Int := s.exponent + s.digits.length - 1

def dropZeros : Nat → Nat → Nat → Nat × Nat
  | 0, c, dropped => (c,dropped)
  | fuel + 1, c, dropped =>
    if c % 10 = 0 then dropZeros fuel (c / 10) (dropped + 1) else (c,dropped)

def trimmed (s : Scientific) : Scientific :=
  let (c,dropped) := dropZeros s.digits.length s.coefficient 0
  ⟨c,s.exponent + dropped⟩

end Scientific

/-- A finite positive number on the scale of twice its units, with the midpoints to its
neighbours. -/
structure Cell where
  low : Nat
  value : Nat
  high : Nat
  closed : Bool
  /-- The scale: `value / whole` is the number. -/
  whole : Nat

def Cell.ofMagnitude (f : Format) (m : Nat) : Cell where
  low := f.units (m - 1) + f.units m
  value := 2 * f.units m
  high := f.units m + f.units (m + 1)
  closed := m % 2 == 0
  whole := 2 * f.grain

namespace Cell

def contains (c : Cell) (s : Scientific) : Bool :=
  let scaled := s.coefficient * c.whole * Nat.pow 10 s.exponent.toNat
  let one := Nat.pow 10 (-s.exponent).toNat
  if c.closed then c.low * one ≤ scaled && scaled ≤ c.high * one
  else c.low * one < scaled && scaled < c.high * one

def leadingExponent (c : Cell) : Int :=
  let places := c.whole.log2
  ((Nat.toDigits 10 (c.value * Nat.pow 10 places / c.whole)).length : Int) - 1 - places

/-- The candidates with a given last decimal place: the number cut there and the next decimal
up, the nearer first. -/
def candidates (tie : Tie) (c : Cell) (place : Int) : Scientific × Scientific :=
  let num := c.value * Nat.pow 10 (-place).toNat
  let den := c.whole * Nat.pow 10 place.toNat
  let floor := num / den
  if roundDiv tie num den = floor then (⟨floor,place⟩,⟨floor + 1,place⟩)
  else (⟨floor + 1,place⟩,⟨floor,place⟩)

/-- Tries ever finer decimal places until a candidate reads back. -/
def search (tie : Tie) (c : Cell) : Nat → Int → Scientific
  | 0, place => (c.candidates tie place).1
  | fuel + 1, place =>
    let (near,far) := c.candidates tie place
    if c.contains near then near
    else if c.contains far then far
    else search tie c fuel (place - 1)

end Cell

/-- Seventeen digits always suffice for a double. -/
def shortest (tie : Tie) (f : Format) (magnitude : Nat) : Scientific :=
  let c := Cell.ofMagnitude f magnitude
  (c.search tie 16 c.leadingExponent).trimmed

end FluentSql.Binary

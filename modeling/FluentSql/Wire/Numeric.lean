import FluentSql.Decimal.Basic
import FluentSql.Wire.Bytes

/-! The wire form of decimals: groups of four decimal digits, the power of ten thousand of the
first group, a sign and the number of fractional digits. -/
namespace FluentSql.Wire

/-- The groups of a number, most significant first; zero has none. -/
def groupsOf (n : Nat) : List Nat :=
  if _ : n = 0 then [] else groupsOf (n / 10000) ++ [n % 10000]

def trimRight (groups : List Nat) : List Nat := (groups.reverse.dropWhile (· == 0)).reverse

namespace Numeric

/-- Zero has no groups, no sign and no scale. Zeros at the end of the fraction are left out
unless the number is below one. -/
def encode (d : Decimal) : Bytes :=
  if d.isZero then List.replicate 8 0
  else
    let fractionGroups := (d.scale + 3) / 4
    let groups := groupsOf (d.coefficient * Nat.pow 10 (4 * fractionGroups - d.scale))
    let weight := (groups.length : Int) - fractionGroups - 1
    let wholeGroups := groups.length - fractionGroups
    let kept :=
      if 0 ≤ weight then groups.take wholeGroups ++ trimRight (groups.drop wholeGroups)
      else groups
    bigEndian 2 kept.length ++ signedBigEndian 2 weight ++
      bigEndian 2 (if d.negative then 0x4000 else 0) ++ bigEndian 2 d.scale ++
      kept.flatMap (bigEndian 2)

structure Magnitude where
  coefficient : Nat
  scale : Nat

/-- Gives up fractional digits until the coefficient fits, a half going to the even neighbour;
whole numbers beyond 96 bits do not fit. -/
def fit (coefficient : Nat) : Nat → Nat → Option Magnitude
  | dropped, 0 =>
    let rounded := roundDiv .even coefficient (Nat.pow 10 dropped)
    if rounded < 2 ^ 96 then some ⟨rounded,0⟩ else none
  | dropped, scale + 1 =>
    let rounded := roundDiv .even coefficient (Nat.pow 10 dropped)
    if rounded < 2 ^ 96 then some ⟨rounded,scale + 1⟩ else fit coefficient (dropped + 1) scale

def shorten : Nat → Nat → Magnitude
  | n, 0 => ⟨n,0⟩
  | n, scale + 1 => if n % 10 = 0 then shorten (n / 10) scale else ⟨n,scale + 1⟩

def add (a b : Magnitude) : Option Magnitude :=
  let scale := max a.scale b.scale
  let left := a.coefficient * Nat.pow 10 (scale - a.scale)
  let right := b.coefficient * Nat.pow 10 (scale - b.scale)
  fit (left + right) 0 scale

def addWhole (n : Nat) : List Nat → Option Nat
  | [] => if n < 2 ^ 96 then some n else none
  | group :: rest => if n * 10000 + group < 2 ^ 96 then addWhole (n * 10000 + group) rest else none

/-- Adds groups of the fraction, the first of which ends at decimal place `place`. A group that
ends at place 32 only rounds the 28th digit, and later ones are ignored. -/
def addFraction (m : Magnitude) (place : Nat) : List Nat → Option Magnitude
  | [] => some m
  | group :: rest => do
    let m ←
      if place ≤ 28 then add m (shorten group place)
      else if place = 32 ∧ 5000 ≤ group then add m ⟨1,28⟩
      else some m
    addFraction m (place + 4) rest

/-- The power of ten thousand for whole groups that are left out at the end. It must fit in 96
bits itself, even where it multiplies zero. -/
def fillFactor (leftOut : Nat) : Option Nat :=
  if leftOut ≤ 7 then some (Nat.pow 10000 leftOut) else none

/-- The value of some groups, of which the first has weight `10000 ^ weight`. -/
def magnitude (weight : Int) (groups : List Nat) : Option Magnitude := do
  let wholeGroups := (weight + 1).toNat
  let whole ← addWhole 0 (groups.take wholeGroups)
  let factor ← fillFactor (wholeGroups - groups.length)
  let filled := whole * factor
  if filled < 2 ^ 96 then
    addFraction ⟨filled,0⟩ (4 * (1 + (-(weight + 1)).toNat)) (groups.drop wholeGroups)
  else none

/-- Sign words whose two highest bits are set stand for values that are not finite. -/
def isFinite (sign : Nat) : Bool := sign < 0xc000

def pairs : Bytes → List Nat
  | a :: b :: rest => (a.toNat * 256 + b.toNat) :: pairs rest
  | _ => []

def decode? (bytes : Bytes) : Option Decimal :=
  match pairs bytes with
  | count :: weight :: sign :: scale :: groups => do
    if groups.length < count ∨ !isFinite sign then none
    else
      let m ← magnitude ((weight : Int).bmod (2 ^ 16)) (groups.take count)
      let d ← Decimal.ofParts? (sign == 0x4000) m.coefficient m.scale
      some (d.rescale (min scale 28))
  | _ => none

end Numeric
end FluentSql.Wire

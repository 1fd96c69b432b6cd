/-! Hexadecimal digits. They are written in lower case and read in either. -/
namespace FluentSql.Hex

def pair (n : Nat) : List Char := [Nat.digitChar (n / 16),Nat.digitChar (n % 16)]

def value? (c : Char) : Option Nat :=
  if c.isDigit then some (c.toNat - '0'.toNat)
  else if 'a' ≤ c ∧ c ≤ 'f' then some (c.toNat - 'a'.toNat + 10)
  else if 'A' ≤ c ∧ c ≤ 'F' then some (c.toNat - 'A'.toNat + 10)
  else none

def render (bytes : List UInt8) : List Char := bytes.flatMap fun b => pair b.toNat

/-- Reads pairs of digits; what is not a pair is dropped and a stray character counts as zero,
so callers check the digits first. -/
def readPairs : List Char → List UInt8
  | a :: b :: rest => UInt8.ofNat ((value? a).getD 0 * 16 + (value? b).getD 0) :: readPairs rest
  | _ => []

end FluentSql.Hex

import FluentSql.Power

/-! Numbers and text as bytes. Numbers are written with the most significant byte first, and
negative ones in two's complement. -/
namespace FluentSql.Wire

abbrev Bytes := List UInt8

def bigEndian : Nat → Nat → Bytes
  | 0, _ => []
  | width + 1, n => bigEndian width (n / 256) ++ [UInt8.ofNat (n % 256)]

def ofBigEndian (bytes : Bytes) : Nat := bytes.foldl (fun n b => n * 256 + b.toNat) 0

def signedBigEndian (width : Nat) (n : Int) : Bytes :=
  bigEndian width (n % Nat.pow 256 width).toNat

def ofSignedBigEndian (bytes : Bytes) : Int :=
  (ofBigEndian bytes : Int).bmod (Nat.pow 256 bytes.length)

def ofText (s : String) : Bytes := s.toUTF8.data.toList

def toText? (bytes : Bytes) : Option String := String.fromUTF8? ⟨bytes.toArray⟩

@[simp] theorem bigEndian_length (width n : Nat) : (bigEndian width n).length = width := by
  induction width generalizing n with
  | zero => rfl
  | succ width ih => simp [bigEndian,ih]

theorem ofBigEndian_append_singleton (bytes : Bytes) (b : UInt8) :
    ofBigEndian (bytes ++ [b]) = ofBigEndian bytes * 256 + b.toNat := by
  simp [ofBigEndian,List.foldl_append]

theorem ofBigEndian_bigEndian (width n : Nat) :
    ofBigEndian (bigEndian width n) = n % Nat.pow 256 width := by
  induction width generalizing n with
  | zero => simp [bigEndian,ofBigEndian,Nat.mod_one]
  | succ width ih =>
    have power : Nat.pow 256 (width + 1) = 256 * Nat.pow 256 width := Nat.pow_succ'
    rw [bigEndian,ofBigEndian_append_singleton,ih,power,Nat.mod_mul]
    simp
    omega

end FluentSql.Wire

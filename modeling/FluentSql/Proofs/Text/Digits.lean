import FluentSql.Proofs.Text.Identifier
import FluentSql.Proofs.Text.Numeral
import Mathlib.Algebra.Group.Nat.Defs
import Mathlib.Data.List.Basic

/-! The digits of a number inside a text. They are read up to the first character that is no
digit, and zeros in front of them do not count. -/
namespace FluentSql

namespace Text

theorem ne_of_isDigit {c d : Char} (digit : c.isDigit = true) (plain : d.isDigit = false) :
    c ≠ d := by
  rintro rfl
  exact Bool.false_ne_true (plain.symm.trans digit)

/-- What follows does not go on with a digit. -/
def Stops (rest : List Char) : Prop := ∀ c ∈ rest.head?, c.isDigit = false

theorem stops_nil : Stops [] := nofun

theorem stops_cons {c : Char} (other : c.isDigit = false) (rest : List Char) :
    Stops (c :: rest) := by
  rintro d ⟨⟩
  exact other

variable {digits rest : List Char}

theorem takeWhile_isDigit_append (all : ∀ c ∈ digits, c.isDigit = true) (stops : Stops rest) :
    (digits ++ rest).takeWhile Char.isDigit = digits := by
  rw [List.takeWhile_append_of_pos all]
  cases rest with
  | nil => simp
  | cons c behind => simp [stops c rfl]

theorem dropWhile_isDigit_append (all : ∀ c ∈ digits, c.isDigit = true) (stops : Stops rest) :
    (digits ++ rest).dropWhile Char.isDigit = rest := by
  rw [List.dropWhile_append_of_pos all]
  cases rest with
  | nil => rfl
  | cons c behind => simp [stops c rfl]

theorem isBlank_of_isDigit {c : Char} (digit : c.isDigit = true) : isBlank c = false := by
  rw [Char.isDigit_iff_toNat] at digit
  change 48 ≤ c.toNat ∧ c.toNat ≤ 57 at digit
  simp only [isBlank,Bool.or_eq_false_iff,Bool.and_eq_false_iff,decide_eq_false_iff_not,
    beq_eq_false_iff_ne]
  omega

theorem skipBlanks_of_head {cs : List Char} (solid : ∀ c ∈ cs.head?, isBlank c = false) :
    skipBlanks cs = cs := by
  cases cs with
  | nil => rfl
  | cons c rest => exact skipBlanks_cons_of_not_blank rest (solid c rfl)

/-- Characters of which none is blank. -/
structure Solid (cs : List Char) : Prop where
  some : cs ≠ []
  all : ∀ c ∈ cs, isBlank c = false

namespace Solid

variable {cs ds : List Char}

theorem of_digits (some : cs ≠ []) (all : ∀ c ∈ cs, c.isDigit = true) : Solid cs :=
  ⟨some,fun c member => isBlank_of_isDigit (all c member)⟩

theorem cons {c : Char} (first : isBlank c = false) (solid : Solid cs) : Solid (c :: cs) :=
  ⟨List.cons_ne_nil c cs,List.forall_mem_cons.mpr ⟨first,solid.all⟩⟩

theorem append (front : Solid cs) (back : Solid ds) : Solid (cs ++ ds) :=
  ⟨List.append_ne_nil_of_left_ne_nil front.some ds,
    List.forall_mem_append.mpr ⟨front.all,back.all⟩⟩

theorem head (solid : Solid cs) (rest : List Char) :
    ∀ c ∈ (cs ++ rest).head?, isBlank c = false := by
  intro c member
  rw [List.head?_append_of_ne_nil cs solid.some] at member
  exact solid.all c (List.mem_of_head? member)

theorem last (solid : Solid cs) (front : List Char) :
    ∀ c ∈ (front ++ cs).getLast?, isBlank c = false := by
  intro c member
  rw [List.getLast?_append_of_ne_nil front solid.some] at member
  exact solid.all c (List.mem_of_getLast? member)

end Solid

/-- Blanks inside a text stay. -/
theorem trim_of_ends {cs : List Char} (first : ∀ c ∈ cs.head?, isBlank c = false)
    (last : ∀ c ∈ cs.getLast?, isBlank c = false) : trim cs = cs := by
  rw [trim,skipBlanks_of_head first,skipBlanks_of_head,List.reverse_reverse]
  intro c member
  exact last c (List.head?_reverse ▸ member)

theorem trim_of_solid {front back : List Char} (first : Solid front) (last : Solid back)
    (middle : List Char) : trim (front ++ (middle ++ back)) = front ++ (middle ++ back) :=
  trim_of_ends (first.head _) (List.append_assoc front middle back ▸ last.last _)

end Text

namespace Numeral
open Text

theorem isDigit_of_mem_toDigits {n : Nat} {c : Char} (member : c ∈ Nat.toDigits 10 n) :
    c.isDigit = true :=
  Nat.isDigit_of_mem_toDigits (by decide) (by decide) member

theorem isDigit_of_mem_padded {width n : Nat} {c : Char} (member : c ∈ padded width n) :
    c.isDigit = true := by
  rcases List.mem_append.mp member with zero | digit
  · rw [(List.mem_replicate.mp zero).2]
    rfl
  · exact isDigit_of_mem_toDigits digit

theorem length_padded {width n : Nat} (some : 0 < width) (fits : n < 10 ^ width) :
    (padded width n).length = width := by
  have short := (Nat.length_toDigits_le_iff (b := 10) (by decide) some).mpr fits
  rw [padded,List.length_append,List.length_replicate]
  omega

theorem le_length_padded (width n : Nat) : width ≤ (padded width n).length := by
  rw [padded,List.length_append,List.length_replicate]
  omega

theorem solid_padded {width : Nat} (some : 0 < width) (n : Nat) : Solid (padded width n) :=
  .of_digits (List.ne_nil_of_length_pos (Nat.lt_of_lt_of_le some (le_length_padded width n)))
    fun _ => isDigit_of_mem_padded

theorem ofDigitChars_padded (width n : Nat) : Nat.ofDigitChars 10 (padded width n) 0 = n := by
  rw [padded,Nat.ofDigitChars_append,Nat.ofDigitChars_replicate_zero,Nat.mul_zero,
    Nat.ofDigitChars_ten_toDigits]

theorem solid_renderInt (n : Int) : Solid (renderInt n) := by
  have digits : Solid (Nat.toDigits 10 n.natAbs) :=
    .of_digits Nat.toDigits_ne_nil fun _ => isDigit_of_mem_toDigits
  rw [renderInt]
  split
  · exact digits.cons rfl
  · exact digits

theorem natural?_toDigits (n : Nat) : natural? (Nat.toDigits 10 n) = some n := by
  have digits : (Nat.toDigits 10 n).all Char.isDigit = true :=
    List.all_eq_true.mpr fun _ => isDigit_of_mem_toDigits
  rw [natural?,if_pos ⟨Nat.toDigits_ne_nil,digits⟩,Nat.ofDigitChars_ten_toDigits]

theorem integer?_renderInt (n : Int) : integer? (renderInt n) = some n := by
  have read := natural?_toDigits n.natAbs
  rw [renderInt]
  split
  next negative =>
    have value : -(n.natAbs : Int) = n := by omega
    rw [integer?,read]
    exact congrArg some value
  next positive =>
    cases text : Nat.toDigits 10 n.natAbs with
    | nil => exact absurd text Nat.toDigits_ne_nil
    | cons c rest =>
      have digit : c.isDigit = true := isDigit_of_mem_toDigits (text ▸ List.mem_cons_self)
      have minus : c ≠ '-' := ne_of_isDigit digit rfl
      have plus : c ≠ '+' := ne_of_isDigit digit rfl
      have value : Int.ofNat n.natAbs = n := Int.natAbs_of_nonneg (Int.not_lt.mp positive)
      rw [integer?.eq_2 _ (by simpa using minus),unsigned?.eq_2 _ (by simpa using plus),← text,read]
      exact congrArg some value

theorem renderInt_eq (n : Int) : (toString n).toList = renderInt n := by
  change n.repr.toList = _
  rw [Int.repr_eq_if,renderInt]
  rcases Int.lt_or_le n 0 with negative | positive
  · have size : (-n).toNat = n.natAbs := by omega
    have sign : "-".toList = ['-'] := rfl
    rw [if_neg (Int.not_le.mpr negative),if_pos negative,size,Nat.repr_eq_ofList_toDigits,
      String.toList_append,sign,String.toList_ofList]
    rfl
  · have size : n.toNat = n.natAbs := by omega
    rw [if_pos positive,if_neg (Int.not_lt.mpr positive),size,Nat.repr_eq_ofList_toDigits,
      String.toList_ofList]

end Numeral
end FluentSql

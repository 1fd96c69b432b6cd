import FluentSql.Proofs.Traversal
import FluentSql.Text.Numeral

/-! What numerals mean. A numeral is a sign, that may be missing, and at least one digit. Reading
gives the number that a numeral means wherever it lies within the limits, and fails for all other
texts. -/
namespace FluentSql.Numeral

def natural? (cs : List Char) : Option Nat :=
  if cs ≠ [] ∧ cs.all Char.isDigit = true then some (Nat.ofDigitChars 10 cs 0) else none

def unsigned? : List Char → Option Nat
  | '+' :: rest => natural? rest
  | cs => natural? cs

def integer? : List Char → Option Int
  | '-' :: rest => (natural? rest).map fun n : Nat => -(n : Int)
  | cs => (unsigned? cs).map Int.ofNat

variable {limit least greatest acc n : Nat} {beyond : RangeError} {cs : List Char}

theorem ofDigitChars_cons (c : Char) (cs : List Char) (acc : Nat) :
    Nat.ofDigitChars 10 (c :: cs) acc = Nat.ofDigitChars 10 cs (acc * 10 + digitValue c) := by
  rw [Nat.ofDigitChars_cons,Nat.mul_comm,digitValue]

theorem le_ofDigitChars (cs : List Char) (acc : Nat) : acc ≤ Nat.ofDigitChars 10 cs acc := by
  induction cs generalizing acc with
  | nil => exact Nat.le_refl acc
  | cons c rest ih =>
    have longer := ih (acc * 10 + digitValue c)
    rw [ofDigitChars_cons]
    omega

/-- No digit can make the number smaller again, so it stays below the limit all the way. -/
theorem readDigits_ok_iff (fits : acc ≤ limit) : readDigits limit beyond acc cs = .ok n ↔
    cs.all Char.isDigit = true ∧ Nat.ofDigitChars 10 cs acc = n ∧ n ≤ limit := by
  induction cs generalizing acc with
  | nil =>
    simp only [readDigits,Except.ok.injEq,List.all_nil,Nat.ofDigitChars_nil,true_and]
    constructor
    · rintro rfl
      exact ⟨rfl,fits⟩
    · exact And.left
  | cons c rest ih =>
    rw [readDigits,List.all_cons,ofDigitChars_cons]
    by_cases digit : c.isDigit = true
    · rw [if_pos digit,digit,Bool.true_and]
      by_cases tooLarge : limit < acc * 10 + digitValue c
      · have beyondLimit := le_ofDigitChars rest (acc * 10 + digitValue c)
        simp only [if_pos tooLarge,reduceCtorEq,false_iff]
        rintro ⟨_,rfl,small⟩
        omega
      · simp only [if_neg tooLarge]
        exact ih (Nat.not_lt.mp tooLarge)
    · simp [digit]

theorem readDigits_ok_iff_natural? (nonempty : cs ≠ []) :
    readDigits limit beyond 0 cs = .ok n ↔ natural? cs = some n ∧ n ≤ limit := by
  rw [readDigits_ok_iff (Nat.zero_le limit),natural?]
  by_cases digits : cs.all Char.isDigit = true <;> simp [nonempty,digits]

theorem readNat_ok_iff : readNat limit cs = .ok n ↔ unsigned? cs = some n ∧ n ≤ limit := by
  rw [readNat.eq_def]
  split
  · simp [unsigned?,natural?]
  · simp [unsigned?,natural?]
  next rest alone =>
    rw [unsigned?]
    exact readDigits_ok_iff_natural? fun empty => alone (by rw [empty])
  next empty _ plain =>
    rw [unsigned?.eq_2 _ plain]
    exact readDigits_ok_iff_natural? empty

theorem readInt_ok_iff {k : Int} : readInt least greatest cs = .ok k ↔
    integer? cs = some k ∧ -(least : Int) ≤ k ∧ k ≤ greatest := by
  rw [readInt.eq_def]
  split
  · simp [integer?,natural?]
  next rest alone =>
    have nonempty : rest ≠ [] := fun empty => alone (by rw [empty])
    rw [integer?,Traversal.map_ok_iff,Option.map_eq_some_iff]
    simp only [readDigits_ok_iff_natural? nonempty]
    constructor
    · rintro ⟨n,⟨numeral,fits⟩,rfl⟩
      exact ⟨⟨n,numeral,rfl⟩,by omega,by omega⟩
    · rintro ⟨⟨n,numeral,rfl⟩,low,_⟩
      exact ⟨n,⟨numeral,by omega⟩,rfl⟩
  next _ unsignedForm =>
    rw [integer?.eq_2 _ unsignedForm,Traversal.map_ok_iff,Option.map_eq_some_iff]
    simp only [readNat_ok_iff]
    constructor
    · rintro ⟨n,⟨numeral,fits⟩,rfl⟩
      exact ⟨⟨n,numeral,rfl⟩,by simp only [Int.ofNat_eq_natCast]; omega,Int.ofNat_le.mpr fits⟩
    · rintro ⟨⟨n,numeral,rfl⟩,_,high⟩
      exact ⟨n,⟨numeral,Int.ofNat_le.mp high⟩,rfl⟩

theorem readInt64_ok_iff {n : Int64} : readInt64 cs = .ok n ↔ integer? cs = some n.toInt := by
  have low := Int64.le_toInt n
  have high := Int64.toInt_lt n
  rw [readInt64,Traversal.map_ok_iff]
  simp only [readInt_ok_iff]
  constructor
  · rintro ⟨k,⟨numeral,above,below⟩,rfl⟩
    rw [numeral,Int64.toInt_ofInt_of_le (by omega) (by omega)]
  · intro numeral
    exact ⟨n.toInt,⟨numeral,by omega,by omega⟩,Int64.ofInt_toInt n⟩

end FluentSql.Numeral

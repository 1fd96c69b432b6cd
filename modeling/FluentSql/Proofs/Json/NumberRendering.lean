import FluentSql.Json.Printer
import FluentSql.Proofs.Binary.Integer
import FluentSql.Proofs.Binary.Shortest
import FluentSql.Proofs.Json.Literal

/-! The numbers of a JSON document as they are written out. An integer is written in full, and a
double as the shortest decimal that reads back as it. -/
namespace FluentSql.Json
open Binary Numeral Text

/-- The text is that of a number, which it denotes exactly. -/
def IsNumber (cs : List Char) (q : ℚ) : Prop := ∃ lit : Literal, lit.chars = cs ∧ lit.value = q

theorem head?_toDigits {n : ℕ} (zero : (Nat.toDigits 10 n).head? = some '0') : n = 0 := by
  induction n using Nat.strongRecOn with
  | ind n ih =>
    rcases Nat.lt_or_ge n 10 with digit | more
    · rw [Nat.toDigits_of_lt_base digit] at zero
      have digits : ∀ d < 10, [Nat.digitChar d].head? = some '0' → d = 0 := by decide
      exact digits n digit zero
    · rw [Nat.toDigits_of_base_le (by decide) more,
        List.head?_append_of_ne_nil _ Nat.toDigits_ne_nil] at zero
      have := ih (n / 10) (by omega) zero
      omega

namespace Digits

def ofNat (n : ℕ) : Digits := ⟨Nat.toDigits 10 n,Nat.toDigits_ne_nil,fun _ => isDigit_of_mem_toDigits⟩

theorem leading_ofNat (n : ℕ) :
    (ofNat n).chars.head? = some '0' → (ofNat n).chars.length = 1 := by
  intro zero
  rw [head?_toDigits zero]
  rfl

end Digits

theorem isNumber_renderInt (n : ℤ) : IsNumber (renderInt n) n := by
  refine ⟨⟨decide (n < 0),.ofNat n.natAbs,none,none,Digits.leading_ofNat _⟩,?_,?_⟩
  · rw [Literal.chars,Literal.sign,renderInt]
    by_cases negative : n < 0
    · rw [if_pos (decide_eq_true negative),if_pos negative]
      exact congrArg (List.cons '-') (List.append_nil _)
    · rw [if_neg (by simpa using negative),if_neg negative]
      exact List.append_nil _
  · have coefficient : Nat.ofDigitChars 10 (Nat.toDigits 10 n.natAbs ++ []) 0 = n.natAbs := by
      rw [List.append_nil,Nat.ofDigitChars_ten_toDigits]
    change withSign _ ((Nat.ofDigitChars 10 (Nat.toDigits 10 n.natAbs ++ []) 0 : ℕ) * 10 ^ (0 : ℤ)) = _
    rw [coefficient,zpow_zero,mul_one,← intCast_eq_withSign]

section Scientific

variable {s : Scientific}

theorem ofDigitChars_digits (s : Scientific) : Nat.ofDigitChars 10 s.digits 0 = s.coefficient :=
  Nat.ofDigitChars_ten_toDigits

theorem isDigit_of_mem_zeros {count : ℕ} {c : Char} (member : c ∈ List.replicate count '0') :
    c.isDigit = true := by
  rw [List.eq_of_mem_replicate member]
  rfl

/-- Digits with a point and a power of ten somewhere. -/
theorem isNumber_of_parts (negative : Bool) (whole : Digits) (fraction : Option Digits)
    (power : Option Power) (c : ℕ) {cs : List Char} {q : ℚ}
    (text : whole.chars ++ endingChars fraction power = cs)
    (leading : whole.chars.head? = some '0' → whole.chars.length = 1)
    (coefficient : Nat.ofDigitChars 10 (whole.chars ++ fraction.elim [] Digits.chars) 0 = c)
    (value : (c : ℚ) * 10 ^ (power.elim 0 Power.exponent -
      (fraction.elim [] Digits.chars).length) = q) :
    IsNumber (signChars negative ++ cs) (withSign negative q) := by
  refine ⟨⟨negative,whole,fraction,power,leading⟩,?_,?_⟩
  · rw [← text]
    cases negative <;> rfl
  · rw [← value,← coefficient]
    rfl

theorem digits_ne_nil (s : Scientific) : s.digits ≠ [] := Nat.toDigits_ne_nil

theorem isDigit_of_mem_digits {c : Char} (member : c ∈ s.digits) : c.isDigit = true :=
  isDigit_of_mem_toDigits member

/-- Zeros stand between the point and the digits. -/
theorem isNumber_below (negative : Bool) (zeros : ℕ)
    (exponent : s.exponent + s.digits.length = -zeros) :
    IsNumber (signChars negative ++ '0' :: '.' :: (List.replicate zeros '0' ++ s.digits))
      (withSign negative s.value) := by
  let fraction : Digits := ⟨List.replicate zeros '0' ++ s.digits,
    List.append_ne_nil_of_right_ne_nil _ (digits_ne_nil s),
    List.forall_mem_append.mpr ⟨fun _ => isDigit_of_mem_zeros,fun _ => isDigit_of_mem_digits⟩⟩
  refine isNumber_of_parts negative (.ofNat 0) fraction none s.coefficient ?_ (Digits.leading_ofNat 0) ?_ ?_
  · exact congrArg (fun cs => '0' :: '.' :: cs) (List.append_nil _)
  · change Nat.ofDigitChars 10 (List.replicate (zeros + 1) '0' ++ s.digits) 0 = _
    rw [Nat.ofDigitChars_append,Nat.ofDigitChars_replicate_zero,Nat.mul_zero,ofDigitChars_digits]
  · have place : (0 : ℤ) - (List.replicate zeros '0' ++ s.digits).length = s.exponent := by
      rw [List.length_append,List.length_replicate]
      omega
    exact congrArg (fun e : ℤ => (s.coefficient : ℚ) * 10 ^ e) place

/-- Zeros stand between the digits and the point. -/
theorem isNumber_whole (negative : Bool) (some : 0 < s.coefficient) (zeros : ℕ)
    (exponent : s.exponent = zeros) :
    IsNumber (signChars negative ++ (s.digits ++ List.replicate zeros '0' ++ ['.','0']))
      (withSign negative s.value) := by
  let whole : Digits := ⟨s.digits ++ List.replicate zeros '0',
    List.append_ne_nil_of_left_ne_nil (digits_ne_nil s) _,
    List.forall_mem_append.mpr ⟨fun _ => isDigit_of_mem_digits,fun _ => isDigit_of_mem_zeros⟩⟩
  refine isNumber_of_parts negative whole (Option.some (.ofNat 0)) none
    (s.coefficient * 10 ^ (zeros + 1)) rfl ?_ ?_ ?_
  · intro zero
    rw [List.head?_append_of_ne_nil _ (digits_ne_nil s)] at zero
    exact absurd (head?_toDigits zero) (Nat.ne_of_gt some)
  · change Nat.ofDigitChars 10 (s.digits ++ List.replicate zeros '0' ++ List.replicate 1 '0') 0 = _
    rw [List.append_assoc,List.replicate_append_replicate,Nat.ofDigitChars_append,
      ofDigitChars_digits,Nat.ofDigitChars_replicate_zero,Nat.mul_comm]
  · change ((s.coefficient * 10 ^ (zeros + 1) : ℕ) : ℚ) * 10 ^ (-1 : ℤ) = s.value
    rw [Scientific.value,exponent,Nat.cast_mul,Nat.cast_pow,Nat.cast_ofNat,mul_assoc,
      ← zpow_natCast,← zpow_add₀ (by norm_num)]
    push_cast
    rw [add_neg_cancel_right]

/-- The point stands between two digits. -/
theorem isNumber_inside (negative : Bool) (some : 0 < s.coefficient) (before : ℕ)
    (front : 0 < before) (back : before < s.digits.length)
    (exponent : s.exponent + s.digits.length = before) :
    IsNumber (signChars negative ++ (s.digits.take before ++ '.' :: s.digits.drop before))
      (withSign negative s.value) := by
  let whole : Digits := ⟨s.digits.take before,
    List.ne_nil_of_length_pos (by rw [List.length_take]; omega),
    fun _ member => isDigit_of_mem_digits (List.mem_of_mem_take member)⟩
  let fraction : Digits := ⟨s.digits.drop before,
    List.ne_nil_of_length_pos (by rw [List.length_drop]; omega),
    fun _ member => isDigit_of_mem_digits (List.mem_of_mem_drop member)⟩
  refine isNumber_of_parts negative whole (Option.some fraction) none s.coefficient ?_ ?_ ?_ ?_
  · exact congrArg (fun cs => s.digits.take before ++ '.' :: cs) (List.append_nil _)
  · intro zero
    change (s.digits.take before).head? = _ at zero
    rw [List.head?_take,if_neg (Nat.ne_of_gt front)] at zero
    exact absurd (head?_toDigits zero) (Nat.ne_of_gt some)
  · change Nat.ofDigitChars 10 (s.digits.take before ++ s.digits.drop before) 0 = _
    rw [List.take_append_drop,ofDigitChars_digits]
  · have place : (0 : ℤ) - (s.digits.drop before).length = s.exponent := by
      rw [List.length_drop]
      omega
    exact congrArg (fun e : ℤ => (s.coefficient : ℚ) * 10 ^ e) place

theorem isNumber_positional (negative : Bool) (some : 0 < s.coefficient) :
    IsNumber (signChars negative ++ s.positional ['.','0']) (withSign negative s.value) := by
  have lead : s.leadingExponent + 1 = s.exponent + s.digits.length := by
    rw [Scientific.leadingExponent]
    omega
  simp only [Scientific.positional,lead]
  split
  next below => exact isNumber_below negative _ (by omega)
  next above =>
    split
    next whole => exact isNumber_whole negative some _ (by omega)
    next inside => exact isNumber_inside negative some _ (by omega) (by omega) (by omega)

def fractionOf (cs : List Char) (all : ∀ c ∈ cs, c.isDigit = true) : Option Digits :=
  if some : cs = [] then none else Option.some ⟨cs,some,all⟩

theorem fractionOf_chars {cs : List Char} (all : ∀ c ∈ cs, c.isDigit = true) :
    (fractionOf cs all).elim [] Digits.chars = cs := by
  cases cs with
  | nil => rfl
  | cons c rest => rfl

theorem withExponent_eq (s : Scientific) (later : ∀ c ∈ s.digits.drop 1, c.isDigit = true) :
    s.withExponent = s.digits.take 1 ++ (fractionChars (fractionOf (s.digits.drop 1) later) ++
      'e' :: (if s.leadingExponent < 0 then '-' else '+') ::
        Nat.toDigits 10 s.leadingExponent.natAbs) := by
  rw [Scientific.withExponent,List.append_assoc]
  generalize s.digits.drop 1 = tail at later
  cases tail with
  | nil => rfl
  | cons c rest => rfl

theorem isNumber_withExponent (negative : Bool) (s : Scientific) :
    IsNumber (signChars negative ++ s.withExponent) (withSign negative s.value) := by
  have length := List.length_pos_of_ne_nil (digits_ne_nil s)
  let whole : Digits := ⟨s.digits.take 1,
    List.ne_nil_of_length_pos (by rw [List.length_take]; omega),
    fun _ member => isDigit_of_mem_digits (List.mem_of_mem_take member)⟩
  have later : ∀ c ∈ s.digits.drop 1, c.isDigit = true :=
    fun _ member => isDigit_of_mem_digits (List.mem_of_mem_drop member)
  let power : Power :=
    ⟨false,if s.leadingExponent < 0 then .minus else .plus,.ofNat s.leadingExponent.natAbs⟩
  have fraction := fractionOf_chars later
  have size : power.digits.value = s.leadingExponent.natAbs := Nat.ofDigitChars_ten_toDigits
  have exponent : power.exponent = s.leadingExponent := by
    rw [Power.exponent,size]
    by_cases below : s.leadingExponent < 0
    · rw [if_pos (if_pos below)]
      omega
    · have plus : power.sign = .plus := if_neg below
      rw [if_neg (plus ▸ nofun)]
      omega
  refine isNumber_of_parts negative whole (fractionOf _ later) (Option.some power) s.coefficient
    ?_ ?_ ?_ ?_
  · rw [withExponent_eq s later,endingChars]
    refine congrArg (fun cs => s.digits.take 1 ++ (fractionChars _ ++ 'e' :: cs)) ?_
    change power.sign.chars ++ Nat.toDigits 10 s.leadingExponent.natAbs = _
    by_cases below : s.leadingExponent < 0
    · rw [if_pos below,show power.sign = .minus from if_pos below]
      rfl
    · rw [if_neg below,show power.sign = .plus from if_neg below]
      rfl
  · intro _
    change (s.digits.take 1).length = 1
    rw [List.length_take]
    omega
  · rw [fraction]
    change Nat.ofDigitChars 10 (s.digits.take 1 ++ s.digits.drop 1) 0 = _
    rw [List.take_append_drop,ofDigitChars_digits]
  · rw [fraction,List.length_drop]
    change (s.coefficient : ℚ) * 10 ^ (power.exponent - ((s.digits.length - 1 : ℕ) : ℤ)) = s.value
    have place : power.exponent - ((s.digits.length - 1 : ℕ) : ℤ) = s.exponent := by
      rw [exponent,Scientific.leadingExponent]
      omega
    rw [place,Scientific.value]

end Scientific

namespace Number

/-- The number that is written. -/
def written : Number → ℚ
  | .natural n => n.toNat
  | .negative n => n.toInt
  | .real x =>
    if x.isZero then 0 else withSign x.negative (shortest .even double x.magnitude).value

theorem isNumber_render (n : Number) : IsNumber n.render.toList n.written := by
  cases n with
  | natural n =>
    have text : (toString n.toNat).toList = renderInt (n.toNat : ℤ) := by
      rw [← renderInt_eq]
      rfl
    have number := isNumber_renderInt n.toNat
    rw [← text] at number
    exact number
  | negative n =>
    have number := isNumber_renderInt n.toInt
    rw [← renderInt_eq] at number
    exact number
  | real x =>
    simp only [render,Binary64.renderJson,Format.renderJson,written,String.toList_ofList]
    by_cases zero : x.magnitude = 0
    · have nought : (0 : ℚ) = withSign x.negative 0 := by
        rw [withSign]
        split <;> simp
      rw [if_pos zero,if_pos (show x.isZero = true from beq_iff_eq.mpr zero),nought]
      exact isNumber_of_parts x.negative (.ofNat 0) (some (.ofNat 0)) none 0 rfl
        (Digits.leading_ofNat 0) rfl (by simp)
    · obtain ⟨positive,-⟩ := coefficient_shortest .even double (Nat.pos_of_ne_zero zero)
      rw [if_neg zero,if_neg (show ¬x.isZero = true from mt beq_iff_eq.mp zero)]
      split
      · exact isNumber_positional x.negative positive
      · exact isNumber_withExponent x.negative _

end Number
end FluentSql.Json

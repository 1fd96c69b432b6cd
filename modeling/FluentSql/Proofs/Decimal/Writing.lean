import FluentSql.Decimal.Reader
import FluentSql.Proofs.Text.Digits
import FluentSql.Proofs.Text.Numeral
import FluentSql.Wire.Numeric

/-! Decimals read back from their text, with all their digits and their scale. A negative zero
loses its sign, which its wire form does not have either. -/
namespace FluentSql.Decimal
open Text Numeral

variable {digits rest : List Char} {acc scale : Nat} {seen : Bool}

theorem readWhole_append (all : ∀ c ∈ digits, c.isDigit = true)
    (fits : Nat.ofDigitChars 10 digits acc < 2 ^ 96) (begun : seen = true ∨ digits ≠ []) :
    readWhole acc seen (digits ++ rest) = readWhole (Nat.ofDigitChars 10 digits acc) true rest := by
  induction digits generalizing acc seen with
  | nil => rw [begun.resolve_right (· rfl),List.nil_append,Nat.ofDigitChars_nil]
  | cons c digits ih =>
    obtain ⟨digit,later⟩ := List.forall_mem_cons.mp all
    rw [ofDigitChars_cons] at fits ⊢
    have below := Nat.lt_of_le_of_lt (le_ofDigitChars digits _) fits
    rw [List.cons_append,readWhole,if_pos digit]
    simp only [if_neg (Nat.not_le.mpr below)]
    exact ih later fits (.inl rfl)

/-- With the 28th digit the reader looks at what is left, which is nothing here. -/
theorem readFraction_eq (all : ∀ c ∈ digits, c.isDigit = true)
    (fits : Nat.ofDigitChars 10 digits acc < 2 ^ 96) (places : scale + digits.length ≤ 28)
    (begun : seen = true ∨ digits ≠ []) :
    readFraction acc scale seen digits =
      .ok (Nat.ofDigitChars 10 digits acc,scale + digits.length) := by
  induction digits generalizing acc scale seen with
  | nil => rw [begun.resolve_right (· rfl),readFraction,if_pos rfl]; rfl
  | cons c digits ih =>
    obtain ⟨digit,later⟩ := List.forall_mem_cons.mp all
    rw [ofDigitChars_cons] at fits ⊢
    have below := Nat.lt_of_le_of_lt (le_ofDigitChars digits _) fits
    have longer : scale + (c :: digits).length = scale + 1 + digits.length := by
      rw [List.length_cons]
      omega
    rw [longer] at places ⊢
    rw [readFraction,if_pos digit]
    simp only [if_neg (Nat.not_le.mpr below)]
    split
    next last =>
      have nothing : digits = [] := List.eq_nil_of_length_eq_zero (by omega)
      subst nothing
      rw [roundAtCapacity,last]
      rfl
    · exact ih later fits places (.inl rfl)

theorem readWhole_fraction : readWhole acc seen ('.' :: rest) = readFraction acc 0 seen rest := by
  rw [readWhole,if_neg (by decide),if_pos rfl]

/-- The digits of a decimal, without its sign. -/
def renderDigits (d : Decimal) : List Char :=
  Nat.toDigits 10 (d.coefficient / d.unit) ++
    if d.scale = 0 then [] else '.' :: padded d.scale (d.coefficient % d.unit)

theorem render_eq (d : Decimal) :
    d.render = (if d.negative then ['-'] else []) ++ d.renderDigits := by
  simp only [render,renderDigits,List.append_assoc]

theorem readWhole_renderDigits (d : Decimal) :
    readWhole 0 false d.renderDigits = .ok (d.coefficient,d.scale) := by
  have positive : 0 < d.unit := Nat.pow_pos (by decide)
  have below := d.coefficient_lt
  have whole : Nat.ofDigitChars 10 (Nat.toDigits 10 (d.coefficient / d.unit)) 0 =
      d.coefficient / d.unit := Nat.ofDigitChars_ten_toDigits
  have fits : Nat.ofDigitChars 10 (Nat.toDigits 10 (d.coefficient / d.unit)) 0 < 2 ^ 96 := by
    rw [whole]
    exact Nat.lt_of_le_of_lt (Nat.div_le_self _ _) below
  rw [renderDigits,readWhole_append (fun _ => isDigit_of_mem_toDigits) fits
    (.inr Nat.toDigits_ne_nil),whole]
  split
  next integral =>
    have one : d.unit = 1 := by rw [unit,integral]
    rw [readWhole,if_pos rfl,one,Nat.div_one,integral]
  next fractional =>
    have length : (padded d.scale (d.coefficient % d.unit)).length = d.scale :=
      length_padded (Nat.pos_of_ne_zero fractional) (Nat.mod_lt d.coefficient positive)
    have value : Nat.ofDigitChars 10 (padded d.scale (d.coefficient % d.unit))
        (d.coefficient / d.unit) = d.coefficient := by
      rw [Nat.ofDigitChars_eq_ofDigitChars_zero,ofDigitChars_padded,length]
      exact Nat.div_add_mod d.coefficient d.unit
    rw [readWhole_fraction,readFraction_eq (fun _ => isDigit_of_mem_padded) (by rw [value]; exact below)
      (by rw [length,Nat.zero_add]; exact d.scale_le) (.inl rfl),value,length,Nat.zero_add]

/-- A zero has no sign. -/
def unsignZero (d : Decimal) : Decimal := { d with negative := d.negative && d.coefficient != 0 }

theorem signed_eq (d : Decimal) : signed d.negative (d.coefficient,d.scale) = .ok d.unsignZero := by
  rw [signed,ofParts?,dif_pos ⟨d.coefficient_lt,d.scale_le⟩]
  rfl

theorem exists_renderDigits (d : Decimal) : ∃ c behind, d.renderDigits = c :: behind ∧
    c.isDigit = true := by
  cases whole : Nat.toDigits 10 (d.coefficient / d.unit) with
  | nil => exact absurd whole Nat.toDigits_ne_nil
  | cons c behind =>
    rw [renderDigits,whole]
    exact ⟨c,_,rfl,isDigit_of_mem_toDigits (whole ▸ List.mem_cons_self)⟩

theorem readPlain_render (d : Decimal) : readPlain d.render = .ok d.unsignZero := by
  have digits := d.readWhole_renderDigits
  have sign := d.signed_eq
  rw [render_eq]
  cases negative : d.negative with
  | true =>
    rw [negative] at sign
    change readWhole 0 false d.renderDigits >>= signed true = _
    rw [digits]
    exact sign
  | false =>
    rw [negative] at sign
    obtain ⟨c,behind,text,digit⟩ := d.exists_renderDigits
    have minus : c ≠ '-' := ne_of_isDigit digit rfl
    have plus : c ≠ '+' := ne_of_isDigit digit rfl
    change readPlain d.renderDigits = _
    rw [text] at digits ⊢
    rw [readPlain.eq_4 _ (by simp) (by simpa using minus) (by simpa using plus),digits]
    exact sign

theorem read_render (d : Decimal) : Decimal.read d.render = .ok d.unsignZero := by
  simp only [Decimal.read,readPlain_render]

theorem solid_render (d : Decimal) : Solid d.render := by
  have whole : Solid (Nat.toDigits 10 (d.coefficient / d.unit)) :=
    .of_digits Nat.toDigits_ne_nil fun _ => isDigit_of_mem_toDigits
  have digits : Solid d.renderDigits := by
    rw [renderDigits]
    split
    · rw [List.append_nil]
      exact whole
    next fractional => exact whole.append ((solid_padded (Nat.pos_of_ne_zero fractional) _).cons rfl)
  rw [render_eq]
  cases d.negative with
  | true => exact digits.cons rfl
  | false => exact digits

theorem encode_unsignZero (d : Decimal) : Wire.Numeric.encode d.unsignZero = Wire.Numeric.encode d := by
  cases zero : d.isZero with
  | true =>
    have same : d.unsignZero.isZero = true := zero
    rw [Wire.Numeric.encode,Wire.Numeric.encode,if_pos same,if_pos zero]
  | false =>
    have same : d.unsignZero = d := by
      have nonzero : (d.coefficient != 0) = true := by
        rw [bne,← isZero,zero]
        rfl
      rw [unsignZero,nonzero,Bool.and_true]
    rw [same]

/-- A whole number has the same text as a decimal. -/
theorem render_ofInt64 (n : Int64) : (ofInt64 n).render = renderInt n.toInt := by
  have sign : (ofInt64 n).negative = decide (n.toInt < 0) := decide_eq_decide.mpr Int64.lt_iff_toInt_lt
  have whole : (ofInt64 n).coefficient / (ofInt64 n).unit = n.toInt.natAbs := Nat.div_one _
  have digits : (ofInt64 n).renderDigits = Nat.toDigits 10 n.toInt.natAbs := by
    rw [renderDigits,whole,if_pos (show (ofInt64 n).scale = 0 from rfl),List.append_nil]
  rw [render_eq,sign,digits,renderInt]
  by_cases negative : n.toInt < 0 <;> simp [negative]

end FluentSql.Decimal

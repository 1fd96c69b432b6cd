import FluentSql.Proofs.Text.Digits
import FluentSql.Proofs.Value.Number

/-! The numbers of JSON as they are written, with all their digits. A text starts with one number at
most, which goes as far as the digits do. -/
namespace FluentSql.Json
open Text

structure Digits where
  chars : List Char
  ne_nil : chars ≠ []
  all : ∀ c ∈ chars, c.isDigit = true
  deriving DecidableEq

def Digits.value (d : Digits) : ℕ := Nat.ofDigitChars 10 d.chars 0

inductive Sign
  | absent
  | plus
  | minus
  deriving DecidableEq

def Sign.chars : Sign → List Char
  | .absent => []
  | .plus => ['+']
  | .minus => ['-']

/-- The power of ten behind a number. -/
structure Power where
  upper : Bool
  sign : Sign
  digits : Digits
  deriving DecidableEq

namespace Power

def mark (p : Power) : Char := if p.upper then 'E' else 'e'

def chars (p : Power) : List Char := p.mark :: (p.sign.chars ++ p.digits.chars)

def exponent (p : Power) : ℤ := if p.sign = .minus then -(p.digits.value : ℤ) else p.digits.value

end Power

structure Literal where
  negative : Bool
  whole : Digits
  fraction : Option Digits
  power : Option Power
  leading : whole.chars.head? = some '0' → whole.chars.length = 1
  deriving DecidableEq

def powerChars (power : Option Power) : List Char := power.elim [] Power.chars

def fractionChars (fraction : Option Digits) : List Char :=
  fraction.elim [] fun digits => '.' :: digits.chars

/-- What stands behind the whole digits. -/
def endingChars (fraction : Option Digits) (power : Option Power) : List Char :=
  fractionChars fraction ++ powerChars power

namespace Literal

def fractionDigits (lit : Literal) : List Char := lit.fraction.elim [] Digits.chars

def sign (lit : Literal) : Sign := if lit.negative then .minus else .absent

def chars (lit : Literal) : List Char :=
  lit.sign.chars ++ (lit.whole.chars ++ endingChars lit.fraction lit.power)

def coefficient (lit : Literal) : ℕ :=
  Nat.ofDigitChars 10 (lit.whole.chars ++ lit.fractionDigits) 0

def exponent (lit : Literal) : ℤ := lit.power.elim 0 Power.exponent - lit.fractionDigits.length

/-- The number that is written, exactly. -/
def value (lit : Literal) : ℚ := withSign lit.negative (lit.coefficient * 10 ^ lit.exponent)

end Literal

variable {rest : List Char} {fraction : Option Digits} {power : Option Power}

/-- What follows does not go on with the number. -/
structure EndsNumber (fraction : Option Digits) (power : Option Power) (rest : List Char) : Prop where
  stops : Stops rest
  noPower : power = none → ∀ c ∈ rest.head?, c ≠ 'e' ∧ c ≠ 'E'
  noPoint : power = none → fraction = none → ∀ c ∈ rest.head?, c ≠ '.'

def Literal.Ends (lit : Literal) (rest : List Char) : Prop :=
  EndsNumber lit.fraction lit.power rest

theorem Literal.ends_nil (lit : Literal) : lit.Ends [] := ⟨stops_nil,nofun,nofun⟩

theorem exists_head_digits (d : Digits) (rest : List Char) :
    ∃ c behind, d.chars ++ rest = c :: behind ∧ c.isDigit = true := by
  cases text : d.chars with
  | nil => exact absurd text d.ne_nil
  | cons c behind => exact ⟨c,behind ++ rest,rfl,d.all c (text ▸ List.mem_cons_self)⟩

/-- Digits, and after them a character that is none, are told apart in one way. -/
theorem digits_append_inj {d d' : Digits} {rest' : List Char} (stops : Stops rest)
    (stops' : Stops rest') (same : d.chars ++ rest = d'.chars ++ rest') : d = d' ∧ rest = rest' := by
  have front := congrArg (List.takeWhile Char.isDigit) same
  have back := congrArg (List.dropWhile Char.isDigit) same
  rw [takeWhile_isDigit_append d.all stops,takeWhile_isDigit_append d'.all stops'] at front
  rw [dropWhile_isDigit_append d.all stops,dropWhile_isDigit_append d'.all stops'] at back
  obtain ⟨chars,_,_⟩ := d
  cases front
  exact ⟨rfl,back⟩

theorem signed_append_inj {sign sign' : Sign} {d d' : Digits} {rest' : List Char}
    (stops : Stops rest) (stops' : Stops rest')
    (same : sign.chars ++ (d.chars ++ rest) = sign'.chars ++ (d'.chars ++ rest')) :
    sign = sign' ∧ d = d' ∧ rest = rest' := by
  obtain ⟨c,behind,text,digit⟩ := exists_head_digits d rest
  obtain ⟨c',behind',text',digit'⟩ := exists_head_digits d' rest'
  have sign_eq : sign = sign' := by
    rw [text,text'] at same
    -- A sign is no digit.
    have plus : c ≠ '+' ∧ '+' ≠ c' := ⟨ne_of_isDigit digit rfl,(ne_of_isDigit digit' rfl).symm⟩
    have minus : c ≠ '-' ∧ '-' ≠ c' := ⟨ne_of_isDigit digit rfl,(ne_of_isDigit digit' rfl).symm⟩
    cases sign <;> cases sign' <;> simp [Sign.chars,plus,minus] at same ⊢
  subst sign_eq
  exact ⟨rfl,digits_append_inj stops stops' (List.append_cancel_left same)⟩

theorem mark_eq (p : Power) : p.mark = 'e' ∨ p.mark = 'E' := by
  rw [Power.mark]
  split
  · exact .inr rfl
  · exact .inl rfl

theorem stops_powerChars (ends : EndsNumber fraction power rest) :
    Stops (powerChars power ++ rest) := by
  cases power with
  | none => exact ends.stops
  | some p =>
    refine stops_cons ?_ _
    rcases mark_eq p with mark | mark <;> rw [mark] <;> rfl

theorem stops_endingChars (ends : EndsNumber fraction power rest) :
    Stops (endingChars fraction power ++ rest) := by
  cases fraction with
  | none => exact stops_powerChars ends
  | some digits => exact stops_cons rfl _

theorem EndsNumber.ne_mark (ends : EndsNumber fraction none rest) {p : Power}
    {behind : List Char} : rest ≠ p.mark :: behind := by
  rintro rfl
  have other := ends.noPower rfl p.mark rfl
  rcases mark_eq p with mark | mark
  · exact other.1 mark
  · exact other.2 mark

theorem EndsNumber.ne_point (ends : EndsNumber none power rest) {behind : List Char} :
    powerChars power ++ rest ≠ '.' :: behind := by
  intro same
  cases power with
  | none =>
    obtain rfl : rest = '.' :: behind := same
    exact ends.noPoint rfl rfl '.' rfl rfl
  | some p =>
    have mark : p.mark = '.' := (List.cons.inj same).1
    rcases mark_eq p with other | other <;> simp [other] at mark

theorem powerChars_append_inj {fraction' : Option Digits} {power' : Option Power}
    {rest' : List Char} (ends : EndsNumber fraction power rest)
    (ends' : EndsNumber fraction' power' rest')
    (same : powerChars power ++ rest = powerChars power' ++ rest') :
    power = power' ∧ rest = rest' := by
  cases power with
  | none =>
    cases power' with
    | none => exact ⟨rfl,same⟩
    | some p => exact absurd same ends.ne_mark
  | some p =>
    cases power' with
    | none => exact absurd same.symm ends'.ne_mark
    | some p' =>
      obtain ⟨upper,sign,digits⟩ := p
      obtain ⟨upper',sign',digits'⟩ := p'
      obtain ⟨mark,tail⟩ := List.cons.inj same
      have upper_eq : upper = upper' := by
        cases upper <;> cases upper' <;> first | rfl | cases mark
      have tail : sign.chars ++ (digits.chars ++ rest) = sign'.chars ++ (digits'.chars ++ rest') := by
        simpa using tail
      obtain ⟨rfl,rfl,behind⟩ := signed_append_inj ends.stops ends'.stops tail
      exact ⟨by rw [upper_eq],behind⟩

theorem endingChars_append_inj {fraction' : Option Digits} {power' : Option Power}
    {rest' : List Char} (ends : EndsNumber fraction power rest)
    (ends' : EndsNumber fraction' power' rest')
    (same : endingChars fraction power ++ rest = endingChars fraction' power' ++ rest') :
    fraction = fraction' ∧ power = power' ∧ rest = rest' := by
  simp only [endingChars,List.append_assoc] at same
  cases fraction with
  | none =>
    cases fraction' with
    | none => exact ⟨rfl,powerChars_append_inj ends ends' same⟩
    | some digits => exact absurd same ends.ne_point
  | some digits =>
    cases fraction' with
    | none => exact absurd same.symm ends'.ne_point
    | some digits' =>
      obtain ⟨rfl,behind⟩ := digits_append_inj (stops_powerChars ends) (stops_powerChars ends')
        (List.cons.inj same).2
      exact ⟨rfl,powerChars_append_inj ends ends' behind⟩

/-- A text starts with one number at most. -/
theorem Literal.chars_append_inj {lit lit' : Literal} {rest' : List Char} (ends : lit.Ends rest)
    (ends' : lit'.Ends rest') (same : lit.chars ++ rest = lit'.chars ++ rest') :
    lit = lit' ∧ rest = rest' := by
  simp only [chars,List.append_assoc] at same
  obtain ⟨sign,whole,tail⟩ :=
    signed_append_inj (stops_endingChars ends) (stops_endingChars ends') same
  obtain ⟨fraction,power,behind⟩ := endingChars_append_inj ends ends' tail
  obtain ⟨negative,_,_,_,_⟩ := lit
  obtain ⟨negative',_,_,_,_⟩ := lit'
  have negative_eq : negative = negative' := by
    cases negative <;> cases negative' <;> first | rfl | cases sign
  simp only at whole fraction power
  subst whole fraction power negative_eq
  exact ⟨rfl,behind⟩

end FluentSql.Json

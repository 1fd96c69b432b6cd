import FluentSql.Proofs.Binary.Product
import FluentSql.Proofs.Json.Reading

/-! The numbers of JSON that are still the same when they are written. Integers of 64 bits are, and
so are decimals of up to fifteen digits whose power of ten is a double. Everything that is written is
an integer of 64 bits or has seventeen digits at most. -/
namespace FluentSql.Json
open Binary Text

/-- What is held for the number is written as this number. -/
def Literal.Kept (lit : Literal) : Prop :=
  ∃ n, Number.read lit.chars = some (n,[]) ∧ IsNumber n.render.toList lit.value

/-- An integer of 64 bits, signed or not, in digits alone. -/
structure Literal.IsWord (lit : Literal) : Prop where
  fraction : lit.fraction = none
  power : lit.power = none
  least : -2 ^ 63 ≤ lit.value
  greatest : lit.value < 2 ^ 64

/-- A decimal that one rounding takes to its double. -/
structure Literal.IsShort (lit : Literal) : Prop where
  coefficient : lit.coefficient < 10 ^ 15
  exponent : lit.exponent.natAbs ≤ 22
  power : ∀ p ∈ lit.power, p.digits.value < 2 ^ 31

/-- An integer of 64 bits, or a decimal of up to seventeen digits. -/
def IsWritable (q : ℚ) : Prop := (∃ n : ℤ, -2 ^ 63 ≤ n ∧ n < 2 ^ 64 ∧ q = n) ∨
  ∃ (negative : Bool) (c : ℕ) (e : ℤ), c < 10 ^ 17 ∧ q = withSign negative (c * 10 ^ e)

theorem IsNumber.unique {cs : List Char} {q r : ℚ} (one : IsNumber cs q) (other : IsNumber cs r) :
    q = r := by
  obtain ⟨lit,text,rfl⟩ := one
  obtain ⟨lit',text',rfl⟩ := other
  have same : lit.chars ++ [] = lit'.chars ++ [] := by rw [text,text']
  rw [(Literal.chars_append_inj lit.ends_nil lit'.ends_nil same).1]

theorem Literal.kept_iff (lit : Literal) : lit.Kept ↔ lit.written? = some lit.value := by
  have read := Number.read_append lit lit.ends_nil
  rw [List.append_nil] at read
  rw [written?,Option.map_eq_some_iff]
  constructor
  · rintro ⟨n,held,number⟩
    rw [read] at held
    obtain ⟨m,same,pair⟩ := Option.map_eq_some_iff.mp held
    cases pair
    exact ⟨n,same,n.isNumber_render.unique number⟩
  · rintro ⟨n,held,value⟩
    exact ⟨n,by rw [read,held]; rfl,value ▸ n.isNumber_render⟩

theorem withSign_zero (negative : Bool) : withSign negative 0 = 0 := by cases negative <;> rfl

namespace Number

variable {negative : Bool} {n count : ℕ} {e : ℤ}

theorem isWritable_written (n : Number) : IsWritable n.written := by
  cases n with
  | natural n =>
    have := n.toNat_lt
    exact .inl ⟨n.toNat,by omega,by omega,rfl⟩
  | negative n =>
    have := n.le_toInt
    have := n.toInt_lt
    exact .inl ⟨n.toInt,by omega,by omega,rfl⟩
  | real x =>
    rw [written]
    split
    next => exact .inl ⟨0,by decide,by decide,rfl⟩
    next nonzero =>
      have some : 0 < x.magnitude := by
        rw [Binary64.isZero,beq_iff_eq] at nonzero
        exact Nat.pos_of_ne_zero nonzero
      obtain ⟨-,short⟩ := coefficient_shortest .even double some
      rcases Nat.lt_or_eq_of_le short with less | most
      · exact .inr ⟨_,_,_,less,rfl⟩
      · refine .inr ⟨x.negative,1,(shortest .even double x.magnitude).exponent + 17,by decide,?_⟩
        rw [Scientific.value,most,zpow_add₀ (by decide)]
        norm_num
        rw [mul_comm]

theorem written_ofInteger {negative : Bool} (least : negative = true → n ≤ 2 ^ 63)
    (greatest : n < 2 ^ 64) : (ofInteger negative n).written = withSign negative n := by
  cases negative with
  | false =>
    have same : (UInt64.ofNat n).toNat = n := UInt64.toNat_ofNat_of_lt' greatest
    exact congrArg (Nat.cast (R := ℚ)) same
  | true =>
    have least := least rfl
    rw [ofInteger,if_neg (by decide)]
    split
    next =>
      have same : (Int64.ofInt (-n)).toInt = -n := Int64.toInt_ofInt_of_le (by omega) (by omega)
      rw [written,same,Int.cast_neg,Int.cast_natCast]
      rfl
    next beyond =>
      obtain rfl : n = 0 := by omega
      rw [written,Binary64.ofRatio,double.nearest_zero (by decide) Nat.one_pos,if_pos (by decide),
        Nat.cast_zero,withSign_zero]

theorem takeDigits_eq (n count : ℕ) {digits : List Char} (all : ∀ c ∈ digits, c.isDigit = true)
    (fits : Nat.ofDigitChars 10 digits n ≤ maxCoefficient) :
    takeDigits n count digits = (Nat.ofDigitChars 10 digits n,count + digits.length,[]) := by
  induction digits generalizing n count with
  | nil => rfl
  | cons c digits ih =>
    obtain ⟨digit,later⟩ := List.forall_mem_cons.mp all
    rw [Numeral.ofDigitChars_cons] at fits ⊢
    have first := Nat.le_trans (Numeral.le_ofDigitChars digits _) fits
    rw [takeDigits,if_pos ⟨digit,first⟩,ih _ _ later fits,List.length_cons,Nat.add_assoc,
      Nat.add_comm 1]

/-- Where both factors are doubles, only their product or quotient is rounded. -/
theorem assemble_eq (negative : Bool) (short : n < 10 ^ 15) (near : e.natAbs ≤ 22) :
    assemble negative n e = some (.real
      (.ofMagnitude negative (double.nearest (n * 10 ^ e.toNat) (10 ^ (-e).toNat)))) := by
  obtain ⟨factor,plus⟩ := Binary64.parts_ofRatio_one (k := 0) (Nat.mul_one n).symm
    (Nat.lt_trans short (by decide)) (Nat.lt_trans short (by decide))
  obtain ⟨power,plus'⟩ := Binary64.parts_pow_ten near
  have finite := nearest_finite short near
  have inside := Nat.lt_trans finite (by decide : double.infinity < 2 ^ 63)
  simp only [assemble,scaleBy,if_pos (Nat.le_trans near (by decide : 22 ≤ 308)),
    Nat.min_eq_left (Nat.le_trans near (by decide : 22 ≤ 308)),Binary64.mul_eq factor power,
    Binary64.div_eq factor power,plus,plus']
  by_cases up : 0 ≤ e
  · have size : e.natAbs = e.toNat ∧ (-e).toNat = 0 := by omega
    have product : Binary64.ofRatio (false != false) (n * Nat.pow 10 e.natAbs) 1 =
        .ofMagnitude false (double.nearest (n * 10 ^ e.toNat) (10 ^ (-e).toNat)) := by
      rw [size.1,size.2]
      rfl
    rw [if_pos up,product,Binary64.isFinite,Binary64.magnitude_ofMagnitude _ inside,
      decide_eq_true finite,if_pos rfl,Option.map_some,Binary64.magnitude_ofMagnitude _ inside]
  · have size : e.toNat = 0 ∧ e.natAbs = (-e).toNat := by omega
    have quotient : Binary64.ofRatio (false != false) n (Nat.pow 10 e.natAbs) =
        .ofMagnitude false (double.nearest (n * 10 ^ e.toNat) (10 ^ (-e).toNat)) := by
      rw [size.1,size.2,Nat.pow_zero,Nat.mul_one]
      rfl
    rw [if_neg up,quotient,Option.map_some,Binary64.magnitude_ofMagnitude _ inside]

theorem holdPower_eq {p : Power} (moderate : p.digits.value < 2 ^ 31) :
    holdPower p negative n e = assemble negative n (e + p.exponent) := by
  rw [holdPower,if_neg (Nat.not_le.mpr moderate)]

theorem holdEnding_eq {power : Option Power} (moderate : ∀ p ∈ power, p.digits.value < 2 ^ 31) :
    holdEnding power negative n e = assemble negative n (power.elim 0 Power.exponent + e) := by
  cases power with
  | none => exact congrArg (assemble negative n) (zero_add e).symm
  | some p => exact (holdPower_eq (moderate p rfl)).trans (congrArg _ (add_comm ..))

/-- Such a decimal is written as it was read. -/
theorem exists_assemble (negative : Bool) (short : n < 10 ^ 15) (near : e.natAbs ≤ 22) :
    ∃ m, assemble negative n e = some m ∧ m.written = withSign negative (n * 10 ^ e) := by
  have finite := nearest_finite short near
  have inside := Nat.lt_trans finite (by decide : double.infinity < 2 ^ 63)
  refine ⟨_,assemble_eq negative short near,?_⟩
  rw [written,Binary64.isZero,Binary64.magnitude_ofMagnitude _ inside,
    Binary64.negative_ofMagnitude _ inside]
  rcases Nat.eq_zero_or_pos n with rfl | some
  · rw [Nat.zero_mul,double.nearest_zero (by decide) (Nat.pow_pos (by decide)),
      if_pos (by decide),Nat.cast_zero,zero_mul,withSign_zero]
  · have normal := nearest_normal short near some
    have nonzero := Nat.lt_of_lt_of_le double.implicitBit_pos normal
    have holds := Cell.holds_nearest (f := double) (by decide) (Nat.pow_pos (by decide)) finite nonzero
    rw [div_ten_pow] at holds
    rw [if_neg (by simpa using Nat.ne_of_gt nonzero),shortest_value .even normal short holds]

end Number

open Number

namespace Literal

variable {lit : Literal}

/-- Where all digits fit in 64 bits they are all taken. -/
theorem held?_eq (fits : lit.coefficient ≤ maxCoefficient)
    (moderate : ∀ p ∈ lit.power, p.digits.value < 2 ^ 31) :
    lit.held? = if lit.fraction = none ∧ lit.power = none then
      some (Number.ofInteger lit.negative lit.coefficient)
      else assemble lit.negative lit.coefficient lit.exponent := by
  obtain ⟨negative,whole,fraction,power,leading⟩ := lit
  rw [coefficient,Nat.ofDigitChars_append] at fits
  have first := takeDigits_eq 0 0 whole.all (Nat.le_trans (Numeral.le_ofDigitChars _ _) fits)
  simp only [held?,first,coefficient,Nat.ofDigitChars_append]
  cases fraction with
  | none =>
    cases power with
    | none => rfl
    | some p =>
      change holdPower p negative _ 0 = if _ then _ else assemble negative _ (p.exponent - 0)
      rw [holdPower_eq (moderate p rfl),if_neg (by simp),zero_add,sub_zero]
      rfl
  | some digits =>
    have second := takeDigits_eq _ 0 digits.all fits
    simp only [holdFraction,second]
    rw [holdEnding_eq moderate,if_neg (by simp)]
    have place : (([] : List Char).length : ℤ) - (0 + digits.chars.length : ℕ) =
        -digits.chars.length := by
      rw [List.length_nil]
      omega
    rw [place,← sub_eq_add_neg]
    rfl

theorem value_of_integral (fraction : lit.fraction = none) (power : lit.power = none) :
    lit.value = withSign lit.negative lit.coefficient := by
  have exponent : lit.exponent = 0 := by
    rw [Literal.exponent,fractionDigits,fraction,power]
    rfl
  rw [value,exponent,zpow_zero,mul_one]

theorem IsWord.kept (word : lit.IsWord) : lit.Kept := by
  have value := value_of_integral word.fraction word.power
  have least := word.least
  have greatest := word.greatest
  rw [value,withSign] at least greatest
  have small : lit.coefficient < 2 ^ 64 ∧ (lit.negative = true → lit.coefficient ≤ 2 ^ 63) := by
    split at least
    next negative =>
      have bound : (lit.coefficient : ℚ) ≤ (2 ^ 63 : ℕ) := by
        push_cast
        linarith
      have bound := Nat.cast_le.mp bound
      exact ⟨by omega,fun _ => bound⟩
    next positive =>
      rw [if_neg positive] at greatest
      exact ⟨by exact_mod_cast greatest,fun negative => absurd negative positive⟩
  have moderate : ∀ p ∈ lit.power, p.digits.value < 2 ^ 31 := by
    rw [word.power]
    intro p absent
    cases absent
  have held := held?_eq (Nat.le_pred_of_lt small.1) moderate
  rw [if_pos ⟨word.fraction,word.power⟩] at held
  rw [kept_iff,written?,held,Option.map_some,written_ofInteger small.2 small.1,value]

theorem IsShort.kept (short : lit.IsShort) : lit.Kept := by
  have small := short.coefficient
  have held := held?_eq (Nat.le_trans (Nat.le_of_lt small) (by decide)) short.power
  rw [kept_iff,written?]
  split at held
  next integral =>
    rw [held,Option.map_some,written_ofInteger (fun _ => by omega) (by omega),
      value_of_integral integral.1 integral.2]
  next =>
    obtain ⟨m,assembled,written⟩ := exists_assemble lit.negative small short.exponent
    rw [held,assembled,Option.map_some,written]
    rfl

theorem Kept.isWritable (kept : lit.Kept) : IsWritable lit.value := by
  obtain ⟨n,-,number⟩ := kept
  exact n.isNumber_render.unique number ▸ n.isWritable_written

end Literal

/-- A number alone is a document. -/
theorem isText_number (lit : Literal) : IsText (.number lit) lit.chars := by
  have text := lit.skipSpaces_append []
  rw [List.append_nil] at text
  exact ⟨[],.number (text.trans (List.append_nil _).symm) lit.ends_nil,rfl⟩

theorem document_number (lit : Literal) : (Tree.number lit).document = .number lit.value := by
  rw [Tree.document,Tree.translate]

theorem read_of_number {cs : List Char} {n : Number} (read : Number.read cs = some (n,[])) :
    Json.read cs = some (.number n) := by
  obtain ⟨lit,rfl,-,-⟩ := Number.exists_literal read
  rw [List.append_nil] at read ⊢
  have text := lit.skipSpaces_append []
  rw [List.append_nil] at text
  have value (fuel : ℕ) : readValue 127 (fuel + 1) lit.chars = some (.number n,[]) := by
    have other {c : Char} {behind : List Char} (sign : c ≠ '-') (digit : c.isDigit = false) :
        lit.chars ≠ c :: behind := fun same =>
      Literal.chars_ne sign digit ((List.append_nil _).trans same)
    rw [readValue.eq_def]
    simp only [text]
    split
    next same => exact absurd same (other (by decide) rfl)
    next same _ => exact absurd same (other (by decide) rfl)
    next same _ => exact absurd same (other (by decide) rfl)
    next same => exact absurd same (other (by decide) rfl)
    next same => exact absurd same (other (by decide) rfl)
    next same => exact absurd same (other (by decide) rfl)
    next => rw [read,Option.map_some]
  rw [Json.read,value]
  rfl

/-- A document that is read and written out is the same exactly if no object repeats a name and all
numbers are kept. -/
theorem denotes_render_iff {cs : List Char} {j : Json} (read : Json.read cs = some j) :
    ∃ t : Tree Literal, IsText t cs ∧
      (Denotes j.render.toList t.document ↔ t.Keeps Literal.Kept) := by
  obtain ⟨t,text,same⟩ := exists_isText read
  refine ⟨t,text,?_⟩
  have whole : t.document.whole = t.translate (some ∘ Literal.value) id :=
    Tree.translate_translate ..
  have injective := Tree.translate_injective (f := some) (g := (Option.getD · (0 : ℚ))) fun _ => rfl
  have document : Denotes j.render.toList t.document ↔ j.document = t.document :=
    ⟨fun denotes => (denotes_render j).unique denotes,fun equal => equal ▸ denotes_render j⟩
  have kept : (fun lit : Literal => lit.written? = (some ∘ Literal.value) lit) = Literal.Kept :=
    funext fun lit => propext lit.kept_iff.symm
  rw [document,← injective.eq_iff,← kept,← Tree.translate_putAll_eq_iff,← whole]
  exact Eq.congr_left same
end FluentSql.Json

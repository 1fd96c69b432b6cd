import FluentSql.Json.NumberReader
import FluentSql.Proofs.Json.Literal
import Mathlib.Data.List.TakeWhile

/-! What the reader takes for a number is a number as it is written, and how it is held depends on
nothing that follows. -/
namespace FluentSql.Json
open Text

variable {rest cs : List Char} {fraction : Option Digits} {power : Option Power}
variable {negative : Bool} {n count : ℕ} {e : ℤ} {m : Number}

namespace Number

/-- Digits that are left over stand in front of what follows the digits. -/
theorem exists_takeDigits (n count : ℕ) {digits : List Char} (all : ∀ c ∈ digits, c.isDigit = true) :
    ∃ m taken left, (∀ rest, Stops rest →
        takeDigits n count (digits ++ rest) = (m,taken,left ++ rest)) ∧
      (∀ c ∈ left, c.isDigit = true) ∧ taken + left.length = count + digits.length := by
  induction digits generalizing n count with
  | nil =>
    refine ⟨n,count,[],fun rest stops => ?_,nofun,rfl⟩
    cases rest with
    | nil => rfl
    | cons c rest => simp [takeDigits,stops c rfl]
  | cons c digits ih =>
    obtain ⟨digit,later⟩ := List.forall_mem_cons.mp all
    by_cases fits : n * 10 + Numeral.digitValue c ≤ maxCoefficient
    · obtain ⟨m,taken,left,takes,allLeft,length⟩ :=
        ih (n * 10 + Numeral.digitValue c) (count + 1) later
      refine ⟨m,taken,left,fun rest stops => ?_,allLeft,by rw [List.length_cons]; omega⟩
      rw [List.cons_append,takeDigits,if_pos ⟨digit,fits⟩,takes rest stops]
    · refine ⟨n,count,c :: digits,fun rest _ => ?_,all,rfl⟩
      rw [List.cons_append,takeDigits,if_neg fun both => fits both.2]

/-- How a number is held that has some coefficient and power of ten and then a further power. -/
def holdPower (p : Power) (negative : Bool) (n : ℕ) (e : ℤ) : Option Number :=
  if 2 ^ 31 ≤ p.digits.value then
    if n ≠ 0 ∧ p.sign ≠ .minus then none else some (.real (.zero negative))
  else assemble negative n (e + p.exponent)

def holdEnding (power : Option Power) (negative : Bool) (n : ℕ) (e : ℤ) : Option Number :=
  power.elim (assemble negative n e) (holdPower · negative n e)

theorem readExponent_append (p : Power) (stops : Stops rest) :
    readExponent negative n e (p.sign.chars ++ (p.digits.chars ++ rest)) =
      (holdPower p negative n e).map (·,rest) := by
  obtain ⟨upper,sign,digits⟩ := p
  have nonempty : digits.chars.isEmpty = false := by
    rw [List.isEmpty_eq_false_iff]
    exact digits.ne_nil
  have value : Nat.ofDigitChars 10 digits.chars 0 = digits.value := rfl
  cases sign with
  | absent =>
    obtain ⟨c,behind,text,digit⟩ := exists_head_digits digits rest
    have plus : c ≠ '+' := ne_of_isDigit digit rfl
    have minus : c ≠ '-' := ne_of_isDigit digit rfl
    have front := takeWhile_isDigit_append digits.all stops
    have back := dropWhile_isDigit_append digits.all stops
    rw [text] at front back
    simp only [Sign.chars,List.nil_append,text,readExponent,List.cons.injEq,plus,minus,false_and,
      imp_self,implies_true,front,back,nonempty,value,holdPower,Power.exponent,Bool.false_eq_true,
      ↓reduceIte,ne_eq,Bool.not_false,and_true,ite_not,reduceCtorEq,not_false_eq_true]
    split_ifs <;> rfl
  | plus =>
    simp only [Sign.chars,List.cons_append,List.nil_append,readExponent,
      takeWhile_isDigit_append digits.all stops,dropWhile_isDigit_append digits.all stops,nonempty,
      value,holdPower,Power.exponent,Bool.false_eq_true,↓reduceIte,ne_eq,Bool.not_false,and_true,
      ite_not,reduceCtorEq,not_false_eq_true]
    split_ifs <;> rfl
  | minus =>
    simp only [Sign.chars,List.cons_append,List.nil_append,readExponent,
      takeWhile_isDigit_append digits.all stops,dropWhile_isDigit_append digits.all stops,nonempty,
      value,holdPower,Power.exponent,Bool.false_eq_true,↓reduceIte,ne_eq,Bool.not_true,and_false,
      not_true_eq_false]
    split_ifs <;> rfl

theorem readEnding_append (negative : Bool) (n : ℕ) (e : ℤ)
    (ends : EndsNumber fraction power rest) :
    readEnding negative n e (powerChars power ++ rest) =
      (holdEnding power negative n e).map (·,rest) := by
  cases power with
  | none =>
    cases rest with
    | nil => rfl
    | cons c behind =>
      have other := ends.noPower rfl c rfl
      change readEnding negative n e (c :: behind) = _
      rw [readEnding,if_neg (not_or.mpr other)]
      rfl
  | some p =>
    change readEnding negative n e (p.mark :: ((p.sign.chars ++ p.digits.chars) ++ rest)) = _
    rw [readEnding,if_pos (mark_eq p),List.append_assoc,readExponent_append p ends.stops]
    rfl

theorem leadingDigits_append {left : List Char} (all : ∀ c ∈ left, c.isDigit = true)
    (stops : Stops rest) : leadingDigits (left ++ rest) = left.length := by
  rw [leadingDigits,takeWhile_isDigit_append all stops]

/-- The fraction behind a number that is held so far. -/
def holdFraction (digits : Digits) (power : Option Power) (negative : Bool) (n : ℕ) (e : ℤ) :
    Option Number :=
  let (taken,count,_) := takeDigits n 0 digits.chars
  holdEnding power negative taken (e - count)

theorem readFraction_append (negative : Bool) (n : ℕ) (e : ℤ) {digits : Digits}
    (ends : EndsNumber (some digits) power rest) :
    readFraction negative n e (digits.chars ++ (powerChars power ++ rest)) =
      (holdFraction digits power negative n e).map (·,rest) := by
  obtain ⟨m,taken,left,takes,all,length⟩ := exists_takeDigits n 0 digits.all
  have stops := stops_powerChars ends
  have some : taken + left.length ≠ 0 := by
    have := List.length_pos_of_ne_nil digits.ne_nil
    omega
  have alone := takes [] stops_nil
  rw [List.append_nil] at alone
  simp only [readFraction,takes _ stops,leadingDigits_append all stops,if_neg some,List.drop_left,
    readEnding_append _ _ _ ends,holdFraction,alone]

end Number

open Number

/-- How a number is held, if it can be held at all. -/
def Literal.held? (lit : Literal) : Option Number :=
  let (n,_,left) := takeDigits 0 0 lit.whole.chars
  match lit.fraction, lit.power with
  | some digits, power => holdFraction digits power lit.negative n left.length
  | none, none =>
    if left = [] then some (.ofInteger lit.negative n) else assemble lit.negative n left.length
  | none, some p => holdPower p lit.negative n left.length

namespace Number

theorem le_count_takeDigits (n count : ℕ) (cs : List Char) : count ≤ (takeDigits n count cs).2.1 := by
  fun_induction takeDigits n count cs with
  | case1 => exact Nat.le_refl _
  | case2 n count c rest _ ih => exact Nat.le_of_succ_le ih
  | case3 => exact Nat.le_refl _

/-- The first digit always fits. -/
theorem count_takeDigits_ne_zero (d : Digits) (rest : List Char) :
    (takeDigits 0 0 (d.chars ++ rest)).2.1 ≠ 0 := by
  obtain ⟨c,behind,text,digit⟩ := exists_head_digits d rest
  have small : Numeral.digitValue c ≤ 9 := by
    rw [Char.isDigit_iff_toNat] at digit
    change 48 ≤ c.toNat ∧ c.toNat ≤ 57 at digit
    change c.toNat - 48 ≤ 9
    omega
  have fits : 0 * 10 + Numeral.digitValue c ≤ maxCoefficient := by
    rw [maxCoefficient]
    omega
  have more := le_count_takeDigits (0 * 10 + Numeral.digitValue c) (0 + 1) behind
  rw [text,takeDigits,if_pos ⟨digit,fits⟩]
  omega

theorem readUnsigned_append (lit : Literal) (ends : lit.Ends rest) :
    readUnsigned lit.negative (lit.whole.chars ++ (endingChars lit.fraction lit.power ++ rest)) =
      lit.held?.map (·,rest) := by
  obtain ⟨negative,whole,fraction,power,leading⟩ := lit
  change EndsNumber fraction power rest at ends
  obtain ⟨n,count,left,takes,all,length⟩ := exists_takeDigits 0 0 whole.all
  have stops := stops_endingChars ends
  have alone := takes [] stops_nil
  have some := count_takeDigits_ne_zero whole []
  rw [alone] at some
  rw [List.append_nil,List.append_nil] at alone
  rw [Nat.zero_add] at length
  have valid : ¬ (count = 0 ∨ (whole.chars ++ (endingChars fraction power ++ rest)).head? =
      Option.some '0' ∧ 1 < count + left.length) := by
    rw [length,List.head?_append_of_ne_nil _ whole.ne_nil]
    rintro (none | ⟨zero,long⟩)
    · exact some none
    · exact Nat.ne_of_gt long (leading zero)
  simp only [readUnsigned,takes _ stops,leadingDigits_append all stops,if_neg valid,List.drop_left,
    Literal.held?,alone]
  cases fraction with
  | some digits =>
    have behind := readFraction_append negative n left.length ends
    rw [← List.append_assoc] at behind
    exact behind
  | none =>
    cases power with
    | some p =>
      have behind := readEnding_append negative n left.length ends
      obtain ⟨upper,sign,digits⟩ := p
      cases upper with
      | true => exact (if_neg fun wrong => wrong.2.2 rfl).trans behind
      | false => exact (if_neg fun wrong => wrong.2.1 rfl).trans behind
    | none =>
      have behind := readEnding_append negative n left.length ends
      have unmarked : rest.head? ≠ Option.some 'e' ∧ rest.head? ≠ Option.some 'E' :=
        ⟨fun head => (ends.noPower rfl _ head).1 rfl,fun head => (ends.noPower rfl _ head).2 rfl⟩
      change readEnding negative n left.length rest = _ at behind
      split
      next digits point => exact absurd point ends.ne_point
      next =>
        change (if left.length = 0 ∧ rest.head? ≠ Option.some 'e' ∧ rest.head? ≠ Option.some 'E' then
          Option.some (Number.ofInteger negative n,rest) else readEnding negative n left.length rest) = _
        rw [behind]
        by_cases whole : left = []
        · rw [if_pos ⟨List.length_eq_zero_iff.mpr whole,unmarked⟩,if_pos whole]
          rfl
        · rw [if_neg fun both => whole (List.length_eq_zero_iff.mp both.1),if_neg whole]
          rfl

theorem read_append (lit : Literal) (ends : lit.Ends rest) :
    Number.read (lit.chars ++ rest) = lit.held?.map (·,rest) := by
  have unsigned := readUnsigned_append lit ends
  obtain ⟨negative,whole,fraction,power,leading⟩ := lit
  cases negative with
  | true =>
    change readUnsigned true ((whole.chars ++ endingChars fraction power) ++ rest) = _
    rw [List.append_assoc]
    exact unsigned
  | false =>
    obtain ⟨c,behind,text,digit⟩ := exists_head_digits whole (endingChars fraction power ++ rest)
    have minus : c ≠ '-' := ne_of_isDigit digit rfl
    change Number.read ((whole.chars ++ endingChars fraction power) ++ rest) = _
    rw [List.append_assoc,text,Number.read.eq_2 _ (by simpa using minus),← text]
    exact unsigned

private theorem digits_of_some {tail : List Char} {scaled : Option Number} {large stray : Prop}
    [Decidable large] [Decidable stray]
    (read : (if (tail.takeWhile Char.isDigit).isEmpty = true then none else if large then
      if stray then none else some (Number.real (.zero negative),tail.dropWhile Char.isDigit)
      else scaled.map (·,tail.dropWhile Char.isDigit)) = some (m,rest)) :
    tail.takeWhile Char.isDigit ≠ [] ∧ tail.dropWhile Char.isDigit = rest := by
  split_ifs at read with empty
  · cases read
    exact ⟨fun none => empty (List.isEmpty_iff.mpr none),rfl⟩
  · obtain ⟨_,_,same⟩ := Option.map_eq_some_iff.mp read
    cases same
    exact ⟨fun none => empty (List.isEmpty_iff.mpr none),rfl⟩

theorem exists_digits_of_readExponent (read : readExponent negative n e cs = some (m,rest)) :
    ∃ (sign : Sign) (tail : List Char), cs = sign.chars ++ tail ∧
      tail.takeWhile Char.isDigit ≠ [] ∧ tail.dropWhile Char.isDigit = rest := by
  simp only [readExponent] at read
  split at read
  · exact ⟨.plus,_,rfl,digits_of_some read⟩
  · exact ⟨.minus,_,rfl,digits_of_some read⟩
  · exact ⟨.absent,_,rfl,digits_of_some read⟩

def leadingDigitsOf (cs : List Char) (some : cs.takeWhile Char.isDigit ≠ []) : Digits :=
  ⟨cs.takeWhile Char.isDigit,some,fun _ => List.mem_takeWhile_imp⟩

theorem stops_dropWhile (cs : List Char) : Stops (cs.dropWhile Char.isDigit) := by
  intro c first
  have head := List.head?_dropWhile_not Char.isDigit cs
  rw [show (cs.dropWhile Char.isDigit).head? = some c from first] at head
  simpa using head

theorem exists_power {c : Char} (marked : c = 'e' ∨ c = 'E')
    (read : readExponent negative n e cs = some (m,rest)) :
    ∃ p : Power, c :: cs = p.chars ++ rest ∧ Stops rest := by
  obtain ⟨sign,tail,rfl,some,rfl⟩ := exists_digits_of_readExponent read
  refine ⟨⟨decide (c = 'E'),sign,leadingDigitsOf tail some⟩,?_,stops_dropWhile tail⟩
  have mark : Power.mark ⟨decide (c = 'E'),sign,leadingDigitsOf tail some⟩ = c := by
    rcases marked with rfl | rfl <;> rfl
  rw [Power.chars,mark,List.cons_append,List.append_assoc,leadingDigitsOf,
    List.takeWhile_append_dropWhile]

/-- The text that is left when the digits end is where a power stands, or the number is over. -/
theorem exists_ending (stops : Stops cs) (read : readEnding negative n e cs = some (m,rest)) :
    ∃ power, cs = powerChars power ++ rest ∧ Stops rest ∧
      (power = none → ∀ c ∈ rest.head?, c ≠ 'e' ∧ c ≠ 'E') := by
  cases cs with
  | nil =>
    obtain ⟨_,_,same⟩ := Option.map_eq_some_iff.mp read
    cases same
    exact ⟨none,rfl,stops_nil,fun _ => nofun⟩
  | cons c tail =>
    rw [readEnding] at read
    split at read
    next marked =>
      obtain ⟨p,text,behind⟩ := exists_power marked read
      exact ⟨some p,text,behind,nofun⟩
    next plain =>
      obtain ⟨_,_,same⟩ := Option.map_eq_some_iff.mp read
      cases same
      refine ⟨none,rfl,stops,fun _ d first => ?_⟩
      cases first
      exact not_or.mp plain

theorem exists_fraction (read : readFraction negative n e cs = some (m,rest)) :
    ∃ (digits : Digits) (power : Option Power), cs = digits.chars ++ (powerChars power ++ rest) ∧
      EndsNumber (some digits) power rest := by
  have all : ∀ c ∈ cs.takeWhile Char.isDigit, c.isDigit = true := fun _ => List.mem_takeWhile_imp
  have stops := stops_dropWhile cs
  obtain ⟨k,taken,left,takes,allLeft,length⟩ := exists_takeDigits n 0 all
  have whole := takes _ stops
  rw [List.takeWhile_append_dropWhile] at whole
  simp only [readFraction,whole,leadingDigits_append allLeft stops,List.drop_left] at read
  split at read
  · cases read
  next some =>
    have nonempty : cs.takeWhile Char.isDigit ≠ [] := by
      intro none
      rw [none,List.length_nil] at length
      exact some length
    obtain ⟨power,text,behind,unmarked⟩ := exists_ending stops read
    refine ⟨leadingDigitsOf cs nonempty,power,?_,behind,unmarked,nofun⟩
    rw [← text,leadingDigitsOf,List.takeWhile_append_dropWhile]

theorem endingChars_some_append (digits : Digits) (power : Option Power) (rest : List Char) :
    endingChars (some digits) power ++ rest = '.' :: (digits.chars ++ (powerChars power ++ rest)) := by
  rw [endingChars,List.append_assoc]
  rfl

/-- The digits in front of a text are those of a number, unless there are none or a zero leads. -/
theorem exists_whole (nonzero : (cs.takeWhile Char.isDigit).length ≠ 0)
    (plain : ¬ (cs.head? = some '0' ∧ 1 < (cs.takeWhile Char.isDigit).length)) :
    ∃ whole : Digits, cs = whole.chars ++ cs.dropWhile Char.isDigit ∧
      (whole.chars.head? = some '0' → whole.chars.length = 1) := by
  have nonempty : cs.takeWhile Char.isDigit ≠ [] := fun none => nonzero (congrArg List.length none)
  refine ⟨leadingDigitsOf cs nonempty,List.takeWhile_append_dropWhile.symm,fun zero => ?_⟩
  have front : cs.head? = some '0' := by
    rw [← List.takeWhile_append_dropWhile (p := Char.isDigit) (l := cs),
      List.head?_append_of_ne_nil _ nonempty]
    exact zero
  have short : ¬ 1 < (cs.takeWhile Char.isDigit).length := fun long => plain ⟨front,long⟩
  change (cs.takeWhile Char.isDigit).length = 1
  omega

theorem exists_unsigned (read : readUnsigned negative cs = some (m,rest)) :
    ∃ lit : Literal, lit.negative = negative ∧
      cs = lit.whole.chars ++ (endingChars lit.fraction lit.power ++ rest) ∧ lit.Ends rest := by
  have all : ∀ c ∈ cs.takeWhile Char.isDigit, c.isDigit = true := fun _ => List.mem_takeWhile_imp
  have stops := stops_dropWhile cs
  obtain ⟨k,taken,left,takes,allLeft,length⟩ := exists_takeDigits 0 0 all
  have digits := takes _ stops
  rw [List.takeWhile_append_dropWhile] at digits
  simp only [readUnsigned,digits,leadingDigits_append allLeft stops,List.drop_left] at read
  split at read
  · cases read
  next valid =>
    obtain ⟨some,plain⟩ := not_or.mp valid
    rw [length,Nat.zero_add] at plain
    obtain ⟨whole,text,leading⟩ := exists_whole (by omega) plain
    let literal (fraction : Option Digits) (power : Option Power) : Literal :=
      ⟨negative,whole,fraction,power,leading⟩
    split at read
    next fractional point =>
      obtain ⟨digits,power,rfl,ends⟩ := exists_fraction read
      refine ⟨literal (Option.some digits) power,rfl,?_,ends⟩
      rw [point,← endingChars_some_append] at text
      exact text
    next ending pointless =>
      have noPoint {behind : List Char} (same : cs.dropWhile Char.isDigit = behind) :
          ∀ c ∈ behind.head?, c ≠ '.' := by
        rintro c first rfl
        obtain ⟨tail,rfl⟩ := List.head?_eq_some_iff.mp first
        exact pointless tail same
      split at read
      next integral =>
        cases read
        refine ⟨literal none none,rfl,text,stops,fun _ c first => ?_,fun _ _ => noPoint rfl⟩
        exact ⟨fun e => integral.2.1 (e ▸ first),fun e => integral.2.2 (e ▸ first)⟩
      next =>
        obtain ⟨power,same,behind,unmarked⟩ := exists_ending stops read
        rw [same] at text
        refine ⟨literal none power,rfl,text,behind,unmarked,?_⟩
        rintro (absent : power = none) -
        rw [absent] at same
        exact noPoint same

/-- The number that is read is one that is written, which ends where the reader stops. -/
theorem exists_literal (read : Number.read cs = some (m,rest)) :
    ∃ lit : Literal, cs = lit.chars ++ rest ∧ lit.Ends rest ∧ lit.held? = some m := by
  have shape : ∃ lit : Literal, cs = lit.chars ++ rest ∧ lit.Ends rest := by
    rw [Number.read.eq_def] at read
    split at read
    · obtain ⟨lit,negative,rfl,ends⟩ := exists_unsigned read
      refine ⟨lit,?_,ends⟩
      rw [Literal.chars,Literal.sign,negative,List.append_assoc,List.append_assoc]
      rfl
    · obtain ⟨lit,negative,rfl,ends⟩ := exists_unsigned read
      refine ⟨lit,?_,ends⟩
      rw [Literal.chars,Literal.sign,negative,List.append_assoc,List.append_assoc]
      rfl
  obtain ⟨lit,rfl,ends⟩ := shape
  rw [read_append lit ends] at read
  obtain ⟨held,same,pair⟩ := Option.map_eq_some_iff.mp read
  cases pair
  exact ⟨lit,rfl,ends,same⟩

end Number
end FluentSql.Json

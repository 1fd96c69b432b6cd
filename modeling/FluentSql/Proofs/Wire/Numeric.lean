import FluentSql.Proofs.Wire.Bytes
import Mathlib.Algebra.Group.Nat.Defs

/-! Decimals read back from their wire form. The sender cuts the digits into groups of four at
the decimal point; the receiver adds the groups up again, one after the other. Both are compared
in units of the 28th decimal place, which no step of the receiver loses. -/
namespace FluentSql

namespace Decimal

theorem pad_eq {count : Nat} {d d' : Decimal} (sign : d'.negative = d.negative)
    (coefficient : d'.coefficient = d.coefficient * 10 ^ count)
    (scale : d'.scale = d.scale + count) : d.pad count = d' := by
  induction count generalizing d with
  | zero =>
    cases d
    cases d'
    simp_all [pad]
  | succ count ih =>
    have below := d'.coefficient_lt
    have within := d'.scale_le
    have positive : 0 < 10 ^ count := Nat.pow_pos (by decide)
    have shifted : d'.coefficient = d.coefficient * 10 * 10 ^ count := by
      rw [coefficient,Nat.pow_succ',Nat.mul_assoc]
    have room : d.coefficient * 10 < 2 ^ 96 ∧ d.scale + 1 ≤ 28 := by
      have := Nat.le_mul_of_pos_right (d.coefficient * 10) positive
      omega
    rw [pad,dif_pos room]
    exact ih sign shifted (by simp only; omega)

theorem rescale_eq {d d' : Decimal} (sign : d'.negative = d.negative) (le : d.scale ≤ d'.scale)
    (coefficient : d'.coefficient = d.coefficient * 10 ^ (d'.scale - d.scale)) :
    d.rescale d'.scale = d' := by
  rw [rescale]
  split
  · rename_i ge
    have scale : d'.scale = d.scale := Nat.le_antisymm ge le
    rw [scale,Nat.sub_self,Nat.pow_zero,Nat.mul_one] at coefficient
    cases d
    cases d'
    simp_all [roundTo,roundDiv_one]
  · exact pad_eq sign coefficient (by omega)

end Decimal

namespace Wire

/-- The number that has the digits of `n` and then those of the groups. -/
def joined (n : Nat) (groups : List Nat) : Nat :=
  groups.foldl (fun n group => n * 10000 + group) n

theorem le_joined (n : Nat) (groups : List Nat) : n ≤ joined n groups := by
  induction groups generalizing n with
  | nil => exact Nat.le_refl n
  | cons group rest ih =>
    have := ih (n * 10000 + group)
    change n ≤ joined (n * 10000 + group) rest
    omega

theorem joined_append (n : Nat) (a b : List Nat) : joined n (a ++ b) = joined (joined n a) b :=
  List.foldl_append

theorem joined_groupsOf (n : Nat) : joined 0 (groupsOf n) = n := by
  fun_induction groupsOf n with
  | case1 => rfl
  | case2 n nonzero ih =>
    rw [joined_append,ih]
    exact Nat.div_add_mod' n 10000

theorem lt_of_mem_groupsOf {n : Nat} : ∀ group ∈ groupsOf n, group < 10000 := by
  fun_induction groupsOf n with
  | case1 => simp
  | case2 n nonzero ih =>
    intro group member
    rcases List.mem_append.mp member with before | last
    · exact ih group before
    · rw [List.mem_singleton.mp last]
      exact Nat.mod_lt n (by decide)

theorem length_groupsOf_le {n count : Nat} (small : n < 10000 ^ count) :
    (groupsOf n).length ≤ count := by
  induction count generalizing n with
  | zero =>
    have zero : n = 0 := by simpa using small
    rw [zero,groupsOf,dif_pos rfl]
    exact Nat.le_refl 0
  | succ count ih =>
    rw [groupsOf]
    split
    · exact Nat.zero_le _
    · rw [List.length_append]
      exact Nat.succ_le_succ (ih (Nat.div_lt_of_lt_mul (by rwa [← Nat.pow_succ'])))

/-- What is left out at the end of a fraction is zeros. -/
theorem exists_trimRight_append (groups : List Nat) :
    ∃ zeros, groups = trimRight groups ++ zeros ∧ ∀ group ∈ zeros, group = 0 := by
  refine ⟨(groups.reverse.takeWhile (· == 0)).reverse,?_,?_⟩
  · rw [trimRight,← List.reverse_append,List.takeWhile_append_dropWhile,List.reverse_reverse]
  · intro group member
    have all := List.all_eq_true.mp (List.all_takeWhile (p := (· == 0)) (l := groups.reverse))
    exact eq_of_beq (all group (List.mem_reverse.mp member))

namespace Numeric

/-- How often a magnitude holds the 28th decimal place. -/
def Magnitude.units (m : Magnitude) : Nat := m.coefficient * 10 ^ (28 - m.scale)

theorem shorten_units {place : Nat} (n : Nat) (within : place ≤ 28) :
    (shorten n place).units = n * 10 ^ (28 - place) := by
  fun_induction shorten n place with
  | case1 => rfl
  | case2 n place zero ih =>
    have step : 28 - place = 28 - (place + 1) + 1 := by omega
    have whole : n / 10 * 10 = n := Nat.div_mul_cancel (Nat.dvd_of_mod_eq_zero zero)
    rw [ih (by omega),step,Nat.pow_succ',← Nat.mul_assoc,whole]
  | case3 => rfl

/-- A number that ends in zeros from some place on has no digits beyond it. -/
theorem shorten_scale_le {n place scale : Nat} (zeros : 10 ^ (place - scale) ∣ n) :
    (shorten n place).scale ≤ scale := by
  fun_induction shorten n place with
  | case1 => exact Nat.zero_le scale
  | case2 n place zero ih =>
    apply ih
    rcases Nat.lt_or_ge place scale with inside | beyond
    · rw [Nat.sub_eq_zero_of_le (Nat.le_of_lt inside),Nat.pow_zero]
      exact Nat.one_dvd _
    · rw [Nat.succ_sub beyond,Nat.pow_succ] at zeros
      exact Nat.dvd_div_of_mul_dvd (by rwa [Nat.mul_comm])
  | case3 n place digit =>
    apply Nat.le_of_not_lt
    intro beyond
    rw [Nat.succ_sub (Nat.le_of_lt_succ beyond),Nat.pow_succ] at zeros
    exact digit (Nat.mod_eq_zero_of_dvd (Nat.dvd_trans (Nat.dvd_mul_left 10 _) zeros))

theorem fit_of_lt {coefficient : Nat} (fits : coefficient < 2 ^ 96) (scale : Nat) :
    fit coefficient 0 scale = some ⟨coefficient,scale⟩ := by
  have rounded : roundDiv .even coefficient (Nat.pow 10 0) = coefficient := roundDiv_one _ _
  cases scale <;> simp only [fit,rounded,if_pos fits]

private theorem shift_units {a scale : Nat} (le : a ≤ scale) (within : scale ≤ 28) (n : Nat) :
    n * 10 ^ (scale - a) * 10 ^ (28 - scale) = n * 10 ^ (28 - a) := by
  rw [Nat.mul_assoc,← Nat.pow_add]
  congr 2
  omega

theorem add_units {scale : Nat} {a b : Magnitude} (within : scale ≤ 28) (left : a.scale ≤ scale)
    (right : b.scale ≤ scale) (fits : a.units + b.units < 2 ^ 96 * 10 ^ (28 - scale)) :
    ∃ m, add a b = some m ∧ m.scale ≤ scale ∧ m.units = a.units + b.units := by
  have top : max a.scale b.scale ≤ scale := Nat.max_le.mpr ⟨left,right⟩
  have leftTop := Nat.le_max_left a.scale b.scale
  have rightTop := Nat.le_max_right a.scale b.scale
  simp only [add,Nat.pow_eq]
  generalize max a.scale b.scale = common at top leftTop rightTop ⊢
  have sum : (a.coefficient * 10 ^ (common - a.scale) + b.coefficient * 10 ^ (common - b.scale)) *
      10 ^ (28 - common) = a.units + b.units := by
    rw [Nat.add_mul,shift_units leftTop (by omega),shift_units rightTop (by omega)]
    rfl
  have finer : 10 ^ (28 - scale) ≤ 10 ^ (28 - common) :=
    Nat.pow_le_pow_right (by decide) (by omega)
  refine ⟨_,fit_of_lt ?_ common,top,sum⟩
  apply Nat.lt_of_mul_lt_mul_right (a := 10 ^ (28 - common))
  rw [sum]
  exact Nat.lt_of_lt_of_le fits (Nat.mul_le_mul_left _ finer)

/-- The worth of groups of which the first ends at decimal place `place`. -/
def fractionUnits : Nat → List Nat → Nat
  | _, [] => 0
  | place, group :: rest => group * 10 ^ (28 - place) + fractionUnits (place + 4) rest

/-- No group ends beyond the 28th decimal place, or has digits beyond place `scale`. -/
def Within (scale : Nat) : Nat → List Nat → Prop
  | _, [] => True
  | place, group :: rest =>
    place ≤ 28 ∧ 10 ^ (place - scale) ∣ group ∧ Within scale (place + 4) rest

theorem addFraction_units {scale place : Nat} {m : Magnitude} {groups : List Nat}
    (known : scale ≤ 28) (start : m.scale ≤ scale) (within : Within scale place groups)
    (fits : m.units + fractionUnits place groups < 2 ^ 96 * 10 ^ (28 - scale)) :
    ∃ total, addFraction m place groups = some total ∧ total.scale ≤ scale ∧
      total.units = m.units + fractionUnits place groups := by
  induction groups generalizing m place with
  | nil => exact ⟨m,rfl,start,rfl⟩
  | cons group rest ih =>
    obtain ⟨inside,zeros,others⟩ := within
    have worth := shorten_units group inside
    rw [fractionUnits,← worth,← Nat.add_assoc] at fits
    obtain ⟨sum,added,scale_le,units⟩ := add_units known start (shorten_scale_le zeros)
      (Nat.lt_of_le_of_lt (Nat.le_add_right _ _) fits)
    rw [← units] at fits
    obtain ⟨total,found,total_le,total_units⟩ := ih scale_le others fits
    refine ⟨total,?_,total_le,?_⟩
    · simpa only [addFraction,if_pos inside,added,Option.bind_eq_bind,Option.bind_some] using found
    · rw [total_units,units,worth,fractionUnits,Nat.add_assoc]

theorem fractionUnits_append (place : Nat) (a b : List Nat) : fractionUnits place (a ++ b) =
    fractionUnits place a + fractionUnits (place + 4 * a.length) b := by
  induction a generalizing place with
  | nil => simp [fractionUnits]
  | cons group rest ih =>
    have next : place + 4 + 4 * rest.length = place + 4 * (rest.length + 1) := by omega
    rw [List.cons_append,fractionUnits,fractionUnits,ih,List.length_cons,next,Nat.add_assoc]

theorem fractionUnits_of_zeros {zeros : List Nat} (place : Nat)
    (zero : ∀ group ∈ zeros, group = 0) : fractionUnits place zeros = 0 := by
  induction zeros generalizing place with
  | nil => rfl
  | cons group rest ih =>
    rw [fractionUnits,zero group List.mem_cons_self,Nat.zero_mul,
      ih (place + 4) fun g member => zero g (List.mem_cons_of_mem group member)]

theorem within_append {scale place : Nat} {a b : List Nat} :
    Within scale place (a ++ b) ↔
      Within scale place a ∧ Within scale (place + 4 * a.length) b := by
  induction a generalizing place with
  | nil => simp [Within]
  | cons group rest ih =>
    have next : place + 4 + 4 * rest.length = place + 4 * (rest.length + 1) := by omega
    simp only [List.cons_append,Within,ih,List.length_cons,next,and_assoc]

/-- Groups that end at or before place `scale` have all their digits before it. -/
theorem within_of_le {scale place : Nat} {groups : List Nat} (known : scale ≤ 28)
    (ends : place + 4 * groups.length ≤ scale + 4) : Within scale place groups := by
  induction groups generalizing place with
  | nil => trivial
  | cons group rest ih =>
    rw [List.length_cons] at ends
    refine ⟨by omega,?_,ih (by omega)⟩
    rw [Nat.sub_eq_zero_of_le (by omega),Nat.pow_zero]
    exact Nat.one_dvd group

theorem addWhole_eq {n : Nat} {groups : List Nat} (fits : joined n groups < 2 ^ 96) :
    addWhole n groups = some (joined n groups) := by
  induction groups generalizing n with
  | nil => exact if_pos fits
  | cons group rest ih =>
    change joined (n * 10000 + group) rest < _ at fits
    rw [addWhole,if_pos (Nat.lt_of_le_of_lt (le_joined _ rest) fits),ih fits]
    rfl

/-- Whole groups and those of the fraction, with `leading` groups of zeros between the point and
the first group of a number below one. -/
theorem magnitude_units {scale leading : Nat} {whole fraction : List Nat} (known : scale ≤ 28)
    (apart : leading = 0 ∨ whole = []) (within : Within scale (4 * (1 + leading)) fraction)
    (fits : joined 0 whole * 10 ^ 28 + fractionUnits (4 * (1 + leading)) fraction <
      2 ^ 96 * 10 ^ (28 - scale)) :
    ∃ m, magnitude (whole.length - leading - 1) (whole ++ fraction) = some m ∧
      m.scale ≤ scale ∧
      m.units = joined 0 whole * 10 ^ 28 + fractionUnits (4 * (1 + leading)) fraction := by
  have wholeGroups : ((whole.length : Int) - leading - 1 + 1).toNat = whole.length := by
    rcases apart with none | none <;> simp [none]
  have leadingGroups : (-((whole.length : Int) - leading - 1 + 1)).toNat = leading := by
    rcases apart with none | none <;> simp [none]
  have finest : 10 ^ (28 - scale) ≤ 10 ^ 28 := Nat.pow_le_pow_right (by decide) (by omega)
  have wholeFits : joined 0 whole < 2 ^ 96 := by
    apply Nat.lt_of_mul_lt_mul_right (a := 10 ^ 28)
    exact Nat.lt_of_le_of_lt (Nat.le_add_right _ _)
      (Nat.lt_of_lt_of_le fits (Nat.mul_le_mul_left _ finest))
  have filled : fillFactor (whole.length - (whole ++ fraction).length) = some 1 := by
    rw [List.length_append,Nat.sub_eq_zero_of_le (Nat.le_add_right _ _)]
    rfl
  obtain ⟨m,found,scale_le,units⟩ := addFraction_units (m := ⟨joined 0 whole,0⟩) known
    (Nat.zero_le scale) within fits
  refine ⟨m,?_,scale_le,units⟩
  simp only [magnitude,wholeGroups,leadingGroups,List.take_left,List.drop_left,
    addWhole_eq wholeFits,filled,Option.bind_eq_bind,Option.bind_some,Nat.mul_one,
    if_pos wholeFits,found]

/-- The wire form that has these groups, of which the first has weight `10000 ^ weight`. -/
def layout (negative : Bool) (scale : Nat) (weight : Int) (groups : List Nat) : Bytes :=
  bigEndian 2 groups.length ++ signedBigEndian 2 weight ++
    bigEndian 2 (if negative then 0x4000 else 0) ++ bigEndian 2 scale ++
    groups.flatMap (bigEndian 2)

theorem pairs_bigEndian_append {n : Nat} (fits : n < 65536) (rest : Bytes) :
    pairs (bigEndian 2 n ++ rest) = n :: pairs rest := by
  have word : (UInt8.ofNat (n / 256 % 256)).toNat * 256 + (UInt8.ofNat (n % 256)).toNat = n := by
    rw [UInt8.toNat_ofNat',UInt8.toNat_ofNat']
    omega
  exact congrArg (· :: pairs rest) word

theorem pairs_signedBigEndian_append (n : Int) (rest : Bytes) :
    pairs (signedBigEndian 2 n ++ rest) = (n % 65536).toNat :: pairs rest :=
  pairs_bigEndian_append (n := (n % 65536).toNat) (by omega) rest

theorem pairs_flatMap_bigEndian {groups : List Nat} (fits : ∀ group ∈ groups, group < 65536) :
    pairs (groups.flatMap (bigEndian 2)) = groups := by
  induction groups with
  | nil => rfl
  | cons group rest ih =>
    rw [List.flatMap_cons,pairs_bigEndian_append (fits group List.mem_cons_self),
      ih fun g member => fits g (List.mem_cons_of_mem group member)]

theorem length_layout (negative : Bool) (scale : Nat) (weight : Int) (groups : List Nat) :
    (layout negative scale weight groups).length = 8 + 2 * groups.length := by
  have each : (groups.flatMap (bigEndian 2)).length = 2 * groups.length := by
    induction groups with
    | nil => rfl
    | cons group rest ih =>
      rw [List.flatMap_cons,List.length_append,bigEndian_length,ih,List.length_cons]
      omega
  simp only [layout,List.length_append,bigEndian_length,signedBigEndian_length,each]

theorem pairs_layout (negative : Bool) {scale : Nat} (weight : Int) {groups : List Nat}
    (known : scale ≤ 28) (count : groups.length < 65536) (digits : ∀ group ∈ groups, group < 65536) :
    pairs (layout negative scale weight groups) =
      groups.length :: (weight % 65536).toNat :: (if negative then 0x4000 else 0) :: scale ::
        groups := by
  have signWord : (if negative then 0x4000 else 0) < 65536 := by split <;> decide
  simp only [layout,List.append_assoc,pairs_bigEndian_append count,
    pairs_signedBigEndian_append,pairs_bigEndian_append signWord,
    pairs_bigEndian_append (Nat.lt_of_le_of_lt known (by decide)),
    pairs_flatMap_bigEndian digits]

/-- A word of two bytes read with its sign. -/
theorem bmod_word {weight : Int} (low : -32768 ≤ weight) (high : weight < 32768) :
    ((weight % 65536).toNat : Int).bmod (2 ^ 16) = weight := by
  rw [Int.toNat_of_nonneg (by omega)]
  change (weight % (65536 : Nat)).bmod 65536 = weight
  rw [Int.emod_bmod,Int.bmod_eq_of_le_mul_two]
  · change -(65536 : Int) ≤ _
    omega
  · change _ < (65536 : Int)
    omega

theorem beq_signWord (negative : Bool) : ((if negative then 0x4000 else 0) == 0x4000) = negative := by
  cases negative <;> rfl

theorem decode?_layout {negative : Bool} {scale : Nat} {weight : Int} {groups : List Nat}
    (known : scale ≤ 28) (low : -32768 ≤ weight) (high : weight < 32768)
    (count : groups.length < 65536) (digits : ∀ group ∈ groups, group < 65536) :
    decode? (layout negative scale weight groups) =
      (magnitude weight groups).bind fun m =>
        (Decimal.ofParts? negative m.coefficient m.scale).bind fun d => some (d.rescale scale) := by
  have finite : isFinite (if negative then 0x4000 else 0) = true := by cases negative <;> rfl
  simp only [decode?,pairs_layout negative weight known count digits,finite,bmod_word low high,
    beq_signWord,List.take_length,Nat.min_eq_left known]
  exact if_neg (by simp)

theorem joined_units {place last : Nat} {groups : List Nat} (n : Nat) (known : last ≤ 28)
    (ends : place + 4 * groups.length = last + 4) :
    joined n groups * 10 ^ (28 - last) =
      n * 10 ^ (28 - last + 4 * groups.length) + fractionUnits place groups := by
  induction groups generalizing n place with
  | nil => rfl
  | cons group rest ih =>
    rw [List.length_cons] at ends ⊢
    have worth : 28 - last + 4 * rest.length = 28 - place := by omega
    have shift : 28 - last + 4 * (rest.length + 1) = 4 + (28 - place) := by omega
    change joined (n * 10000 + group) rest * _ = _
    rw [@ih (place + 4) (n * 10000 + group) (by omega),worth,shift,Nat.add_mul,fractionUnits,
      Nat.pow_add,Nat.mul_assoc,Nat.add_assoc]

/-- The groups of a decimal on both sides of its point. -/
structure Cut (d : Decimal) (leading : Nat) (whole fraction : List Nat) : Prop where
  apart : leading = 0 ∨ whole = []
  within : Within d.scale (4 * (1 + leading)) fraction
  worth : joined 0 whole * 10 ^ 28 + fractionUnits (4 * (1 + leading)) fraction =
    d.coefficient * 10 ^ (28 - d.scale)
  digits : ∀ group ∈ whole ++ fraction, group < 10000
  leading_le : leading ≤ 8
  length_le : (whole ++ fraction).length ≤ 8

theorem Cut.trimRight {d : Decimal} {leading : Nat} {whole fraction : List Nat}
    (cut : Cut d leading whole fraction) : Cut d leading whole (trimRight fraction) := by
  obtain ⟨zeros,split,zero⟩ := exists_trimRight_append fraction
  have within := cut.within
  have worth := cut.worth
  have digits := cut.digits
  have length := cut.length_le
  rw [split] at within worth digits length
  rw [fractionUnits_append,fractionUnits_of_zeros _ zero] at worth
  rw [← List.append_assoc] at digits length
  rw [List.length_append] at length
  exact ⟨cut.apart,(within_append.mp within).1,worth,
    fun group member => digits group (List.mem_append_left zeros member),cut.leading_le,
    Nat.le_trans (Nat.le_add_right _ _) length⟩

variable (d : Decimal)

/-- How many groups the fraction has, with zeros added to fill the last one. -/
def fractionLength : Nat := (d.scale + 3) / 4

/-- The digits of a decimal as a whole number of groups of the fraction. -/
def filled : Nat := d.coefficient * 10 ^ (4 * fractionLength d - d.scale)

private theorem fractionLength_bounds : d.scale ≤ 4 * fractionLength d ∧
    4 * fractionLength d ≤ d.scale + 3 ∧ fractionLength d ≤ 7 := by
  have := d.scale_le
  rw [fractionLength]
  omega

theorem filled_units : filled d * 10 ^ (28 - 4 * fractionLength d) =
    d.coefficient * 10 ^ (28 - d.scale) := by
  have bounds := fractionLength_bounds d
  exact shift_units bounds.1 (by omega) d.coefficient

theorem filled_lt : filled d < 10000 ^ 8 := by
  have bounds := fractionLength_bounds d
  have most : 10 ^ (4 * fractionLength d - d.scale) ≤ 10 ^ 3 :=
    Nat.pow_le_pow_right (by decide) (by omega)
  calc filled d ≤ d.coefficient * 10 ^ 3 := Nat.mul_le_mul_left _ most
    _ < 10000 ^ 8 := by
      have := d.coefficient_lt
      omega

/-- The zeros that fill the last group stay at its end. -/
theorem dvd_last_group : 10 ^ (4 * fractionLength d - d.scale) ∣ filled d % 10000 := by
  have bounds := fractionLength_bounds d
  have group : 10 ^ (4 * fractionLength d - d.scale) ∣ 10 ^ 4 := Nat.pow_dvd_pow 10 (by omega)
  exact (Nat.dvd_mod_iff group).mpr (Nat.dvd_mul_left _ _)

/-- The groups that are sent, before zeros at the end of the fraction are left out. -/
def digits : List Nat := groupsOf (filled d)

def wholeLength : Nat := (digits d).length - fractionLength d

/-- How many groups of zeros stand between the point and the first digit. -/
def leadingLength : Nat := fractionLength d - (digits d).length

private theorem lengths : (wholeLength d = 0 ∨ leadingLength d = 0) ∧
    wholeLength d + fractionLength d = (digits d).length + leadingLength d := by
  rw [wholeLength,leadingLength]
  omega

/-- The last group ends where the fraction has its last digit, behind the zeros that fill it. -/
private theorem within_drop {place start : Nat}
    (ends : place + 4 * ((digits d).length - start) = 4 * fractionLength d + 4) :
    Within d.scale place ((digits d).drop start) := by
  have bounds := fractionLength_bounds d
  rw [digits,groupsOf] at ends ⊢
  split at ends
  · rw [dif_pos ‹_›,List.drop_nil]
    trivial
  · rw [dif_neg ‹_›]
    rw [List.length_append,List.length_singleton] at ends
    generalize groupsOf (filled d / 10000) = before at ends ⊢
    rcases Nat.lt_or_ge before.length start with beyond | inside
    · rw [List.drop_eq_nil_of_le (by simpa using Nat.succ_le_of_lt beyond)]
      trivial
    · have last : place + 4 * (before.drop start).length = 4 * fractionLength d := by
        rw [List.length_drop]
        omega
      rw [List.drop_append_of_le_length inside,within_append,last]
      exact ⟨within_of_le d.scale_le (by omega),by omega,dvd_last_group d,trivial⟩

/-- Cutting the digits at the point, which needs zeros before them where they are too few. -/
theorem cut_digits : Cut d (leadingLength d) ((digits d).take (wholeLength d))
    ((digits d).drop (wholeLength d)) := by
  obtain ⟨apart,lengths⟩ := lengths d
  have bounds := fractionLength_bounds d
  have ends : 4 * (1 + leadingLength d) + 4 * ((digits d).length - wholeLength d) =
      4 * fractionLength d + 4 := by
    have := Nat.sub_le (digits d).length (fractionLength d)
    rw [← wholeLength] at this
    omega
  refine ⟨?_,within_drop d ends,?_,?_,by omega,?_⟩
  · rcases apart with none | none
    · exact .inr (by rw [none,List.take_zero])
    · exact .inl none
  · rw [← List.length_drop] at ends
    have units := joined_units (joined 0 ((digits d).take (wholeLength d))) (by omega) ends
    rw [← joined_append,List.take_append_drop,digits,joined_groupsOf,filled_units,← digits] at units
    rw [units]
    rcases apart with none | none
    · simp [none,joined]
    · have exponent : 28 - 4 * fractionLength d +
          4 * ((digits d).drop (wholeLength d)).length = 28 := by omega
      rw [exponent]
  · rw [List.take_append_drop]
    exact lt_of_mem_groupsOf
  · rw [List.take_append_drop]
    exact length_groupsOf_le (filled_lt d)

/-- What is sent is the decimal cut at its point. -/
theorem exists_encode_eq (nonzero : d.isZero = false) : ∃ leading whole fraction,
    Cut d leading whole fraction ∧ encode d =
      layout d.negative d.scale (whole.length - leading - 1) (whole ++ fraction) := by
  have cut := cut_digits d
  have form : encode d = layout d.negative d.scale ((digits d).length - fractionLength d - 1)
      (if 0 ≤ ((digits d).length : Int) - fractionLength d - 1 then
        (digits d).take (wholeLength d) ++ trimRight ((digits d).drop (wholeLength d))
      else digits d) := by
    rw [encode,if_neg (by simp [nonzero])]
    rfl
  have weight : (((digits d).take (wholeLength d)).length : Int) - leadingLength d - 1 =
      (digits d).length - fractionLength d - 1 := by
    rw [List.length_take,wholeLength,leadingLength]
    omega
  split at form
  · exact ⟨_,_,_,cut.trimRight,by rw [form,weight]⟩
  · exact ⟨_,_,_,cut,by rw [form,weight,List.take_append_drop]⟩

theorem decode?_encode (nonzero : d.isZero = false) : decode? (encode d) = some d := by
  obtain ⟨leading,whole,fraction,cut,form⟩ := exists_encode_eq d nonzero
  have known := d.scale_le
  have positive : 0 < 10 ^ (28 - d.scale) := Nat.pow_pos (by decide)
  obtain ⟨m,sum,scale_le,units⟩ := magnitude_units known cut.apart cut.within (by
    rw [cut.worth]
    exact Nat.mul_lt_mul_of_pos_right d.coefficient_lt positive)
  -- The sum has the digits of the decimal, perhaps without zeros at its end.
  have coefficient : d.coefficient = m.coefficient * 10 ^ (d.scale - m.scale) := by
    apply Nat.eq_of_mul_eq_mul_right positive
    rw [shift_units scale_le known,← cut.worth,← units]
    rfl
  have short := Nat.le_mul_of_pos_right m.coefficient
    (Nat.pow_pos (by decide : 0 < 10) (n := d.scale - m.scale))
  have small : m.coefficient < 2 ^ 96 := Nat.lt_of_le_of_lt (coefficient ▸ short) d.coefficient_lt
  have parts : Decimal.ofParts? d.negative m.coefficient m.scale =
      some ⟨d.negative,m.coefficient,m.scale,small,Nat.le_trans scale_le known⟩ :=
    dif_pos ⟨small,Nat.le_trans scale_le known⟩
  have length := cut.length_le
  have leading_le := cut.leading_le
  rw [List.length_append] at length
  rw [form,decode?_layout known (by omega) (by omega) (by rw [List.length_append]; omega)
    fun group member => Nat.lt_trans (cut.digits group member) (by decide)]
  simp only [sum,parts,Option.bind_some]
  exact congrArg some (Decimal.rescale_eq rfl scale_le coefficient)

/-- Every zero is sent alike, and comes back without sign and scale. -/
theorem decode?_encode_zero (zero : d.isZero = true) : decode? (encode d) = some .zero := by
  rw [encode,if_pos zero]
  decide +kernel

/-- What is sent comes back as a decimal that is sent alike. -/
theorem exists_decode?_encode : ∃ d', decode? (encode d) = some d' ∧ encode d' = encode d := by
  cases zero : d.isZero with
  | false => exact ⟨d,decode?_encode d zero,rfl⟩
  | true =>
    refine ⟨.zero,decode?_encode_zero d zero,?_⟩
    rw [encode,encode,if_pos zero]
    rfl

end Numeric
end Wire
end FluentSql

import FluentSql.Calendar.Date

/-! The numbers of dates. Every date has a number of its own, and every number between those of
the first and the last date belongs to a date. -/
namespace FluentSql.Calendar

theorem yearStart_mono {a b : Int} (le : a ≤ b) : yearStart a ≤ yearStart b := by
  simp only [yearStart]
  omega

theorem yearStart_succ (year : Int) :
    yearStart (year + 1) = yearStart year + 365 + leapDay (isLeap year) := by
  have fourth := Int.emod_emod_of_dvd year (by decide : (4 : Int) ∣ 100)
  have hundredth := Int.emod_emod_of_dvd year (by decide : (100 : Int) ∣ 400)
  simp only [yearStart,isLeap,leapDay,Bool.and_eq_true,Bool.or_eq_true,beq_iff_eq,bne_iff_ne]
  split <;> omega

/-- The months of a year follow one another and end with it. -/
theorem monthStart_apart : ∀ leap : Bool, ∀ later < 13, ∀ month < later, 1 ≤ month →
    monthStart leap month + daysIn leap month ≤ monthStart leap later := by decide

theorem monthStart_add_daysIn_le : ∀ leap : Bool, ∀ month < 13, 1 ≤ month →
    monthStart leap month + daysIn leap month ≤ 365 + leapDay leap := by decide

/-- A day of the year lies in the month that is found for it. -/
theorem monthOf_bounds : ∀ leap : Bool, ∀ day < 365 + leapDay leap,
    1 ≤ Date.monthOf leap day ∧ Date.monthOf leap day < 13 ∧
    monthStart leap (Date.monthOf leap day) ≤ day ∧
    day < monthStart leap (Date.monthOf leap day) + daysIn leap (Date.monthOf leap day) := by
  decide +kernel

theorem month_unique {leap : Bool} {a b day : Nat} (afterA : 1 ≤ a) (untilA : a < 13)
    (afterB : 1 ≤ b) (untilB : b < 13) (fromA : monthStart leap a ≤ day)
    (toA : day < monthStart leap a + daysIn leap a) (fromB : monthStart leap b ≤ day)
    (toB : day < monthStart leap b + daysIn leap b) : a = b := by
  rcases Nat.lt_trichotomy a b with less | same | greater
  · have := monthStart_apart leap b untilB a less afterA
    omega
  · exact same
  · have := monthStart_apart leap a untilA b greater afterB
    omega

namespace Date

/-- The first guess at a year is off by one year at most. -/
private theorem yearOf_guess (day : Int) :
    yearStart (400 * day / 146097 - 1) ≤ day ∧ day < yearStart (400 * day / 146097 + 2) := by
  simp only [yearStart]
  omega

theorem yearOf_bounds (day : Int) :
    yearStart (yearOf day) ≤ day ∧ day < yearStart (yearOf day + 1) := by
  obtain ⟨low,high⟩ := yearOf_guess day
  simp only [yearOf]
  generalize 400 * day / 146097 = guess at low high
  split
  · rename_i early
    rw [Int.sub_add_cancel]
    exact ⟨low,early⟩
  · split
    · rename_i late
      rw [Int.add_assoc]
      exact ⟨late,high⟩
    · omega

theorem yearOf_eq {day year : Int} (low : yearStart year ≤ day)
    (high : day < yearStart (year + 1)) : yearOf day = year := by
  obtain ⟨low',high'⟩ := yearOf_bounds day
  rcases Int.lt_trichotomy (yearOf day) year with less | same | greater
  · have := yearStart_mono (Int.add_one_le_of_lt less)
    omega
  · exact same
  · have := yearStart_mono (Int.add_one_le_of_lt greater)
    omega

theorem of?_fields (d : Date) : of? d.year d.month d.day = some d :=
  dif_pos ⟨d.year_ge,d.year_le,d.month_pos,d.month_le,d.day_pos,d.day_le⟩

theorem monthOf_eq {leap : Bool} {month day : Nat} (after : 1 ≤ month) (before' : month < 13)
    (low : monthStart leap month ≤ day) (high : day < monthStart leap month + daysIn leap month) :
    monthOf leap day = month := by
  have inYear : day < 365 + leapDay leap :=
    Nat.lt_of_lt_of_le high (monthStart_add_daysIn_le leap month before' after)
  obtain ⟨after',before,low',high'⟩ := monthOf_bounds leap day inYear
  exact month_unique after' before after before' low' high' low high

/-- The day of the year of a date, counted from zero. -/
def dayOfYear (d : Date) : Nat := monthStart (isLeap d.year) d.month + (d.day - 1)

theorem number_eq (d : Date) : d.number + 730485 = yearStart d.year + d.dayOfYear := by
  have := d.day_pos
  rw [number,dayOfYear]
  omega

theorem dayOfYear_lt (d : Date) : d.dayOfYear < 365 + leapDay (isLeap d.year) := by
  have within := monthStart_add_daysIn_le (isLeap d.year) d.month
    (Nat.lt_succ_of_le d.month_le) d.month_pos
  have := d.day_pos
  have := d.day_le
  rw [dayOfYear]
  omega

theorem ofNumber?_number (d : Date) : ofNumber? d.number = some d := by
  have start := d.number_eq
  have inYear := d.dayOfYear_lt
  have year : yearOf (d.number + 730485) = d.year := by
    apply yearOf_eq
    · omega
    · rw [yearStart_succ]
      omega
  have day : (d.number + 730485 - yearStart d.year).toNat = d.dayOfYear := by omega
  have first := d.day_pos
  have last := d.day_le
  have month : monthOf (isLeap d.year) d.dayOfYear = d.month :=
    monthOf_eq d.month_pos (Nat.lt_succ_of_le d.month_le) (Nat.le_add_right ..)
      (Nat.add_lt_add_left (by omega) _)
  have rest : d.dayOfYear - monthStart (isLeap d.year) d.month + 1 = d.day := by
    rw [dayOfYear]
    omega
  simp only [ofNumber?,year,day,month,rest]
  exact of?_fields d

theorem number_bounds (d : Date) :
    yearStart (-262143) ≤ d.number + 730485 ∧ d.number + 730485 < yearStart 262143 := by
  have first := yearStart_mono d.year_ge
  have last := yearStart_mono (Int.add_le_add_right d.year_le 1)
  have inYear := d.dayOfYear_lt
  rw [yearStart_succ] at last
  rw [number_eq]
  constructor
  · omega
  · change _ < yearStart (262142 + 1)
    omega

private theorem exists_of? {year : Int} {month day : Nat} (least : -262143 ≤ year)
    (greatest : year ≤ 262142) (after : 1 ≤ month) (before : month < 13)
    (start : monthStart (isLeap year) month ≤ day)
    (stop : day < monthStart (isLeap year) month + daysIn (isLeap year) month) :
    ∃ d, of? year month (day - monthStart (isLeap year) month + 1) = some d ∧
      d.number + 730485 = yearStart year + day := by
  let d : Date := ⟨year,month,_,least,greatest,after,Nat.le_of_lt_succ before,Nat.le_add_left 1 _,
    Nat.add_one_le_of_lt (Nat.sub_lt_left_of_lt_add start stop)⟩
  have inYear : d.dayOfYear = day := Nat.add_sub_cancel' start
  refine ⟨d,of?_fields d,?_⟩
  rw [number_eq,inYear]

theorem exists_ofNumber? {n : Int} (low : yearStart (-262143) ≤ n + 730485)
    (high : n + 730485 < yearStart 262143) : ∃ d, ofNumber? n = some d ∧ d.number = n := by
  obtain ⟨since,before⟩ := yearOf_bounds (n + 730485)
  simp only [ofNumber?]
  generalize yearOf (n + 730485) = year at since before ⊢
  have inYear := before
  rw [yearStart_succ] at inYear
  have least : -262143 ≤ year := by
    apply Int.not_lt.mp
    intro early
    have := yearStart_mono (Int.add_one_le_of_lt early)
    omega
  have greatest : year ≤ 262142 := by
    apply Int.not_lt.mp
    intro late
    have := yearStart_mono (Int.add_one_le_of_lt late)
    change yearStart 262143 ≤ _ at this
    omega
  obtain ⟨after,before',start,stop⟩ :=
    monthOf_bounds (isLeap year) (n + 730485 - yearStart year).toNat (by omega)
  obtain ⟨d,found,number⟩ := exists_of? least greatest after before' start stop
  exact ⟨d,found,by omega⟩

end Date
end FluentSql.Calendar

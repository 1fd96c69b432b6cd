/-! Days of the proleptic Gregorian calendar, which has a year zero, and their numbers counted
from 2000-01-01. -/
namespace FluentSql.Calendar

def isLeap (year : Int) : Bool := year % 4 == 0 && (year % 100 != 0 || year % 400 == 0)

def leapDay (leap : Bool) : Nat := if leap then 1 else 0

def daysIn (leap : Bool) : Nat → Nat
  | 2 => 28 + leapDay leap
  | 4 | 6 | 9 | 11 => 30
  | _ => 31

def monthStart (leap : Bool) : Nat → Nat
  | 2 => 31
  | 3 => 59 + leapDay leap
  | 4 => 90 + leapDay leap
  | 5 => 120 + leapDay leap
  | 6 => 151 + leapDay leap
  | 7 => 181 + leapDay leap
  | 8 => 212 + leapDay leap
  | 9 => 243 + leapDay leap
  | 10 => 273 + leapDay leap
  | 11 => 304 + leapDay leap
  | 12 => 334 + leapDay leap
  | _ => 0

/-- Days from 0000-01-01 to the first day of a year. -/
def yearStart (year : Int) : Int :=
  365 * year + (year + 3) / 4 - (year + 99) / 100 + (year + 399) / 400

structure Date where
  year : Int
  month : Nat
  day : Nat
  year_ge : -262143 ≤ year
  year_le : year ≤ 262142
  month_pos : 1 ≤ month
  month_le : month ≤ 12
  day_pos : 1 ≤ day
  day_le : day ≤ daysIn (isLeap year) month
  deriving DecidableEq

namespace Date

def of? (year : Int) (month day : Nat) : Option Date :=
  if h : -262143 ≤ year ∧ year ≤ 262142 ∧ 1 ≤ month ∧ month ≤ 12 ∧ 1 ≤ day ∧
      day ≤ daysIn (isLeap year) month then
    some ⟨year,month,day,h.1,h.2.1,h.2.2.1,h.2.2.2.1,h.2.2.2.2.1,h.2.2.2.2.2⟩
  else none

/-- Days since 2000-01-01. -/
def number (d : Date) : Int :=
  yearStart d.year + monthStart (isLeap d.year) d.month + (d.day - 1) - 730485

/-- The year in which a day lies that is counted from 0000-01-01. -/
def yearOf (day : Int) : Int :=
  let guess := 400 * day / 146097
  if day < yearStart guess then guess - 1
  else if yearStart (guess + 1) ≤ day then guess + 1
  else guess

/-- The month in which a day lies that is counted from the first of January. -/
def monthOf (leap : Bool) (day : Nat) : Nat :=
  1 + [2,3,4,5,6,7,8,9,10,11,12].countP (fun month => monthStart leap month ≤ day)

/-- The date with a given number of days since 2000-01-01, if its year can be represented. -/
def ofNumber? (n : Int) : Option Date :=
  let day := n + 730485
  let year := yearOf day
  let dayOfYear := (day - yearStart year).toNat
  let month := monthOf (isLeap year) dayOfYear
  of? year month (dayOfYear - monthStart (isLeap year) month + 1)

end Date
end FluentSql.Calendar

import FluentSql.Calendar.Date

/-! Times of day and timestamps to the nanosecond. In a leap second the nanoseconds go on past a
whole second. Times that are made of numbers have one only after second 59, but a time may hold
one after any second. -/
namespace FluentSql.Calendar

structure Time where
  hour : Nat
  minute : Nat
  second : Nat
  nano : Nat
  hour_lt : hour < 24
  minute_lt : minute < 60
  second_lt : second < 60
  nano_lt : nano < 2000000000
  deriving DecidableEq

namespace Time

def of? (hour minute second nano : Nat) : Option Time :=
  if h : hour < 24 ∧ minute < 60 ∧ second < 60 ∧ nano < 2000000000 ∧
      (1000000000 ≤ nano → second = 59) then
    some ⟨hour,minute,second,nano,h.1,h.2.1,h.2.2.1,h.2.2.2.1⟩
  else none

def midnight : Time := ⟨0,0,0,0,by decide,by decide,by decide,by decide⟩

def isLeapSecond (t : Time) : Bool := 1000000000 ≤ t.nano

/-- Nanoseconds since midnight; a leap second runs into the second that follows. -/
def nanoseconds (t : Time) : Nat :=
  ((t.hour * 60 + t.minute) * 60 + t.second) * 1000000000 + t.nano

end Time

structure Timestamp where
  date : Date
  time : Time
  deriving DecidableEq

namespace Timestamp

def atMidnight (d : Date) : Timestamp := ⟨d,.midnight⟩

/-- Whole microseconds since 2000-01-01 00:00:00, cut toward zero. -/
def microseconds (t : Timestamp) : Int :=
  (t.date.number * 86400000000000 + t.time.nanoseconds).tdiv 1000

def ofMicroseconds? (n : Int) : Option Timestamp := do
  let ofDay := (n % 86400000000).toNat
  let date ← Date.ofNumber? (n / 86400000000)
  let time ← Time.of? (ofDay / 3600000000) (ofDay / 60000000 % 60) (ofDay / 1000000 % 60)
    (ofDay % 1000000 * 1000)
  some ⟨date,time⟩

def minutesEarlier? (t : Timestamp) (minutes : Int) : Option Timestamp := do
  let total := t.date.number * 1440 + (t.time.hour * 60 + t.time.minute : Nat) - minutes
  let ofDay := (total % 1440).toNat
  let date ← Date.ofNumber? (total / 1440)
  let time : Time := { t.time with
    hour := ofDay / 60
    minute := ofDay % 60
    hour_lt := by omega
    minute_lt := by omega }
  some ⟨date,time⟩

end Timestamp

structure Instant where
  utc : Timestamp
  deriving DecidableEq

end FluentSql.Calendar

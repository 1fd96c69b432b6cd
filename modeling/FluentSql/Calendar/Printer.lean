import FluentSql.Calendar.Timestamp
import FluentSql.Text.Numeral

/-! Text of dates and timestamps. Years outside 0 to 9999 carry a sign, and fractions of a
second are written with the fewest of 0, 3, 6 or 9 digits that are exact. -/
namespace FluentSql.Calendar
open Numeral

def renderYear (year : Int) : List Char :=
  if 0 ≤ year ∧ year ≤ 9999 then padded 4 year.toNat
  else (if year < 0 then '-' else '+') :: padded 4 year.natAbs

def Date.render (d : Date) : List Char :=
  renderYear d.year ++ '-' :: padded 2 d.month ++ '-' :: padded 2 d.day

def renderFraction (nano : Nat) : List Char :=
  if nano = 0 then []
  else if nano % 1000000 = 0 then '.' :: padded 3 (nano / 1000000)
  else if nano % 1000 = 0 then '.' :: padded 6 (nano / 1000)
  else '.' :: padded 9 nano

/-- A leap second is second 60. -/
def Time.render (t : Time) : List Char :=
  padded 2 t.hour ++ ':' :: padded 2 t.minute ++
    ':' :: padded 2 (t.second + t.nano / 1000000000) ++ renderFraction (t.nano % 1000000000)

namespace Timestamp

def renderWith (separator : Char) (t : Timestamp) : List Char :=
  t.date.render ++ separator :: t.time.render

def render (t : Timestamp) : List Char := t.renderWith ' '

end Timestamp

namespace Instant

def render (i : Instant) : List Char := i.utc.render ++ [' ','U','T','C']

def renderOffset (i : Instant) : List Char :=
  i.utc.renderWith 'T' ++ ['+','0','0',':','0','0']

end Instant
end FluentSql.Calendar

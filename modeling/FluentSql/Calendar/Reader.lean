import FluentSql.Calendar.Timestamp
import FluentSql.Text.Blank
import FluentSql.Text.Numeral

/-! Reading dates and timestamps. Fields are checked as they are met, then that nothing
follows, and last that the day exists. A timestamp is a date with a time, or a date alone for
its midnight; one with an offset from UTC has a stricter form. -/
namespace FluentSql.Calendar
open Text

inductive ReadError
  | tooShort
  | invalid
  | outOfRange
  | trailing
  deriving DecidableEq

def ReadError.message : ReadError → String
  | .tooShort => "premature end of input"
  | .invalid => "input contains invalid characters"
  | .outOfRange => "input is out of range"
  | .trailing => "trailing input"

abbrev Scan := StateT (List Char) (Except ReadError)

def scanChar (c : Char) : Scan Unit
  | [] => .error .tooShort
  | d :: rest => if d = c then .ok ((),rest) else .error .invalid

/-- The digits at the front of `window`, of which at least `least` are wanted; `rest` is what
stands behind the window. -/
def readDigits (least : Nat) (window rest : List Char) : Except ReadError (Nat × List Char) :=
  let digits := window.takeWhile Char.isDigit
  let n := Nat.ofDigitChars 10 digits 0
  if window.length + rest.length < least then .error .tooShort
  else if digits.length < least then .error .invalid
  else if 2 ^ 63 ≤ n then .error .outOfRange
  else .ok (n,window.dropWhile Char.isDigit ++ rest)

def scanNumber (least most : Nat) : Scan Nat := fun cs =>
  readDigits least (cs.take most) (cs.drop most)

def check (inRange : Bool) : Scan Unit := if inRange then pure () else throw .outOfRange

def scanField (least most low high : Nat) : Scan Nat := do
  let n ← scanNumber least most
  check (low ≤ n && n ≤ high)
  return n

def scanBlanks : Scan Unit := modify skipBlanks

def scanShort (low high : Nat) : Scan Nat := do
  scanBlanks
  scanField 1 2 low high

/-- Up to four digits, or any number of digits behind a sign. -/
def scanSigned : Scan Int
  | '-' :: digits => (readDigits 1 digits []).map fun (n,rest) => (-(n : Int),rest)
  | '+' :: digits => (readDigits 1 digits []).map fun (n,rest) => ((n : Int),rest)
  | digits => (scanNumber 1 4 digits).map fun (n,rest) => ((n : Int),rest)

def scanYear : Scan Int := do
  scanBlanks
  let year ← scanSigned
  check (-2 ^ 31 ≤ year && year < 2 ^ 31)
  return year

structure Ymd where
  year : Int
  month : Nat
  day : Nat

def scanYmd : Scan Ymd := do
  let year ← scanYear
  scanChar '-'
  let month ← scanShort 1 12
  scanChar '-'
  let day ← scanShort 1 31
  return ⟨year,month,day⟩

/-- A point and digits, or nothing; digits beyond the ninth do not count. -/
def scanFraction : Scan Nat
  | '.' :: cs => do
    let (n,rest) ← scanNumber 1 9 cs
    let places := ((cs.take 9).takeWhile Char.isDigit).length
    .ok (n * Nat.pow 10 (9 - places),rest.dropWhile Char.isDigit)
  | cs => .ok (0,cs)

/-- Hour, minute, second and nanosecond as they stand; second 60 is the leap second. -/
structure Clock where
  hour : Nat
  minute : Nat
  second : Nat
  nano : Nat

def scanClock : Scan Clock := do
  let hour ← scanShort 0 23
  scanChar ':'
  let minute ← scanShort 0 59
  scanChar ':'
  let second ← scanShort 0 60
  let nano ← scanFraction
  return ⟨hour,minute,second,nano⟩

def Scan.readAll {α : Type} (scan : Scan α) (text : List Char) : Except ReadError α :=
  match scan text with
  | .ok (x,[]) => .ok x
  | .ok (_,_ :: _) => .error .trailing
  | .error e => .error e

def Ymd.toDate (ymd : Ymd) : Except ReadError Date :=
  match Date.of? ymd.year ymd.month ymd.day with
  | some d => .ok d
  | none => .error .outOfRange

def Clock.toTime (c : Clock) : Except ReadError Time :=
  let time := if c.second = 60 then Time.of? c.hour c.minute 59 (c.nano + 1000000000)
    else Time.of? c.hour c.minute c.second c.nano
  match time with
  | some t => .ok t
  | none => .error .outOfRange

def Date.read (text : List Char) : Except ReadError Date := do
  let ymd ← scanYmd.readAll (trim text)
  ymd.toDate

/-- What may stand between date and time: any number of blanks, or the letter T. -/
inductive Separator
  | blanks
  | letterT

def Separator.scan : Separator → Scan Unit
  | .blanks => scanBlanks
  | .letterT => scanChar 'T'

namespace Timestamp

def scanWith (separator : Separator) : Scan (Ymd × Clock) := do
  let ymd ← scanYmd
  separator.scan
  let clock ← scanClock
  return (ymd,clock)

def readWith (separator : Separator) (text : List Char) : Except ReadError Timestamp := do
  let (ymd,clock) ← (scanWith separator).readAll text
  let time ← clock.toTime
  let date ← ymd.toDate
  return ⟨date,time⟩

/-- The error is that of the last attempt, the date alone. -/
def read (text : List Char) : Except ReadError Timestamp :=
  match readWith .blanks (trim text), readWith .letterT (trim text) with
  | .ok t, _ => .ok t
  | .error _, .ok t => .ok t
  | .error _, .error _ => (Date.read text).map atMidnight

end Timestamp

namespace Instant

/-- Minutes ahead of UTC: `Z`, or a sign, hours and minutes. -/
def scanOffset : Scan Int
  | [] => .error .tooShort
  | c :: cs =>
    if c = 'Z' ∨ c = 'z' then .ok (0,cs)
    else if c = '+' ∨ c = '-' ∨ c = '\u2212' then do
      let (hours,cs) ← scanField 2 2 0 23 cs
      let ((),cs) ← scanChar ':' cs
      let (minutes,cs) ← scanField 2 2 0 59 cs
      let ahead : Int := (hours * 60 + minutes : Nat)
      .ok (if c = '+' then ahead else -ahead,cs)
    else .error .invalid

def scanDateMark : Scan Unit
  | [] => .error .tooShort
  | c :: rest => if c = 'T' ∨ c = 't' ∨ c = ' ' then .ok ((),rest) else .error .invalid

/-- Date and time with all their digits, then the offset from UTC. -/
def scanExact : Scan (Ymd × Clock × Int) := do
  let year ← scanField 4 4 0 9999
  scanChar '-'
  let month ← scanField 2 2 1 12
  scanChar '-'
  let day ← scanField 2 2 1 31
  scanDateMark
  let hour ← scanField 2 2 0 23
  scanChar ':'
  let minute ← scanField 2 2 0 59
  scanChar ':'
  let second ← scanField 2 2 0 60
  let nano ← scanFraction
  let ahead ← scanOffset
  return (⟨year,month,day⟩,⟨hour,minute,second,nano⟩,ahead)

def readOffset (text : List Char) : Except ReadError Instant := do
  let (ymd,clock,ahead) ← scanExact.readAll text
  let date ← ymd.toDate
  let time ← clock.toTime
  match Timestamp.minutesEarlier? ⟨date,time⟩ ahead with
  | some t => .ok ⟨t⟩
  | none => .error .outOfRange

/-- An offset counts where the text has one in full, and a text without is taken as UTC. -/
def read (text : List Char) : Except ReadError Instant :=
  match readOffset (trim text) with
  | .ok t => .ok t
  | .error _ => (Timestamp.read text).map Instant.mk

end Instant
end FluentSql.Calendar

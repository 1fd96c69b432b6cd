import FluentSql.Calendar.Printer
import FluentSql.Proofs.Calendar.Microseconds
import FluentSql.Proofs.Calendar.Reading

/-! Dates and timestamps read back from their text. Fields of fixed width end by themselves; a year
with a sign and the fraction of a second end at the first character that is no digit. A leap
second before the last second of a minute is written as the second after it, and read as such:
what is read then is another timestamp, of the same count. -/
namespace FluentSql.Calendar
open Text Scan Numeral

variable {n : Nat} {rest : List Char}

theorem readDigits_append (least : Nat) (behind : List Char) {digits : List Char}
    (all : ∀ c ∈ digits, c.isDigit = true) (stops : Stops rest) (enough : least ≤ digits.length)
    (value : Nat.ofDigitChars 10 digits 0 = n) (small : n < 2 ^ 63) :
    Calendar.readDigits least (digits ++ rest) behind = .ok (n,rest ++ behind) := by
  simp only [Calendar.readDigits,takeWhile_isDigit_append all stops,
    dropWhile_isDigit_append all stops,value]
  rw [if_neg (by rw [List.length_append]; omega),if_neg (by omega),if_neg (by omega)]

theorem scanNumber_padded {least width : Nat} (some : 0 < width) (le : least ≤ width)
    (short : width ≤ 18) (fits : n < 10 ^ width) (rest : List Char) :
    scanNumber least width (padded width n ++ rest) = .ok (n,rest) := by
  have length := length_padded some fits
  have bound : 10 ^ width ≤ 10 ^ 18 := Nat.pow_le_pow_right (by decide) short
  have read := readDigits_append least rest (fun c => isDigit_of_mem_padded) stops_nil (by omega)
    (ofDigitChars_padded width n) (by omega)
  rw [List.append_nil] at read
  rw [scanNumber,List.take_left' length,List.drop_left' length]
  exact read

theorem scanField_padded {low high width : Nat} (some : 0 < width) (short : width ≤ 18)
    (fits : n < 10 ^ width) (inRange : low ≤ n ∧ n ≤ high) (rest : List Char) :
    scanField width width low high (padded width n ++ rest) = .ok (n,rest) := by
  refine bind_ok_iff.mpr ⟨n,rest,scanNumber_padded some (Nat.le_refl width) short fits rest,?_⟩
  refine bind_ok_iff.mpr ⟨(),rest,check_ok_iff.mpr ⟨?_,rfl⟩,rfl⟩
  rw [decide_eq_true inRange.1,decide_eq_true inRange.2]
  rfl

theorem scanSigned_renderYear {year : Int} (low : -262143 ≤ year) (high : year ≤ 262142)
    (stops : Stops rest) : scanSigned (renderYear year ++ rest) = .ok (year,rest) := by
  rw [renderYear]
  split
  next unsigned =>
    have read : scanNumber 1 4 (padded 4 year.toNat ++ rest) = .ok (year.toNat,rest) :=
      scanNumber_padded (by decide) (by decide) (by decide) (by omega) rest
    rw [scanSigned_of_scanNumber read,Int.toNat_of_nonneg unsigned.1]
  next signed =>
    have read := readDigits_append 1 [] (fun c => isDigit_of_mem_padded) stops
      (Nat.le_trans (by decide) (le_length_padded 4 year.natAbs)) (ofDigitChars_padded 4 _)
      (by omega)
    rw [List.append_nil] at read
    split
    next negative =>
      have value : -(year.natAbs : Int) = year := by omega
      change (Calendar.readDigits 1 (padded 4 year.natAbs ++ rest) []).map _ = _
      rw [read]
      exact congrArg (fun y => Except.ok (y,rest)) value
    next positive =>
      have value : (year.natAbs : Int) = year := by omega
      change (Calendar.readDigits 1 (padded 4 year.natAbs ++ rest) []).map _ = _
      rw [read]
      exact congrArg (fun y => Except.ok (y,rest)) value

theorem solid_renderYear (year : Int) : Solid (renderYear year) := by
  rw [renderYear]
  split
  · exact solid_padded (by decide) _
  · exact (solid_padded (by decide) _).cons (by split <;> decide)

theorem scanYear_render {year : Int} (low : -262143 ≤ year) (high : year ≤ 262142)
    (stops : Stops rest) : scanYear (renderYear year ++ rest) = .ok (year,rest) := by
  have unblanked : scanBlanks (renderYear year ++ rest) = .ok ((),renderYear year ++ rest) :=
    congrArg (fun cs => Except.ok ((),cs)) (skipBlanks_of_head ((solid_renderYear year).head rest))
  refine bind_ok_iff.mpr ⟨(),_,unblanked,?_⟩
  refine bind_ok_iff.mpr ⟨year,rest,scanSigned_renderYear low high stops,?_⟩
  refine bind_ok_iff.mpr ⟨(),rest,check_ok_iff.mpr ⟨?_,rfl⟩,rfl⟩
  rw [Bool.and_eq_true,decide_eq_true_eq,decide_eq_true_eq]
  omega

theorem exactYear_render {year : Int} (low : 0 ≤ year) (high : year ≤ 9999) (rest : List Char) :
    exactYear (renderYear year ++ rest) = .ok (year,rest) := by
  have read : scanField 4 4 0 9999 (padded 4 year.toNat ++ rest) = .ok (year.toNat,rest) :=
    scanField_padded (by decide) (by decide) (by omega) ⟨by omega,by omega⟩ rest
  rw [renderYear,if_pos ⟨low,high⟩]
  refine bind_ok_iff.mpr ⟨year.toNat,rest,read,?_⟩
  exact congrArg (fun y => Except.ok (y,rest)) (Int.toNat_of_nonneg low)

namespace Date

theorem render_append (d : Date) (rest : List Char) : d.render ++ rest =
    renderYear d.year ++ '-' :: (padded 2 d.month ++ '-' :: (padded 2 d.day ++ rest)) := by
  simp only [render,List.append_assoc,List.cons_append]

theorem day_le_31 (d : Date) : d.day ≤ 31 := by
  refine Nat.le_trans d.day_le ?_
  rw [daysIn.eq_def]
  cases isLeap d.year <;> split <;> decide

theorem exactBehind_render (d : Date) (rest : List Char) {year : Scan Int}
    (read : year (d.render ++ rest) =
      .ok (d.year,'-' :: (padded 2 d.month ++ '-' :: (padded 2 d.day ++ rest)))) :
    exactBehind year (d.render ++ rest) = .ok (⟨d.year,d.month,d.day⟩,rest) := by
  have month := d.month_le
  have day := d.day_le_31
  refine bind_ok_iff.mpr ⟨_,_,read,?_⟩
  refine bind_ok_iff.mpr ⟨(),_,scanChar_ok_iff.mpr rfl,?_⟩
  refine bind_ok_iff.mpr ⟨_,_,scanField_padded (by decide) (by decide) (by omega)
    ⟨d.month_pos,month⟩ _,?_⟩
  refine bind_ok_iff.mpr ⟨(),_,scanChar_ok_iff.mpr rfl,?_⟩
  exact bind_ok_iff.mpr ⟨_,_,scanField_padded (by decide) (by decide) (by omega)
    ⟨d.day_pos,day⟩ _,rfl⟩

theorem exactYmd_render {d : Date} (low : 0 ≤ d.year) (high : d.year ≤ 9999) (rest : List Char) :
    exactYmd (d.render ++ rest) = .ok (⟨d.year,d.month,d.day⟩,rest) := by
  refine d.exactBehind_render rest (?_ : exactYear _ = _)
  rw [render_append]
  exact exactYear_render low high _

theorem scanYmd_render (d : Date) (rest : List Char) :
    scanYmd (d.render ++ rest) = .ok (⟨d.year,d.month,d.day⟩,rest) := by
  refine refines_exactBehind (Refines.refl scanYear) _ _ (d.exactBehind_render rest ?_)
  rw [render_append]
  exact scanYear_render d.year_ge d.year_le (stops_cons rfl _)

theorem toDate_fields (d : Date) : Ymd.toDate ⟨d.year,d.month,d.day⟩ = .ok d := by
  simp only [Ymd.toDate,of?_fields]

theorem solid_render (d : Date) : Solid d.render :=
  have field (n : Nat) : Solid ('-' :: padded 2 n) := (solid_padded (by decide) n).cons rfl
  ((solid_renderYear d.year).append (field d.month)).append (field d.day)

theorem read_render (d : Date) : Date.read d.render = .ok d := by
  have all : scanYmd.readAll (trim d.render) = .ok ⟨d.year,d.month,d.day⟩ := by
    rw [trim_of_forall d.solid_render.all,readAll_ok_iff]
    exact List.append_nil d.render ▸ d.scanYmd_render []
  exact (Traversal.bind_ok_iff ..).mpr ⟨_,all,d.toDate_fields⟩

end Date

/-- What may stand behind a time without becoming a part of it. -/
structure EndsTime (rest : List Char) : Prop where
  stops : Stops rest
  noPoint : '.' ∉ rest.head?

theorem scanFraction_padded {places : Nat} (some : 0 < places) (most : places ≤ 9)
    (fits : n < 10 ^ places) (stops : Stops rest) :
    scanFraction ('.' :: (padded places n ++ rest)) = .ok (n * Nat.pow 10 (9 - places),rest) := by
  have length := length_padded some fits
  have small : 10 ^ places ≤ 10 ^ 9 := Nat.pow_le_pow_right (by decide) most
  have window : (padded places n ++ rest).take 9 = padded places n ++ rest.take (9 - places) := by
    rw [List.take_append,length,List.take_of_length_le (by omega)]
  have behind : (padded places n ++ rest).drop 9 = rest.drop (9 - places) := by
    rw [List.drop_append,length,List.drop_of_length_le (by omega),List.nil_append]
  have stopsInside : Stops (rest.take (9 - places)) := by
    cases rest with
    | nil =>
      rw [List.take_nil]
      exact stops_nil
    | cons c rest =>
      cases 9 - places with
      | zero => exact stops_nil
      | succ more => exact stops_cons (stops c rfl) _
  have read : scanNumber 1 9 (padded places n ++ rest) = .ok (n,rest) := by
    have digits := readDigits_append 1 (rest.drop (9 - places)) (fun c => isDigit_of_mem_padded)
      stopsInside (by omega) (ofDigitChars_padded places n) (by omega)
    rw [scanNumber,window,behind,digits,List.take_append_drop]
  have counted : (((padded places n ++ rest).take 9).takeWhile Char.isDigit).length = places := by
    rw [window,takeWhile_isDigit_append (fun c => isDigit_of_mem_padded) stopsInside,length]
  have left : rest.dropWhile Char.isDigit = rest :=
    dropWhile_isDigit_append (List.forall_mem_nil _) stops
  rw [scanFraction,read]
  change Except.ok (n * Nat.pow 10 (9 - _),rest.dropWhile Char.isDigit) = _
  rw [counted,left]

theorem scanFraction_render {nano : Nat} (fits : nano < 10 ^ 9) (ends : EndsTime rest) :
    scanFraction (renderFraction nano ++ rest) = .ok (nano,rest) := by
  have shown {places part : Nat} (some : 0 < places) (most : places ≤ 9) (fits : part < 10 ^ places)
      (value : part * Nat.pow 10 (9 - places) = nano) :
      scanFraction ('.' :: padded places part ++ rest) = .ok (nano,rest) := by
    rw [← value]
    exact scanFraction_padded some most fits ends.stops
  rw [renderFraction]
  split
  next whole =>
    rw [whole,List.nil_append]
    have other : ∀ cs, rest = '.' :: cs → False := fun cs point => ends.noPoint (point ▸ rfl)
    rw [scanFraction.eq_2 _ other]
  next =>
    split
    next thousandths =>
      exact shown (by decide) (by decide) (by omega)
        (Nat.div_mul_cancel (Nat.dvd_of_mod_eq_zero thousandths))
    next =>
      split
      next millionths =>
        exact shown (by decide) (by decide) (by omega)
          (Nat.div_mul_cancel (Nat.dvd_of_mod_eq_zero millionths))
      next => exact shown (by decide) (by decide) fits (Nat.mul_one nano)

namespace Time

/-- The second as it is shown, which is 60 in a leap second. -/
def clock (t : Time) : Clock :=
  ⟨t.hour,t.minute,t.second + t.nano / 1000000000,t.nano % 1000000000⟩

/-- The time as it is read back: only second 60 is read as a leap second. -/
def settled (t : Time) : Time :=
  if early : 1000000000 ≤ t.nano ∧ t.second < 59 then
    { t with
      second := t.second + 1
      nano := t.nano - 1000000000
      second_lt := by omega
      nano_lt := Nat.lt_of_le_of_lt (Nat.sub_le ..) t.nano_lt }
  else t

theorem nanoseconds_settled (t : Time) : t.settled.nanoseconds = t.nanoseconds := by
  unfold settled
  split
  next early =>
    simp only [nanoseconds]
    omega
  next => rfl

private theorem toTime_ok {t : Time} (last : 1000000000 ≤ t.nano → t.second = 59) :
    t.clock.toTime = .ok t := by
  have nano := t.nano_lt
  have second := t.second_lt
  have same := of?_fields last
  by_cases leap : 1000000000 ≤ t.nano
  · have shown : t.second + t.nano / 1000000000 = 60 := by omega
    have full : t.nano % 1000000000 + 1000000000 = t.nano := by omega
    rw [last leap] at same
    simp only [Clock.toTime,clock,if_pos shown,full,same]
  · have shown : t.second + t.nano / 1000000000 = t.second := by omega
    have full : t.nano % 1000000000 = t.nano := by omega
    simp only [Clock.toTime,clock,shown,full,if_neg (Nat.ne_of_lt second),same]

private theorem clock_settled (t : Time) : t.settled.clock = t.clock := by
  have nano := t.nano_lt
  unfold settled
  split
  next early =>
    have shown : t.second + 1 + (t.nano - 1000000000) / 1000000000 =
        t.second + t.nano / 1000000000 := by omega
    have full : (t.nano - 1000000000) % 1000000000 = t.nano % 1000000000 := by omega
    simp only [clock,shown,full]
  next => rfl

theorem toTime_clock (t : Time) : t.clock.toTime = .ok t.settled := by
  have last : 1000000000 ≤ t.settled.nano → t.settled.second = 59 := by
    have nano := t.nano_lt
    have second := t.second_lt
    unfold settled
    split
    · intro leap
      simp only at leap
      omega
    · intro leap
      omega
  rw [← t.clock_settled]
  exact toTime_ok last

theorem render_append (t : Time) (rest : List Char) : t.render ++ rest =
    padded 2 t.hour ++ ':' :: (padded 2 t.minute ++ ':' :: (padded 2 t.clock.second ++
      (renderFraction t.clock.nano ++ rest))) := by
  simp only [render,clock,List.append_assoc,List.cons_append]

theorem exactClock_render (t : Time) (ends : EndsTime rest) :
    exactClock (t.render ++ rest) = .ok (t.clock,rest) := by
  have hour := t.hour_lt
  have minute := t.minute_lt
  have second : t.clock.second ≤ 60 := by
    have nano := t.nano_lt
    have regular := t.second_lt
    change t.second + t.nano / 1000000000 ≤ 60
    omega
  rw [render_append]
  refine bind_ok_iff.mpr ⟨_,_,scanField_padded (by decide) (by decide) (by omega)
    ⟨Nat.zero_le _,by omega⟩ _,?_⟩
  refine bind_ok_iff.mpr ⟨(),_,scanChar_ok_iff.mpr rfl,?_⟩
  refine bind_ok_iff.mpr ⟨_,_,scanField_padded (by decide) (by decide) (by omega)
    ⟨Nat.zero_le _,by omega⟩ _,?_⟩
  refine bind_ok_iff.mpr ⟨(),_,scanChar_ok_iff.mpr rfl,?_⟩
  refine bind_ok_iff.mpr ⟨_,_,scanField_padded (by decide) (by decide) (by omega)
    ⟨Nat.zero_le _,second⟩ _,?_⟩
  exact bind_ok_iff.mpr ⟨_,_,scanFraction_render (Nat.mod_lt _ (by decide)) ends,rfl⟩

theorem solid_render (t : Time) : Solid t.render := by
  have field (n : Nat) : Solid (':' :: padded 2 n) := (solid_padded (by decide) n).cons rfl
  have shown : Solid (padded 2 t.hour ++ ':' :: padded 2 t.minute ++
      ':' :: padded 2 t.clock.second) :=
    ((solid_padded (by decide) t.hour).append (field t.minute)).append (field t.clock.second)
  have fraction {places n : Nat} (some : 0 < places) : Solid ('.' :: padded places n) :=
    (solid_padded some n).cons rfl
  change Solid (_ ++ renderFraction t.clock.nano)
  rw [renderFraction]
  split
  · rw [List.append_nil]
    exact shown
  · refine shown.append ?_
    split
    · exact fraction (by decide)
    · split <;> exact fraction (by decide)

end Time

theorem endsTime_nil : EndsTime [] := ⟨stops_nil,nofun⟩

namespace Timestamp

theorem minutesEarlier?_zero (t : Timestamp) : t.minutesEarlier? 0 = some t := by
  have hour := t.time.hour_lt
  have minute := t.time.minute_lt
  have day : (t.date.number * 1440 + ((t.time.hour * 60 + t.time.minute : Nat) : Int) - 0) / 1440 =
      t.date.number := by omega
  have ofDay : ((t.date.number * 1440 + ((t.time.hour * 60 + t.time.minute : Nat) : Int) - 0) %
      1440).toNat = t.time.hour * 60 + t.time.minute := by omega
  have hours : (t.time.hour * 60 + t.time.minute) / 60 = t.time.hour := by omega
  have minutes : (t.time.hour * 60 + t.time.minute) % 60 = t.time.minute := by omega
  simp only [minutesEarlier?,day,ofDay,hours,minutes,Date.ofNumber?_number,Option.bind_eq_bind,
    Option.bind_some]

theorem trim_renderWith (t : Timestamp) (separator : Char) :
    trim (t.renderWith separator) = t.renderWith separator :=
  trim_of_solid t.date.solid_render t.time.solid_render [separator]

def settled (t : Timestamp) : Timestamp := { t with time := t.time.settled }

theorem microseconds_settled (t : Timestamp) : t.settled.microseconds = t.microseconds := by
  unfold microseconds
  rw [settled,t.time.nanoseconds_settled]

theorem read_render (t : Timestamp) : Timestamp.read t.render = .ok t.settled := by
  have date := t.date.scanYmd_render (' ' :: t.time.render)
  have time := refines_scanClock _ _ (t.time.exactClock_render endsTime_nil)
  rw [List.append_nil] at time
  -- The one blank between them is all that is skipped.
  have between : skipBlanks (' ' :: t.time.render) = t.time.render := by
    rw [skipBlanks_cons_of_blank _ rfl,skipBlanks_of_head]
    exact List.append_nil t.time.render ▸ t.time.solid_render.head []
  have all : (scanWith .blanks).readAll t.render =
      .ok (⟨t.date.year,t.date.month,t.date.day⟩,t.time.clock) := by
    refine readAll_ok_iff.mpr (bind_ok_iff.mpr ⟨_,_,date,?_⟩)
    refine bind_ok_iff.mpr ⟨(),_,congrArg (fun cs => Except.ok ((),cs)) between,?_⟩
    exact bind_ok_iff.mpr ⟨_,_,time,rfl⟩
  have read : readWith .blanks t.render = .ok t.settled := by
    refine (Traversal.bind_ok_iff ..).mpr ⟨_,all,?_⟩
    refine (Traversal.bind_ok_iff ..).mpr ⟨_,t.time.toTime_clock,?_⟩
    exact (Traversal.bind_ok_iff ..).mpr ⟨_,t.date.toDate_fields,rfl⟩
  rw [Timestamp.read]
  simp only [show trim t.render = t.render from t.trim_renderWith ' ',read]

end Timestamp

namespace Instant

theorem readOffset_renderOffset {i : Instant} (low : 0 ≤ i.utc.date.year)
    (high : i.utc.date.year ≤ 9999) :
    readOffset i.renderOffset = .ok ⟨i.utc.settled⟩ := by
  have date := Date.exactYmd_render low high ('T' :: (i.utc.time.render ++ "+00:00".toList))
  have ends : EndsTime "+00:00".toList := ⟨stops_cons rfl _,by decide⟩
  have time := i.utc.time.exactClock_render ends
  have all : scanExact.readAll i.renderOffset =
      .ok (⟨i.utc.date.year,i.utc.date.month,i.utc.date.day⟩,i.utc.time.clock,0) := by
    have text : i.renderOffset =
        i.utc.date.render ++ 'T' :: (i.utc.time.render ++ "+00:00".toList) :=
      List.append_assoc i.utc.date.render _ _
    rw [readAll_ok_iff,scanExact_eq,text]
    refine bind_ok_iff.mpr ⟨_,_,date,?_⟩
    refine bind_ok_iff.mpr ⟨(),_,rfl,?_⟩
    refine bind_ok_iff.mpr ⟨_,_,time,?_⟩
    exact bind_ok_iff.mpr ⟨0,[],by decide,rfl⟩
  refine (Traversal.bind_ok_iff ..).mpr ⟨_,all,?_⟩
  refine (Traversal.bind_ok_iff ..).mpr ⟨_,i.utc.date.toDate_fields,?_⟩
  refine (Traversal.bind_ok_iff ..).mpr ⟨_,i.utc.time.toTime_clock,?_⟩
  rw [show (⟨i.utc.date,i.utc.time.settled⟩ : Timestamp) = i.utc.settled from rfl,
    i.utc.settled.minutesEarlier?_zero]

theorem read_renderOffset {i : Instant} (low : 0 ≤ i.utc.date.year)
    (high : i.utc.date.year ≤ 9999) :
    Instant.read i.renderOffset = .ok ⟨i.utc.settled⟩ := by
  have trimmed : trim i.renderOffset = i.renderOffset := by
    have offset : Solid ['+','0','0',':','0','0'] := by
      refine ⟨nofun,fun c member => ?_⟩
      simp only [List.mem_cons,List.not_mem_nil,or_false] at member
      rcases member with rfl | rfl | rfl | rfl | rfl | rfl <;> rfl
    have text : i.renderOffset =
        i.utc.date.render ++ (('T' :: i.utc.time.render) ++ ['+','0','0',':','0','0']) :=
      List.append_assoc i.utc.date.render _ _
    rw [text]
    exact trim_of_solid i.utc.date.solid_render offset _
  simp only [Instant.read,trimmed,readOffset_renderOffset low high]

end Instant

end FluentSql.Calendar

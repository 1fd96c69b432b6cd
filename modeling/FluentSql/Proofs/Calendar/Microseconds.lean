import FluentSql.Calendar.Timestamp
import FluentSql.Proofs.Calendar.Number

/-! Timestamps as whole microseconds. Outside leap seconds every timestamp has a count that can
be read again, and a timestamp of whole microseconds is read from its count as it was. -/
namespace FluentSql.Calendar

private theorem yearStart_first : yearStart (-262143) = -95745764 := by decide

private theorem yearStart_afterLast : yearStart 262143 = 95745765 := by decide

theorem Date.number_ge (d : Date) : -96476249 ≤ d.number := by
  have := d.number_bounds.1
  rw [yearStart_first] at this
  omega

theorem Date.number_lt (d : Date) : d.number < 95015280 := by
  have := d.number_bounds.2
  rw [yearStart_afterLast] at this
  omega

namespace Time

theorem of?_fields {t : Time} (last : 1000000000 ≤ t.nano → t.second = 59) :
    of? t.hour t.minute t.second t.nano = some t :=
  dif_pos ⟨t.hour_lt,t.minute_lt,t.second_lt,t.nano_lt,last⟩

theorem nano_lt_of_not_leapSecond {t : Time} (regular : t.isLeapSecond = false) :
    t.nano < 1000000000 := by
  simp only [isLeapSecond,decide_eq_false_iff_not] at regular
  omega

theorem of?_fields_of_not_leapSecond {t : Time} (regular : t.isLeapSecond = false) :
    of? t.hour t.minute t.second t.nano = some t := by
  have nano := nano_lt_of_not_leapSecond regular
  exact of?_fields fun leap => absurd nano (Nat.not_lt.mpr leap)

theorem nanoseconds_lt {t : Time} (regular : t.isLeapSecond = false) :
    t.nanoseconds < 86400000000000 := by
  have := nano_lt_of_not_leapSecond regular
  have := t.hour_lt
  have := t.minute_lt
  have := t.second_lt
  rw [nanoseconds]
  omega

/-- A number of microseconds within a day is a time of that day. -/
theorem exists_ofMicroseconds {ofDay : Nat} (within : ofDay < 86400000000) :
    ∃ t, of? (ofDay / 3600000000) (ofDay / 60000000 % 60) (ofDay / 1000000 % 60)
      (ofDay % 1000000 * 1000) = some t ∧ t.isLeapSecond = false ∧
      t.nanoseconds = ofDay * 1000 := by
  let t : Time := ⟨ofDay / 3600000000,ofDay / 60000000 % 60,ofDay / 1000000 % 60,
    ofDay % 1000000 * 1000,by omega,by omega,by omega,by omega⟩
  have regular : t.isLeapSecond = false := by
    simp only [isLeapSecond,decide_eq_false_iff_not,t]
    omega
  refine ⟨t,of?_fields_of_not_leapSecond regular,regular,?_⟩
  · simp only [nanoseconds,t]
    omega

end Time

namespace Timestamp

/-- Nanoseconds since 2000-01-01 00:00:00. -/
def nanoseconds (t : Timestamp) : Int := t.date.number * 86400000000000 + t.time.nanoseconds

theorem microseconds_eq (t : Timestamp) : t.microseconds = t.nanoseconds.tdiv 1000 := rfl

theorem microseconds_of_whole {t : Timestamp} {n : Int} (whole : t.nanoseconds = n * 1000) :
    t.microseconds = n := by
  rw [microseconds_eq,whole,Int.mul_tdiv_cancel n (by decide)]

theorem microseconds_atMidnight (d : Date) :
    (atMidnight d).microseconds = d.number * 86400000000 := by
  have day : (atMidnight d).date = d := rfl
  have start : (atMidnight d).time.nanoseconds = 0 := by
    simp [atMidnight,Time.midnight,Time.nanoseconds]
  apply microseconds_of_whole
  rw [nanoseconds,day,start]
  omega

/-- Cutting toward zero keeps a count within bounds that are whole microseconds. -/
private theorem tdiv_bounds {n low high : Int} (positive : 0 < high)
    (ge : low * 1000 ≤ n) (lt : n < high * 1000) : low ≤ n.tdiv 1000 ∧ n.tdiv 1000 < high := by
  rcases Int.le_total 0 n with after | before
  · rw [Int.tdiv_eq_ediv_of_nonneg after]
    omega
  · have cut := Int.neg_tdiv (-n) 1000
    rw [Int.neg_neg,Int.tdiv_eq_ediv_of_nonneg (Int.neg_nonneg.mpr before)] at cut
    omega

theorem microseconds_bounds {t : Timestamp} (regular : t.time.isLeapSecond = false) :
    -96476249 * 86400000000 ≤ t.microseconds ∧ t.microseconds < 95015280 * 86400000000 := by
  have inDay := Time.nanoseconds_lt regular
  have first := t.date.number_ge
  have last := t.date.number_lt
  rw [microseconds_eq]
  apply tdiv_bounds (by decide) <;> rw [nanoseconds] <;> omega

/-- Every count of microseconds within the calendar is that of a timestamp. -/
theorem exists_ofMicroseconds? {n : Int} (low : -96476249 * 86400000000 ≤ n)
    (high : n < 95015280 * 86400000000) : ∃ t, ofMicroseconds? n = some t ∧
      t.time.isLeapSecond = false ∧ t.microseconds = n := by
  obtain ⟨d,date,number⟩ : ∃ d, Date.ofNumber? (n / 86400000000) = some d ∧
      d.number = n / 86400000000 := by
    apply Date.exists_ofNumber?
    · rw [yearStart_first]
      omega
    · rw [yearStart_afterLast]
      omega
  obtain ⟨time,read,regular,nanoseconds⟩ := Time.exists_ofMicroseconds
    (by omega : (n % 86400000000).toNat < 86400000000)
  refine ⟨⟨d,time⟩,?_,regular,microseconds_of_whole ?_⟩
  · rw [ofMicroseconds?]
    simp only [date,read,Option.bind_eq_bind,Option.bind_some]
  · rw [Timestamp.nanoseconds,nanoseconds,number]
    omega

theorem exists_ofMicroseconds?_microseconds {t : Timestamp}
    (regular : t.time.isLeapSecond = false) : ∃ t', ofMicroseconds? t.microseconds = some t' ∧
      t'.time.isLeapSecond = false ∧ t'.microseconds = t.microseconds :=
  exists_ofMicroseconds? (microseconds_bounds regular).1 (microseconds_bounds regular).2

/-- The last three digits of the nanoseconds are zeros. -/
def IsWhole (t : Timestamp) : Prop := t.time.nano % 1000 = 0

instance (t : Timestamp) : Decidable t.IsWhole := inferInstanceAs (Decidable (_ = _))

theorem ofMicroseconds?_microseconds {t : Timestamp} (regular : t.time.isLeapSecond = false)
    (whole : t.IsWhole) : ofMicroseconds? t.microseconds = some t := by
  have nano := Time.nano_lt_of_not_leapSecond regular
  have minute := t.time.minute_lt
  have second := t.time.second_lt
  have inDay := Time.nanoseconds_lt regular
  simp only [IsWhole,Time.nanoseconds] at whole inDay
  let ofDay := ((t.time.hour * 60 + t.time.minute) * 60 + t.time.second) * 1000000 +
    t.time.nano / 1000
  have count : t.microseconds = t.date.number * 86400000000 + ofDay := by
    apply microseconds_of_whole
    rw [nanoseconds,Time.nanoseconds]
    omega
  have day : t.microseconds / 86400000000 = t.date.number := by omega
  have rest : (t.microseconds % 86400000000).toNat = ofDay := by omega
  have hour_eq : ofDay / 3600000000 = t.time.hour := by omega
  have minute_eq : ofDay / 60000000 % 60 = t.time.minute := by omega
  have second_eq : ofDay / 1000000 % 60 = t.time.second := by omega
  have nano_eq : ofDay % 1000000 * 1000 = t.time.nano := by omega
  simp only [ofMicroseconds?,day,rest,hour_eq,minute_eq,second_eq,nano_eq,
    Date.ofNumber?_number,Time.of?_fields_of_not_leapSecond regular,Option.bind_eq_bind,
    Option.bind_some]

/-- What is cut off is less than a microsecond, and lies away from the start of the count. -/
theorem microseconds_cut (t : Timestamp) :
    (t.microseconds * 1000 - t.nanoseconds).natAbs < 1000 ∧
      (t.microseconds * 1000).natAbs ≤ t.nanoseconds.natAbs := by
  rw [microseconds_eq]
  generalize t.nanoseconds = n
  rcases Int.le_total 0 n with after | before
  · rw [Int.tdiv_eq_ediv_of_nonneg after]
    omega
  · have cut := Int.neg_tdiv (-n) 1000
    rw [Int.neg_neg,Int.tdiv_eq_ediv_of_nonneg (Int.neg_nonneg.mpr before)] at cut
    omega

/-- Also a leap second on the last day has a count of 64 bits. -/
theorem microseconds_fits (t : Timestamp) : -2 ^ 63 ≤ t.microseconds ∧ t.microseconds < 2 ^ 63 := by
  have cut := t.microseconds_cut.2
  have first := t.date.number_ge
  have last := t.date.number_lt
  have hour := t.time.hour_lt
  have minute := t.time.minute_lt
  have second := t.time.second_lt
  have nano := t.time.nano_lt
  rw [nanoseconds,Time.nanoseconds] at cut
  omega

theorem nanoseconds_eq_iff_isWhole (t : Timestamp) :
    t.nanoseconds = t.microseconds * 1000 ↔ t.IsWhole := by
  have cut := t.microseconds_cut.1
  rw [nanoseconds,Time.nanoseconds] at cut ⊢
  rw [IsWhole]
  omega

end Timestamp
end FluentSql.Calendar

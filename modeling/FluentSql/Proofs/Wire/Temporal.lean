import FluentSql.Proofs.Calendar.Reading
import FluentSql.Proofs.Wire.Cells

/-! Dates and timestamps are sent alike by every way to write them. Text that is a date is its
midnight at both types of timestamps, text without an offset is in UTC, and a timestamp is the
same moment with and without a time zone. -/
namespace FluentSql.Wire
open Calendar

variable {s : String} {bytes : Bytes}

/-- Text is sent by reading it first. -/
private theorem sent_ok_iff {α ε : Type} (read : Except ε α) (refuse : ε → BindError)
    (encode : α → Bytes) : ((read.mapError refuse >>= fun a => .ok (encode a)).map some : Except _ _) =
      .ok (some bytes) ↔ ∃ a, read = .ok a ∧ encode a = bytes := by
  rw [Traversal.map_some_ok_iff,Traversal.mapError_bind_ok_iff]
  simp only [Except.ok.injEq]

theorem bind_text_date_ok_iff : bind (.text s) .date = .ok (some bytes) ↔
    ∃ d, Date.read s.toList = .ok d ∧ encodeDate d = bytes :=
  sent_ok_iff _ BindError.calendar _

theorem bind_text_timestamp_ok_iff : bind (.text s) .timestamp = .ok (some bytes) ↔
    ∃ t, Timestamp.read s.toList = .ok t ∧ encodeTimestamp t = bytes :=
  sent_ok_iff _ BindError.calendar _

theorem bind_text_timestamptz_ok_iff : bind (.text s) .timestamptz = .ok (some bytes) ↔
    ∃ t, Instant.read s.toList = .ok t ∧ encodeTimestamp t.utc = bytes :=
  sent_ok_iff _ BindError.calendar fun t : Instant => encodeTimestamp t.utc

/-- The text is sent as the same moment to every type that takes it. -/
structure WidensAlike (s : String) : Prop where
  /-- Text that counts as a day is sent as that day, and as its first microsecond. -/
  date : ∀ bytes, bind (.text s) .date = .ok (some bytes) → ∃ (d : Date) (wide : Bytes),
    decodeInt? 4 bytes = some d.number ∧ bind (.date d) .date = .ok (some bytes) ∧
    decodeInt? 8 wide = some (d.number * 86400000000) ∧
    ∀ ty ∈ [ColumnType.timestamp,.timestamptz],
      bind (.text s) ty = .ok (some wide) ∧ bind (.date d) ty = .ok (some wide)
  timestamp : ∀ bytes, bind (.text s) .timestamp = .ok (some bytes) →
    bind (.text s) .timestamptz = .ok (some bytes) ∧ ∃ m, decodeInt? 8 bytes = some m
  /-- Text that is read without an offset has none, and is in UTC. -/
  utc : ∀ t, Timestamp.read s.toList = .ok t →
    (∀ i, Instant.readOffset (Text.trim s.toList) ≠ .ok i) ∧ Instant.read s.toList = .ok ⟨t⟩

theorem widensAlike (s : String) : WidensAlike s where
  date := by
    intro bytes sent
    obtain ⟨d,read,rfl⟩ := bind_text_date_ok_iff.mp sent
    have midnight := Timestamp.read_of_date read
    refine ⟨d,encodeTimestamp (.atMidnight d),decodeInt?_encodeDate d,rfl,?_,?_⟩
    · rw [decodeInt?_encodeTimestamp,Timestamp.microseconds_atMidnight]
    · intro ty temporal
      simp only [List.mem_cons,List.not_mem_nil,or_false] at temporal
      rcases temporal with rfl | rfl
      · exact ⟨bind_text_timestamp_ok_iff.mpr ⟨_,midnight,rfl⟩,rfl⟩
      · exact ⟨bind_text_timestamptz_ok_iff.mpr ⟨_,Instant.read_of_timestamp midnight,rfl⟩,rfl⟩
  timestamp := by
    intro bytes sent
    obtain ⟨t,read,rfl⟩ := bind_text_timestamp_ok_iff.mp sent
    have same := Instant.read_of_timestamp read
    exact ⟨bind_text_timestamptz_ok_iff.mpr ⟨_,same,rfl⟩,_,decodeInt?_encodeTimestamp t⟩
  utc := by
    intro t read
    refine ⟨fun i zoned => ?_,Instant.read_of_timestamp read⟩
    obtain ⟨e,unzoned⟩ := Instant.readOffset_of_timestamp read
    cases zoned.symm.trans unzoned

/-- Text, dates and timestamps at the two types of timestamps. -/
theorem bind_widensAlike : (∀ s, WidensAlike s) ∧
    (∀ t, bind (.timestamp t) .timestamp = bind (.timestamp t) .timestamptz) ∧
    ∀ i, bind (.instant i) .timestamp = bind (.instant i) .timestamptz :=
  ⟨widensAlike,fun _ => rfl,fun _ => rfl⟩

/-- A leap day with a sign and blanks, and a timestamp with a fraction in a leap second. -/
theorem bind_widensAlike_leap :
    let day : Bytes := [0,0,0x22,0x79]
    let second : Bytes := [0,1,0xe7,0xfb,0xe2,0x8e,0x61,0x20]
    bind (.text " +2024-02-29 ") .date = .ok (some day) ∧
      (∃ wide, decodeInt? 8 wide = some (8825 * 86400000000) ∧
        bind (.text " +2024-02-29 ") .timestamp = .ok (some wide) ∧
        bind (.text " +2024-02-29 ") .timestamptz = .ok (some wide)) ∧
      bind (.text "2016-12-31T23:59:60.5") .timestamp = .ok (some second) ∧
      bind (.text "2016-12-31T23:59:60.5") .timestamptz = .ok (some second) := by
  intro day second
  have sent : bind (.text " +2024-02-29 ") .date = .ok (some day) := by decide +kernel
  have timed : bind (.text "2016-12-31T23:59:60.5") .timestamp = .ok (some second) := by
    decide +kernel
  obtain ⟨d,wide,number,-,midnight,same⟩ := (bind_widensAlike.1 " +2024-02-29 ").date day sent
  have eighth : d.number = 8825 := Option.some.inj (number.symm.trans (by decide))
  rw [eighth] at midnight
  exact ⟨sent,⟨wide,midnight,(same _ (by decide)).1,(same _ (by decide)).1⟩,timed,
    ((bind_widensAlike.1 "2016-12-31T23:59:60.5").timestamp second timed).1⟩

end FluentSql.Wire

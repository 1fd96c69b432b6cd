import FluentSql.Proofs.Calendar.Writing
import FluentSql.Proofs.Decimal.Writing
import FluentSql.Proofs.Wire.Bytes
import FluentSql.Proofs.Wire.Integer
import FluentSql.Proofs.Wire.Temporal

/-! A value that is sent as text, and then as that text to the type it is meant for, arrives as if
it had been sent there at once. -/
namespace FluentSql.Wire
open Calendar

/-- The types that read the text of a value as this value. An instant must have a year of four
digits, without which its offset from UTC is not read. -/
inductive Rereads : Value → ColumnType → Prop
  | int (n : Int64) {ty : ColumnType} (listed : ty ∈ [.int2,.int4,.int8,.oid,.numeric]) :
    Rereads (.int n) ty
  | decimal (d : Decimal) : Rereads (.decimal d) .numeric
  | date (d : Date) {ty : ColumnType} (listed : ty ∈ [.date,.timestamp,.timestamptz]) :
    Rereads (.date d) ty
  | timestamp (t : Timestamp) {ty : ColumnType} (listed : ty ∈ [.timestamp,.timestamptz]) :
    Rereads (.timestamp t) ty
  | instant (t : Instant) (low : 0 ≤ t.utc.date.year) (high : t.utc.date.year ≤ 9999) :
    Rereads (.instant t) .timestamptz

variable {v : Value} {ty : ColumnType} {s : String}

theorem ofText_inj {s other : String} : ofText s = ofText other ↔ s = other := by
  refine ⟨fun same => ?_,congrArg ofText⟩
  exact Option.some.inj ((toText?_ofText s).symm.trans (same ▸ toText?_ofText other))

private theorem written_iff (written : bind v .text = .ok (some (ofText s))) (other : String) :
    bind v .text = .ok (some (ofText other)) ↔ other = s := by
  rw [written,Except.ok.injEq,Option.some.injEq,ofText_inj,eq_comm]

theorem bind_text_integer {n : Int64} {target : IntegerType}
    (integral : ty.integerType? = some target) :
    bind (.text (toString n.toInt)) ty = bind (.int n) ty := by
  have read : Numeral.readInt64 (Numeral.renderInt n.toInt) = .ok n :=
    Numeral.readInt64_ok_iff.mpr (Numeral.integer?_renderInt n.toInt)
  apply congrArg (Except.map some)
  rw [bindText_eq integral,bindInt_eq integral,Numeral.renderInt_eq,
    Text.trim_of_forall (Numeral.solid_renderInt _).all,read]
  rfl

theorem bind_text_decimal (d : Decimal) :
    bind (.text (String.ofList d.render)) .numeric = .ok (some (Numeric.encode d)) := by
  refine (Traversal.map_some_ok_iff ..).mpr ((Traversal.mapError_bind_ok_iff ..).mpr ?_)
  rw [String.toList_ofList,Text.trim_of_forall d.solid_render.all,d.read_render]
  exact ⟨_,rfl,congrArg Except.ok d.encode_unsignZero⟩

theorem bind_text_int_numeric (n : Int64) :
    bind (.text (toString n.toInt)) .numeric = bind (.int n) .numeric := by
  have text : toString n.toInt = String.ofList (Decimal.ofInt64 n).render := by
    rw [Decimal.render_ofInt64,← Numeral.renderInt_eq,String.ofList_toList]
  rw [text,bind_text_decimal]
  rfl

/-- What is read in place of a timestamp is sent in the same bytes. -/
theorem encodeTimestamp_settled (t : Timestamp) :
    encodeTimestamp t.settled = encodeTimestamp t := by
  unfold encodeTimestamp
  rw [t.microseconds_settled]

theorem bind_text_timestamp {t : Timestamp} (read : Timestamp.read s.toList = .ok t)
    (listed : ty ∈ [ColumnType.timestamp,.timestamptz]) :
    bind (.text s) ty = .ok (some (encodeTimestamp t)) := by
  simp only [List.mem_cons,List.not_mem_nil,or_false] at listed
  rcases listed with rfl | rfl
  · exact bind_text_timestamp_ok_iff.mpr ⟨t,read,rfl⟩
  · exact bind_text_timestamptz_ok_iff.mpr ⟨⟨t⟩,Instant.read_of_timestamp read,rfl⟩

theorem bind_text_date {d : Date} (read : Date.read s.toList = .ok d)
    (listed : ty ∈ [ColumnType.date,.timestamp,.timestamptz]) :
    bind (.text s) ty = bind (.date d) ty := by
  rcases List.mem_cons.mp listed with rfl | later
  · exact bind_text_date_ok_iff.mpr ⟨d,read,rfl⟩
  · rw [bind_text_timestamp (Timestamp.read_of_date read) later]
    simp only [List.mem_cons,List.not_mem_nil,or_false] at later
    rcases later with rfl | rfl <;> rfl

/-- There is one text that a value is written as, and it is sent like the value. -/
theorem bind_rereads (rereads : Rereads v ty) : ∃ s,
    (∀ other, bind v .text = .ok (some (ofText other)) ↔ other = s) ∧
    bind (.text s) ty = bind v ty := by
  cases rereads with
  | int n listed =>
    refine ⟨toString n.toInt,written_iff rfl,?_⟩
    simp only [List.mem_cons,List.not_mem_nil,or_false] at listed
    rcases listed with rfl | rfl | rfl | rfl | rfl
    · exact bind_text_integer rfl
    · exact bind_text_integer rfl
    · exact bind_text_integer rfl
    · exact bind_text_integer rfl
    · exact bind_text_int_numeric n
  | decimal d => exact ⟨_,written_iff rfl,bind_text_decimal d⟩
  | date d listed =>
    have read : Date.read (String.ofList d.render).toList = .ok d := by
      rw [String.toList_ofList,d.read_render]
    exact ⟨_,written_iff rfl,bind_text_date read listed⟩
  | timestamp t listed =>
    have read : Timestamp.read (String.ofList t.render).toList = .ok t.settled := by
      rw [String.toList_ofList,t.read_render]
    refine ⟨_,written_iff rfl,(bind_text_timestamp read listed).trans ?_⟩
    rw [encodeTimestamp_settled]
    simp only [List.mem_cons,List.not_mem_nil,or_false] at listed
    rcases listed with rfl | rfl <;> rfl
  | instant t low high =>
    have read : Instant.read (String.ofList t.renderOffset).toList = .ok ⟨t.utc.settled⟩ := by
      rw [String.toList_ofList,Instant.read_renderOffset low high]
    refine ⟨_,written_iff rfl,bind_text_timestamptz_ok_iff.mpr ⟨_,read,?_⟩⟩
    rw [encodeTimestamp_settled]

/-- Half a leap second into the last day of the year before the year zero. -/
theorem bind_rereads_leap :
    let t : Timestamp := ⟨⟨-1,12,31,by decide,by decide,by decide,by decide,by decide,by decide⟩,
      ⟨23,59,59,1500000000,by decide,by decide,by decide,by decide⟩⟩
    bind (.timestamp t) .text = .ok (some (ofText "-0001-12-31 23:59:60.500")) ∧
      bind (.text "-0001-12-31 23:59:60.500") .timestamptz = bind (.timestamp t) .timestamptz := by
  intro t
  have text : bind (.timestamp t) .text = .ok (some (ofText "-0001-12-31 23:59:60.500")) := by
    decide +kernel
  obtain ⟨s,written,same⟩ := bind_rereads (.timestamp t (by decide : ColumnType.timestamptz ∈ _))
  rw [← (written _).mp text] at same
  exact ⟨text,same⟩

end FluentSql.Wire

import FluentSql.Calendar.Reader
import FluentSql.Proofs.Text.Digits
import FluentSql.Proofs.Traversal

/-! What the readers of dates and timestamps accept. A text with an offset from UTC starts like a
timestamp, of which its offset is left over, and behind a date alone there is no time to read: so
no text is read in two ways. -/
namespace FluentSql
namespace Text

theorem skipBlanks_skipBlanks (cs : List Char) : skipBlanks (skipBlanks cs) = skipBlanks cs := by
  induction cs with
  | nil => rfl
  | cons c behind ih =>
    cases blank : isBlank c with
    | true => rw [skipBlanks_cons_of_blank behind blank,ih]
    | false =>
      have kept := skipBlanks_cons_of_not_blank behind blank
      rw [kept,kept]

end Text
namespace Calendar
open Text

variable {α β : Type} {cs rest : List Char}

namespace Scan

theorem bind_ok_iff {m : Scan α} {k : α → Scan β} {r : β × List Char} :
    (m >>= k) cs = .ok r ↔ ∃ a between, m cs = .ok (a,between) ∧ k a between = .ok r :=
  (Traversal.bind_ok_iff (m cs) (fun read => k read.1 read.2) r).trans Prod.exists

theorem pure_ok_iff {a : α} {r : α × List Char} : (pure a : Scan α) cs = .ok r ↔ (a,cs) = r := by
  change Except.ok (a,cs) = _ ↔ _
  rw [Except.ok.injEq]

theorem readAll_ok_iff {scan : Scan α} {x : α} : scan.readAll cs = .ok x ↔ scan cs = .ok (x,[]) := by
  rw [readAll.eq_def]
  split
  next read => simp [read]
  next read => simp [read]
  next failed => simp [failed]

/-- Whatever the strict scanner reads, the lax one reads in the same way. -/
def Refines (strict lax : Scan α) : Prop := ∀ cs r, strict cs = .ok r → lax cs = .ok r

theorem Refines.refl (scan : Scan α) : Refines scan scan := fun _ _ read => read

theorem Refines.trans {strict lax laxer : Scan α} (one : Refines strict lax)
    (other : Refines lax laxer) : Refines strict laxer :=
  fun cs r read => other cs r (one cs r read)

theorem Refines.bind {strict lax : Scan α} {next next' : α → Scan β} (first : Refines strict lax)
    (later : ∀ a, Refines (next a) (next' a)) : Refines (strict >>= next) (lax >>= next') := by
  intro cs r read
  obtain ⟨a,between,begun,ended⟩ := bind_ok_iff.mp read
  exact bind_ok_iff.mpr ⟨a,between,first cs _ begun,later a between r ended⟩

/-- What the scanner reads starts with a digit. -/
def WantsDigit (scan : Scan α) : Prop :=
  ∀ cs r, scan cs = .ok r → ∃ c behind, cs = c :: behind ∧ c.isDigit = true

theorem WantsDigit.bind {scan : Scan α} (wants : WantsDigit scan) (next : α → Scan β) :
    WantsDigit (scan >>= next) := by
  intro cs r read
  obtain ⟨a,between,begun,-⟩ := bind_ok_iff.mp read
  exact wants cs _ begun

theorem WantsDigit.refines_afterBlanks {scan : Scan α} (wants : WantsDigit scan) :
    Refines scan (scanBlanks >>= fun _ => scan) := by
  intro cs r read
  obtain ⟨c,behind,rfl,digit⟩ := wants cs r read
  refine bind_ok_iff.mpr ⟨(),c :: behind,?_,read⟩
  change Except.ok ((),skipBlanks (c :: behind)) = _
  rw [skipBlanks_cons_of_not_blank behind (isBlank_of_isDigit digit)]

end Scan
open Scan

theorem scanChar_ok_iff {c : Char} {u : Unit} :
    scanChar c cs = .ok (u,rest) ↔ cs = c :: rest := by
  cases cs with
  | nil => simp [scanChar]
  | cons d behind =>
    rw [scanChar]
    split <;> simp_all

theorem check_ok_iff {inRange : Bool} {u : Unit} :
    check inRange cs = .ok (u,rest) ↔ inRange = true ∧ cs = rest := by
  cases inRange with
  | true =>
    change Except.ok ((),cs) = _ ↔ _
    simp
  | false =>
    change Except.error _ = _ ↔ _
    simp

theorem readDigits_ok {least : Nat} {window behind : List Char} {r : Nat × List Char}
    (read : readDigits least window behind = .ok r) :
    least ≤ (window.takeWhile Char.isDigit).length ∧
      ∀ fewer ≤ least, readDigits fewer window behind = .ok r := by
  simp only [readDigits] at read ⊢
  split at read
  · cases read
  next long =>
    split at read
    · cases read
    next enough =>
      refine ⟨Nat.not_lt.mp enough,fun fewer le => ?_⟩
      rw [if_neg (by omega),if_neg (by omega)]
      exact read

theorem refines_scanNumber {least fewer : Nat} (le : fewer ≤ least) (most : Nat) :
    Refines (scanNumber least most) (scanNumber fewer most) :=
  fun _ _ read => (readDigits_ok read).2 fewer le

theorem wantsDigit_scanNumber {least : Nat} (some : 0 < least) (most : Nat) :
    WantsDigit (scanNumber least most) := by
  intro cs r read
  have enough := (readDigits_ok read).1
  cases cs with
  | nil =>
    rw [List.take_nil] at enough
    exact absurd enough (Nat.not_le.mpr some)
  | cons c behind =>
    refine ⟨c,behind,rfl,?_⟩
    by_contra other
    cases most <;> simp [other] at enough <;> omega

theorem refines_scanField {least fewer : Nat} (le : fewer ≤ least) (most low high : Nat) :
    Refines (scanField least most low high) (scanField fewer most low high) :=
  (refines_scanNumber le most).bind fun _ => Refines.refl _

theorem wantsDigit_scanField {least : Nat} (some : 0 < least) (most low high : Nat) :
    WantsDigit (scanField least most low high) :=
  (wantsDigit_scanNumber some most).bind _

theorem refines_scanShort (low high : Nat) :
    Refines (scanField 2 2 low high) (scanShort low high) :=
  (refines_scanField (by decide : 1 ≤ 2) 2 low high).trans
    (wantsDigit_scanField Nat.one_pos 2 low high).refines_afterBlanks

/-- A year of four digits without a sign. -/
def exactYear : Scan Int := do
  let year ← scanField 4 4 0 9999
  return year

def exactYmd : Scan Ymd := do
  let year ← exactYear
  scanChar '-'
  let month ← scanField 2 2 1 12
  scanChar '-'
  let day ← scanField 2 2 1 31
  return ⟨year,month,day⟩

def exactClock : Scan Clock := do
  let hour ← scanField 2 2 0 23
  scanChar ':'
  let minute ← scanField 2 2 0 59
  scanChar ':'
  let second ← scanField 2 2 0 60
  let nano ← scanFraction
  return ⟨hour,minute,second,nano⟩

theorem scanExact_eq : Instant.scanExact = do
    let ymd ← exactYmd
    Instant.scanDateMark
    let clock ← exactClock
    let ahead ← Instant.scanOffset
    return (ymd,clock,ahead) := by
  simp only [Instant.scanExact,exactYmd,exactYear,exactClock,bind_assoc,pure_bind]

theorem scanSigned_of_scanNumber {n : Nat} (read : scanNumber 1 4 cs = .ok (n,rest)) :
    scanSigned cs = .ok ((n : Int),rest) := by
  obtain ⟨c,behind,rfl,digit⟩ := wantsDigit_scanNumber Nat.one_pos 4 cs _ read
  have minus : c ≠ '-' := ne_of_isDigit digit rfl
  have plus : c ≠ '+' := ne_of_isDigit digit rfl
  rw [scanSigned.eq_3 _ (by simpa using minus) (by simpa using plus),read]
  rfl

theorem refines_scanYear : Refines exactYear scanYear := by
  have wants : WantsDigit exactYear := (wantsDigit_scanField (by decide) 4 0 9999).bind _
  refine wants.refines_afterBlanks.trans ((Refines.refl _).bind fun _ => ?_)
  intro cs r read
  obtain ⟨n,behind,field,same⟩ := bind_ok_iff.mp read
  obtain ⟨m,between,number,checked⟩ := bind_ok_iff.mp field
  obtain ⟨_,_,passed,same'⟩ := bind_ok_iff.mp checked
  obtain ⟨inRange,rfl⟩ := check_ok_iff.mp passed
  cases pure_ok_iff.mp same'
  have signed := scanSigned_of_scanNumber (refines_scanNumber (by decide) 4 cs _ number)
  refine bind_ok_iff.mpr ⟨n,_,signed,bind_ok_iff.mpr ⟨(),_,check_ok_iff.mpr ⟨?_,rfl⟩,same⟩⟩
  simp only [Bool.and_eq_true,decide_eq_true_eq] at inRange ⊢
  omega

/-- Month and day with both their digits, behind a year that is read in one way or another. -/
def exactBehind (year : Scan Int) : Scan Ymd := do
  let year ← year
  scanChar '-'
  let month ← scanField 2 2 1 12
  scanChar '-'
  let day ← scanField 2 2 1 31
  return ⟨year,month,day⟩

theorem refines_exactBehind {year : Scan Int} (refines : Refines year scanYear) :
    Refines (exactBehind year) scanYmd :=
  refines.bind fun _ => (Refines.refl _).bind fun _ =>
    (refines_scanShort 1 12).bind fun _ => (Refines.refl _).bind fun _ =>
      (refines_scanShort 1 31).bind fun _ => Refines.refl _

theorem refines_scanYmd : Refines exactYmd scanYmd := refines_exactBehind refines_scanYear

theorem refines_scanClock : Refines exactClock scanClock :=
  (refines_scanShort 0 23).bind fun _ => (Refines.refl _).bind fun _ =>
    (refines_scanShort 0 59).bind fun _ => (Refines.refl _).bind fun _ =>
      (refines_scanShort 0 60).bind fun _ => Refines.refl _

/-- Blanks before a time do not count. -/
theorem scanClock_skipBlanks (cs : List Char) : scanClock (skipBlanks cs) = scanClock cs := by
  have hour : scanShort 0 23 (skipBlanks cs) = scanShort 0 23 cs := by
    change scanField 1 2 0 23 (skipBlanks (skipBlanks cs)) = scanField 1 2 0 23 (skipBlanks cs)
    rw [skipBlanks_skipBlanks]
  change (scanShort 0 23 (skipBlanks cs) >>= _) = (scanShort 0 23 cs >>= _)
  rw [hour]

theorem exists_digit_of_scanClock {r : Clock × List Char} (read : scanClock cs = .ok r) :
    ∃ c behind, skipBlanks cs = c :: behind ∧ c.isDigit = true := by
  obtain ⟨hour,between,begun,-⟩ := bind_ok_iff.mp read
  exact wantsDigit_scanField Nat.one_pos 2 0 23 (skipBlanks cs) _ begun

theorem scanDateMark_ok {u : Unit} (read : Instant.scanDateMark cs = .ok (u,rest)) :
    ∃ mark, cs = mark :: rest ∧ (mark = 'T' ∨ mark = 't' ∨ mark = ' ') := by
  cases cs with
  | nil => cases read
  | cons mark behind =>
    rw [Instant.scanDateMark] at read
    split at read
    next wanted =>
      cases read
      exact ⟨mark,rfl,wanted⟩
    · cases read

/-- What stands before the offset is a date and a time, with a mark between them. -/
theorem scanExact_ok {ymd : Ymd} {clock : Clock} {ahead : Int}
    (read : Instant.scanExact cs = .ok ((ymd,clock,ahead),rest)) : ∃ mark behind zone,
      scanYmd cs = .ok (ymd,mark :: behind) ∧ (mark = 'T' ∨ mark = 't' ∨ mark = ' ') ∧
      scanClock behind = .ok (clock,zone) ∧ zone ≠ [] := by
  rw [scanExact_eq] at read
  obtain ⟨ymd',mid,date,read⟩ := bind_ok_iff.mp read
  obtain ⟨_,behind,marked,read⟩ := bind_ok_iff.mp read
  obtain ⟨clock',zone,time,read⟩ := bind_ok_iff.mp read
  obtain ⟨ahead',_,offset,read⟩ := bind_ok_iff.mp read
  cases pure_ok_iff.mp read
  obtain ⟨mark,rfl,wanted⟩ := scanDateMark_ok marked
  refine ⟨mark,behind,zone,refines_scanYmd cs _ date,wanted,refines_scanClock behind _ time,?_⟩
  rintro rfl
  cases offset

/-- Where a separator and a mark can both stand, the time behind them is the same. -/
theorem scanClock_of_separator {separator : Separator} {u : Unit} {mark : Char}
    {behind between : List Char} {r : Clock × List Char}
    (wanted : mark = 'T' ∨ mark = 't' ∨ mark = ' ')
    (separated : separator.scan (mark :: behind) = .ok (u,between))
    (read : scanClock between = .ok r) : scanClock behind = .ok r := by
  cases separator with
  | letterT =>
    rw [Separator.scan] at separated
    cases scanChar_ok_iff.mp separated
    exact read
  | blanks =>
    have skipped : skipBlanks (mark :: behind) = between := by
      cases separated
      rfl
    rw [← skipped,scanClock_skipBlanks] at read
    obtain ⟨c,after,first,digit⟩ := exists_digit_of_scanClock read
    -- A letter is no blank, and no time starts with it.
    rcases wanted with rfl | rfl | rfl
    · cases first
      cases digit
    · cases first
      cases digit
    · rw [← scanClock_skipBlanks] at read ⊢
      exact read

/-- A date behind which the text ends. -/
theorem Date.scanYmd_of_read {text : List Char} {d : Date} (read : Date.read text = .ok d) :
    ∃ ymd, scanYmd (trim text) = .ok (ymd,[]) := by
  obtain ⟨ymd,all,-⟩ := (Traversal.bind_ok_iff ..).mp read
  exact ⟨ymd,readAll_ok_iff.mp all⟩

namespace Timestamp

theorem scans_of_readWith {separator : Separator} {text : List Char} {t : Timestamp}
    (read : readWith separator text = .ok t) : ∃ ymd mid behind clock,
      scanYmd text = .ok (ymd,mid) ∧ separator.scan mid = .ok ((),behind) ∧
      scanClock behind = .ok (clock,[]) := by
  obtain ⟨⟨ymd,clock⟩,all,-⟩ := (Traversal.bind_ok_iff ..).mp read
  obtain ⟨_,mid,date,rest⟩ := bind_ok_iff.mp (readAll_ok_iff.mp all)
  obtain ⟨_,behind,separated,rest⟩ := bind_ok_iff.mp rest
  obtain ⟨_,_,time,same⟩ := bind_ok_iff.mp rest
  cases pure_ok_iff.mp same
  exact ⟨ymd,mid,behind,clock,date,separated,time⟩

theorem readWith_of_date {text : List Char} {ymd : Ymd} (date : scanYmd text = .ok (ymd,[]))
    (separator : Separator) : ∃ e, readWith separator text = .error e := by
  cases read : readWith separator text with
  | error e => exact ⟨e,rfl⟩
  | ok t =>
    obtain ⟨_,mid,behind,clock,date',separated,time⟩ := scans_of_readWith read
    cases date.symm.trans date'
    cases separator with
    | letterT => cases separated
    | blanks =>
      cases separated
      cases time

/-- A date alone is read as its midnight. -/
theorem read_of_date {text : List Char} {d : Date} (read : Date.read text = .ok d) :
    Timestamp.read text = .ok (atMidnight d) := by
  obtain ⟨ymd,date⟩ := Date.scanYmd_of_read read
  obtain ⟨_,blanks⟩ := readWith_of_date date .blanks
  obtain ⟨_,letterT⟩ := readWith_of_date date .letterT
  simp only [Timestamp.read,blanks,letterT,read,Except.map]

/-- A timestamp has a time, or is a date alone. -/
theorem read_ok {text : List Char} {t : Timestamp} (read : Timestamp.read text = .ok t) :
    (∃ separator, readWith separator (trim text) = .ok t) ∨
      ∃ d, Date.read text = .ok d ∧ t = atMidnight d := by
  rw [Timestamp.read] at read
  split at read
  next timed =>
    cases read
    exact .inl ⟨.blanks,timed⟩
  next timed =>
    cases read
    exact .inl ⟨.letterT,timed⟩
  · obtain ⟨d,date,rfl⟩ := (Traversal.map_ok_iff ..).mp read
    exact .inr ⟨d,date,rfl⟩

end Timestamp
namespace Instant

theorem scanExact_of_readOffset {text : List Char} {t : Instant}
    (read : readOffset text = .ok t) : ∃ fields, scanExact text = .ok (fields,[]) := by
  obtain ⟨fields,all,-⟩ := (Traversal.bind_ok_iff ..).mp read
  exact ⟨fields,readAll_ok_iff.mp all⟩

/-- Text that is a timestamp without an offset has none. -/
theorem readOffset_of_timestamp {text : List Char} {t : Timestamp}
    (read : Timestamp.read text = .ok t) : ∃ e, readOffset (trim text) = .error e := by
  cases zoned : readOffset (trim text) with
  | error e => exact ⟨e,rfl⟩
  | ok i =>
    obtain ⟨⟨ymd,clock,ahead⟩,exact⟩ := scanExact_of_readOffset zoned
    obtain ⟨mark,behind,zone,date,wanted,time,left⟩ := scanExact_ok exact
    rcases Timestamp.read_ok read with ⟨separator,timed⟩ | ⟨d,alone,-⟩
    · obtain ⟨_,mid,after,_,date',separated,time'⟩ := Timestamp.scans_of_readWith timed
      cases date.symm.trans date'
      cases time.symm.trans (scanClock_of_separator wanted separated time')
      exact absurd rfl left
    · obtain ⟨_,date'⟩ := Date.scanYmd_of_read alone
      cases date.symm.trans date'

/-- Text without an offset is in UTC. -/
theorem read_of_timestamp {text : List Char} {t : Timestamp}
    (read : Timestamp.read text = .ok t) : Instant.read text = .ok ⟨t⟩ := by
  obtain ⟨_,unzoned⟩ := readOffset_of_timestamp read
  simp only [Instant.read,unzoned,read,Except.map]

end Instant
end Calendar
end FluentSql

import FluentSql.Trace
import Mathlib.Data.Nat.Find

/-! Texts in the log. A walk back from the limit ends at the last place within it at which no
character is divided, so what is kept is the longest beginning that fits. A character has at most
four bytes, and so fewer than four are lost. Three points behind the beginning tell that a text
was cut, unless the text has them itself. -/
namespace FluentSql.Trace

theorem boundary_eq (s : String) (limit : Nat) : boundary s limit =
    Nat.findGreatest (fun size => String.Pos.Raw.IsValid s ⟨size⟩) limit := by
  induction limit with
  | zero => rfl
  | succ size ih =>
    rw [boundary,Nat.findGreatest_succ,ih]
    simp only [String.Pos.Raw.isValid_eq_true_iff]

theorem boundary_le (s : String) (limit : Nat) : boundary s limit ≤ limit := by
  rw [boundary_eq]
  apply Nat.findGreatest_le

theorem le_boundary {s : String} {limit size : Nat} (within : size ≤ limit)
    (whole : String.Pos.Raw.IsValid s ⟨size⟩) : size ≤ boundary s limit := by
  rw [boundary_eq]
  exact Nat.le_findGreatest within whole

theorem isValid_of_append {s p rest : String} (split : s = p ++ rest) :
    String.Pos.Raw.IsValid s ⟨p.utf8ByteSize⟩ :=
  String.Pos.Raw.isValid_iff_exists_append.mpr ⟨p,rest,split,rfl⟩

/-- Of the beginnings of `s` that have at most `limit` bytes and divide no character, `p` is the
longest. -/
structure IsLongest (limit : Nat) (s p : String) : Prop where
  beginning : ∃ rest, s = p ++ rest
  within : p.utf8ByteSize ≤ limit
  longest : ∀ size ≤ limit, String.Pos.Raw.IsValid s ⟨size⟩ → size ≤ p.utf8ByteSize

theorem isLongest_cut (limit : Nat) (s : String) : IsLongest limit s (cut limit s) := by
  unfold cut
  split
  next fits => exact ⟨⟨"",String.append_empty.symm⟩,fits,fun _ _ whole => whole.le_utf8ByteSize⟩
  next =>
    have size : (s.sliceTo ⟨⟨boundary s limit⟩,isValid_boundary s limit⟩).copy.utf8ByteSize =
        boundary s limit := by
      rw [String.Slice.utf8ByteSize_copy,String.utf8ByteSize_sliceTo]
    refine ⟨⟨_,String.sliceTo_append_sliceFrom.symm⟩,?_,?_⟩
    · rw [size]
      exact boundary_le s limit
    · intro place within whole
      rw [size]
      exact le_boundary within whole

namespace IsLongest

variable {limit : Nat} {s p q : String}

theorem unique (first : IsLongest limit s p) (second : IsLongest limit s q) : p = q := by
  obtain ⟨after,left⟩ := first.beginning
  obtain ⟨behind,right⟩ := second.beginning
  have same : p.utf8ByteSize = q.utf8ByteSize := by
    apply Nat.le_antisymm
    · exact second.longest _ first.within (isValid_of_append left)
    · exact first.longest _ second.within (isValid_of_append right)
  have here : String.Pos.Splits ⟨⟨p.utf8ByteSize⟩,isValid_of_append left⟩ p after := ⟨left,rfl⟩
  exact here.eq_left ⟨right,String.Pos.Raw.ext same⟩

/-- The character behind the longest beginning does not fit any more. -/
theorem lt_next (longest : IsLongest limit s p) {c : Char} {rest : String}
    (split : s = p ++ (String.singleton c ++ rest)) : limit < p.utf8ByteSize + c.utf8Size := by
  rw [← String.append_assoc] at split
  have whole := isValid_of_append split
  rw [String.utf8ByteSize_append,String.utf8ByteSize_singleton] at whole
  by_contra fits
  have shorter := longest.longest _ (Nat.not_lt.mp fits) whole
  have := c.utf8Size_pos
  omega

theorem limit_le (longest : IsLongest limit s p) (exceeds : limit < s.utf8ByteSize) :
    limit ≤ p.utf8ByteSize + 3 := by
  obtain ⟨rest,split⟩ := longest.beginning
  obtain ⟨chars,rfl⟩ := rest.exists_eq_ofList
  cases chars with
  | nil =>
    have := longest.within
    rw [split,String.ofList_nil,String.append_empty] at exceeds
    omega
  | cons c rest =>
    rw [String.ofList_cons] at split
    have := longest.lt_next split
    have := c.utf8Size_le_four
    omega

end IsLongest

namespace Tracer

variable {t : Tracer} {sql : String} {limit : Nat}

/-- No limit is set, or the text is within it. -/
def Fits (t : Tracer) (sql : String) : Prop :=
  ∀ limit, t.limit = some limit → sql.utf8ByteSize ≤ limit

theorem shorten_of_fits (fits : t.Fits sql) : t.shorten sql = sql := by
  unfold shorten
  split
  next limit set => rw [if_neg (Nat.not_lt.mpr (fits limit set))]
  next => rfl

theorem shorten_of_exceeds (set : t.limit = some limit) (exceeds : limit < sql.utf8ByteSize) :
    t.shorten sql = cut limit sql ++ "..." := by
  unfold shorten
  rw [set]
  exact if_pos exceeds

theorem shorten_eq_self_iff : t.shorten sql = sql ↔
    t.Fits sql ∨ ∃ p, sql = p ++ "..." ∧ t.limit = some p.utf8ByteSize := by
  constructor
  · intro same
    by_cases fits : t.Fits sql
    · exact .inl fits
    · unfold Fits at fits
      push Not at fits
      obtain ⟨limit,set,exceeds⟩ := fits
      rw [shorten_of_exceeds set exceeds] at same
      have longest := isLongest_cut limit sql
      have pointed : sql = cut limit sql ++ (String.singleton '.' ++ "..") := same.symm
      -- a point has one byte, so nothing of the limit is left for the first of them
      have full : limit < (cut limit sql).utf8ByteSize + 1 := longest.lt_next pointed
      have size : limit = (cut limit sql).utf8ByteSize :=
        Nat.le_antisymm (Nat.le_of_lt_succ full) longest.within
      exact .inr ⟨cut limit sql,same.symm,set.trans (congrArg some size)⟩
  · rintro (fits | ⟨p,rfl,set⟩)
    · exact shorten_of_fits fits
    · have exceeds : p.utf8ByteSize < (p ++ "...").utf8ByteSize := by
        rw [String.utf8ByteSize_append]
        exact Nat.lt_add_of_pos_right (by decide)
      have whole : IsLongest p.utf8ByteSize (p ++ "...") p :=
        ⟨⟨"...",rfl⟩,Nat.le_refl _,fun _ within _ => within⟩
      rw [shorten_of_exceeds set exceeds,(isLongest_cut _ _).unique whole]

/-- How a text stands in the log. -/
structure Shortens (t : Tracer) (sql : String) : Prop where
  kept : t.Fits sql → t.shorten sql = sql
  shortened : ∀ limit, t.limit = some limit → limit < sql.utf8ByteSize →
    t.shorten sql = cut limit sql ++ "..." ∧ limit ≤ (cut limit sql).utf8ByteSize + 3
  /-- A text beyond the limit stays as it is where it is three points behind a full beginning. -/
  unchanged : t.shorten sql = sql ↔
    t.Fits sql ∨ ∃ p, sql = p ++ "..." ∧ t.limit = some p.utf8ByteSize

end Tracer

theorem shorten_cuts : (∀ limit s, String.Pos.Raw.IsValid s ⟨boundary s limit⟩ ∧
    IsLongest limit s (cut limit s)) ∧ ∀ (t : Tracer) (sql : String), t.Shortens sql := by
  refine ⟨fun limit s => ⟨isValid_boundary s limit,isLongest_cut limit s⟩,fun t sql => ?_⟩
  refine ⟨Tracer.shorten_of_fits,?_,Tracer.shorten_eq_self_iff⟩
  intro limit set exceeds
  exact ⟨Tracer.shorten_of_exceeds set exceeds,(isLongest_cut limit sql).limit_le exceeds⟩

example : cut 4 "café" = "caf" := by decide

/-- A statement that ends in three points right behind the limit comes out as it went in. -/
theorem shorten_pointed :
    let t : Tracer := ⟨some .debug,some 25⟩
    let sql := "SELECT * FROM t WHERE €..."
    t.shorten sql = sql ∧ 25 < sql.utf8ByteSize ∧ ¬ (t.shorten sql = sql ↔ t.Fits sql) := by
  intro t sql
  have whole : t.shorten sql = sql := by decide
  have exceeds : 25 < sql.utf8ByteSize := by decide
  refine ⟨whole,exceeds,?_⟩
  intro same
  have fits := same.mp whole
  exact absurd (fits 25 rfl) (Nat.not_le.mpr exceeds)

end FluentSql.Trace

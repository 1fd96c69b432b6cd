import FluentSql.Proofs.Postgres.Fences
import Mathlib.Algebra.GroupWithZero.Nat

/-! Numbering the placeholders of a laid out text. Where the layout is fenced and each text of
the caller is closed, the placeholders are the places of the values and, besides them, those
that the caller's texts have on their own. -/
namespace FluentSql.Layout
open Postgres Postgres.Placeholder

/-- The modes in which the scan of a layout may begin. -/
def Ready (m : Mode) (l : Layout) : Prop := m.isCode = true ∧ (m = .code ∨ Opens l)

def marksFrom (count : Nat) : Layout → List (Char ⊕ Nat)
  | [] => []
  | .fixed text :: rest => text.toList.map .inl ++ marksFrom count rest
  | .written text :: rest => text.toList.map .inl ++ marksFrom count rest
  | .value _ :: rest => .inr (count + 1) :: marksFrom (count + 1) rest

variable {m : Mode} {s : Stretch} {l rest : Layout}

private theorem toList_sql_value (v : Value) : (Stretch.value v).sql.toList = ['?'] := by
  rw [Stretch.sql]
  rfl

private theorem code_of_written {text : String} (ready : Ready m (.written text :: rest)) :
    m = .code := by
  rcases ready.2 with code | opens
  · exact code
  · have none := opens (.written text) rfl
    cases none

theorem Ready.step (ready : Ready m (s :: rest)) (fenced : Fenced (s :: rest))
    (closed : ∀ text ∈ writings (s :: rest), Closed text) :
    Ready (m.after s.sql.toList) rest := by
  have apart := (List.isChain_cons.mp fenced.apart).1
  cases s with
  | fixed text =>
    have back := Mode.after_fence ready.1 (fenced.fences text (by simp))
    rw [Stretch.sql,back]
    exact ⟨rfl,.inl rfl⟩
  | written text =>
    rw [code_of_written ready]
    refine ⟨closed text (by simp [writings,Stretch.writing?]),.inr ?_⟩
    intro next head
    rcases apart next head with none | none
    · cases none
    · exact none
  | value v =>
    rw [toList_sql_value,Mode.after_cons,Mode.after_nil,Mode.next_question ready.1]
    exact ⟨rfl,.inl rfl⟩

private theorem fenced_tail (fenced : Fenced (s :: rest)) : Fenced rest :=
  ⟨fun text member => fenced.fences text (by simp [member]),
    (List.isChain_cons.mp fenced.apart).2⟩

private theorem mem_writings_cons {text : String} (member : text ∈ writings rest) :
    text ∈ writings (s :: rest) := by
  obtain ⟨stretch,inside,found⟩ := List.mem_filterMap.mp member
  exact List.mem_filterMap.mpr ⟨stretch,by simp [inside],found⟩

private theorem countFrom_stretch (ready : Ready m (s :: rest)) (fenced : Fenced (s :: rest)) :
    countFrom m s.sql.toList =
      s.value?.toList.length + (s.writing?.toList.map Placeholder.count).sum := by
  cases s with
  | fixed text => exact Mode.countFrom_fence m (fenced.fences text (by simp))
  | written text =>
    rw [code_of_written ready]
    simp [Stretch.sql,Stretch.value?,Stretch.writing?,Placeholder.count]
  | value v => simp [Stretch.sql,Stretch.value?,Stretch.writing?,countFrom,ready.1]

/-- The values and the placeholders that the caller wrote are counted, and nothing else. -/
theorem countFrom_sql (ready : Ready m l) (fenced : Fenced l)
    (closed : ∀ text ∈ writings l, Closed text) :
    countFrom m (sql l).toList =
      (values l).length + ((writings l).map Placeholder.count).sum := by
  induction l generalizing m with
  | nil => simp [countFrom,writings]
  | cons s rest ih =>
    have here := countFrom_stretch ready fenced
    have later := ih (ready.step fenced closed) (fenced_tail fenced)
      (fun text member => closed text (mem_writings_cons member))
    have heads : writings (s :: rest) = s.writing?.toList ++ writings rest := by cases s <;> rfl
    rw [sql_cons,String.toList_append,countFrom_append,here,later,heads,values_cons]
    simp only [List.length_append,List.map_append,List.sum_append]
    omega

theorem marksFrom_sql (ready : Ready m l) (fenced : Fenced l)
    (closed : ∀ text ∈ writings l, Closed text)
    (quiet : ∀ text ∈ writings l, Placeholder.count text = 0) (n : Nat) :
    Placeholder.marksFrom m n (sql l).toList = marksFrom n l := by
  induction l generalizing m n with
  | nil => simp [Placeholder.marksFrom,marksFrom]
  | cons s rest ih =>
    have here := countFrom_stretch ready fenced
    have later := ih (ready.step fenced closed) (fenced_tail fenced)
      (fun text member => closed text (mem_writings_cons member))
      (fun text member => quiet text (mem_writings_cons member))
    rw [sql_cons,String.toList_append,Placeholder.marksFrom_append,later]
    cases s with
    | fixed text =>
      have none : countFrom m (Stretch.fixed text).sql.toList = 0 := here
      rw [none,marksFrom_of_countFrom_eq_zero n none]
      rfl
    | written text =>
      have own := quiet text (by simp [writings,Stretch.writing?])
      have none : countFrom m (Stretch.written text).sql.toList = 0 := by
        simpa [Stretch.value?,Stretch.writing?,own] using here
      rw [none,marksFrom_of_countFrom_eq_zero n none]
      rfl
    | value v =>
      have one : countFrom m (Stretch.value v).sql.toList = 1 := here
      rw [one,toList_sql_value]
      simp [Placeholder.marksFrom,ready.1,marksFrom]

private theorem flatMap_fill_chars (parameters : List Value) (cs : List Char) :
    (cs.map Sum.inl).flatMap (fill parameters) = cs.map Sum.inl := by
  rw [List.flatMap_map]
  exact (List.map_eq_flatMap ..).symm

theorem fill_marksFrom (l : Layout) (parameters : List Value) (n : Nat)
    (due : parameters.drop n = values l) :
    (marksFrom n l).flatMap (fill parameters) = filled l := by
  induction l generalizing n with
  | nil => rfl
  | cons s rest ih =>
    cases s with
    | fixed text =>
      rw [marksFrom,List.flatMap_append,ih n due,flatMap_fill_chars]
      rfl
    | written text =>
      rw [marksFrom,List.flatMap_append,ih n due,flatMap_fill_chars]
      rfl
    | value v =>
      have found : parameters[n]? = some v := by
        rw [← List.head?_drop,due]
        rfl
      have more : parameters.drop (n + 1) = values rest := by
        rw [← List.tail_drop,due]
        rfl
      rw [marksFrom,List.flatMap_cons,ih (n + 1) more,fill,Nat.add_sub_cancel,found]
      rfl

theorem count_sql (fenced : Fenced l) (closed : ∀ text ∈ writings l, Closed text) :
    Placeholder.count (sql l) =
      (values l).length + ((writings l).map Placeholder.count).sum :=
  countFrom_sql ⟨rfl,.inl rfl⟩ fenced closed

theorem marks_sql (fenced : Fenced l) (closed : ∀ text ∈ writings l, Closed text)
    (quiet : ∀ text ∈ writings l, Placeholder.count text = 0) :
    Placeholder.marks (sql l) = marksFrom 0 l :=
  marksFrom_sql ⟨rfl,.inl rfl⟩ fenced closed quiet 0

theorem sum_count_eq_zero (quiet : ∀ text ∈ writings l, Placeholder.count text = 0) :
    ((writings l).map Placeholder.count).sum = 0 := by
  rw [List.sum_eq_zero_iff_forall_eq_nat]
  intro n member
  obtain ⟨text,inside,rfl⟩ := List.mem_map.mp member
  exact quiet text inside

theorem sum_count_pos {text : String} (member : text ∈ writings l)
    (own : Placeholder.count text ≠ 0) : 0 < ((writings l).map Placeholder.count).sum := by
  rw [List.sum_pos_iff_exists_pos_nat]
  exact ⟨_,List.mem_map_of_mem member,Nat.pos_of_ne_zero own⟩

end FluentSql.Layout

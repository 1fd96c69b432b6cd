import FluentSql.Proofs.Builder.History
import FluentSql.Proofs.Statement.Matching
import Mathlib.Algebra.GroupWithZero.Nat
import Mathlib.Data.List.Nodup

/-! Conditions own the parameters of a state. In whatever way the state was reached, every
parameter has one owner, so that a statement passes on each of them once. -/
namespace FluentSql

namespace Condition

def owns (c : Condition) (i : Nat) : Bool := c.start ≤ i ∧ i < c.stop

def indices (c : Condition) : List Nat := List.range' c.start c.parameterCount

theorem mem_indices {c : Condition} {i : Nat} : i ∈ c.indices ↔ c.owns i = true := by
  rw [indices,List.mem_range'_1,owns,parameterCount,decide_eq_true_iff]
  omega

/-- The conditions divide the indices below `n` among themselves. -/
structure Divide (n : Nat) (cs : List Condition) : Prop where
  bounded : ∀ c ∈ cs, c.start ≤ c.stop ∧ c.stop ≤ n
  disjoint : cs.Pairwise fun c d => c.stop ≤ d.start ∨ d.stop ≤ c.start
  covered : ∀ i < n, cs.countP (·.owns i) = 1

namespace Divide

variable {n : Nat} {cs ds : List Condition}

theorem nil : Divide 0 [] := ⟨by simp,.nil,by simp⟩

theorem perm (divide : Divide n cs) (same : cs.Perm ds) : Divide n ds where
  bounded c member := divide.bounded c (same.mem_iff.mpr member)
  disjoint := (same.pairwise_iff fun apart => apart.symm).mp divide.disjoint
  covered i inside := by rw [← same.countP_eq]; exact divide.covered i inside

/-- A condition that takes the next indices leaves those of the others alone. -/
theorem concat (divide : Divide n cs) {c : Condition} (next : c.start = n)
    (ordered : n ≤ c.stop) : Divide c.stop (cs ++ [c]) := by
  refine ⟨?_,?_,?_⟩
  · intro d member
    rcases List.mem_append.mp member with before | last
    · obtain ⟨start_le,stop_le⟩ := divide.bounded d before
      exact ⟨start_le,Nat.le_trans stop_le ordered⟩
    · cases List.mem_singleton.mp last
      exact ⟨next ▸ ordered,Nat.le_refl _⟩
  · rw [List.pairwise_append]
    refine ⟨divide.disjoint,List.pairwise_singleton _ _,?_⟩
    intro d before e last
    cases List.mem_singleton.mp last
    rw [next]
    exact .inl (divide.bounded d before).2
  · intro i inside
    rw [List.countP_append,List.countP_singleton]
    by_cases old : i < n
    · have free : c.owns i = false := by simp [owns,next]; omega
      rw [divide.covered i old,free]
      rfl
    · have none : cs.countP (·.owns i) = 0 := by
        rw [List.countP_eq_zero]
        intro d member
        have stop_le := (divide.bounded d member).2
        simp [owns]
        omega
      have owned : c.owns i = true := by simp [owns,next]; omega
      rw [none,owned]
      rfl

/-- The indices of different conditions lie apart, so that none occurs twice. -/
theorem nodup_indices (divide : Divide n cs) : (cs.flatMap indices).Nodup := by
  rw [List.nodup_flatMap]
  refine ⟨fun c _ => List.nodup_range',?_⟩
  refine divide.disjoint.imp ?_
  intro c d apart i inC inD
  rw [mem_indices,owns,decide_eq_true_iff] at inC inD
  omega

theorem mem_indices_iff (divide : Divide n cs) (i : Nat) :
    i ∈ cs.flatMap indices ↔ i < n := by
  rw [List.mem_flatMap]
  constructor
  · rintro ⟨c,member,inside⟩
    have stop_le := (divide.bounded c member).2
    rw [mem_indices,owns,decide_eq_true_iff] at inside
    omega
  · intro inside
    have owned : 0 < cs.countP (·.owns i) := by rw [divide.covered i inside]; exact Nat.one_pos
    obtain ⟨c,member,owns⟩ := List.countP_pos_iff.mp owned
    exact ⟨c,member,mem_indices.mpr owns⟩

theorem indices_perm (divide : Divide n cs) : (cs.flatMap indices).Perm (List.range n) :=
  (List.perm_ext_iff_of_nodup divide.nodup_indices List.nodup_range).mpr fun i => by
    rw [divide.mem_indices_iff,List.mem_range]

end Divide
end Condition

/-- Reading at consecutive indices gives a slice, which ends where the list does. -/
private theorem filterMap_range'_getElem? (parameters : List Value) (start count : Nat) :
    (List.range' start count).filterMap (parameters[·]?) =
      (parameters.drop start).take count := by
  induction count generalizing start with
  | zero => rfl
  | succ count ih =>
    rw [List.range'_succ]
    by_cases inside : start < parameters.length
    · rw [List.filterMap_cons_some (List.getElem?_eq_getElem inside),ih,
        List.drop_eq_getElem_cons inside,List.take_succ_cons]
    · have outside : parameters.length ≤ start := Nat.le_of_not_lt inside
      have beyond : parameters.length ≤ start + 1 := Nat.le_succ_of_le outside
      rw [List.filterMap_cons_none (List.getElem?_eq_none outside),ih,
        List.drop_eq_nil_of_le outside,List.drop_eq_nil_of_le beyond,List.take_nil,List.take_nil]

namespace Pending

/-- The conditions and alternatives divide the parameters among themselves, each list in the order
of the calls. -/
structure Divided (q : Pending) : Prop where
  divide : Condition.Divide q.parameters.length (q.conditions ++ q.alternatives)
  conditions_ordered : q.conditions.Pairwise fun c d => c.stop ≤ d.start
  alternatives_ordered : q.alternatives.Pairwise fun c d => c.stop ≤ d.start
  raw : ∀ c ∈ q.conditions ++ q.alternatives, c.raw = true → c.start = c.stop

namespace Divided

variable {q : Pending}

theorem empty : Divided .empty := ⟨.nil,.nil,.nil,by simp [Pending.empty]⟩

private theorem ordered_concat {cs : List Condition} (sql : String) (count : Nat) (raw : Bool)
    (bounded : ∀ c ∈ cs, c.start ≤ c.stop ∧ c.stop ≤ q.parameters.length)
    (ordered : cs.Pairwise fun c d => c.stop ≤ d.start) :
    (cs ++ [q.nextCondition sql count raw]).Pairwise fun c d => c.stop ≤ d.start := by
  rw [List.pairwise_append]
  refine ⟨ordered,List.pairwise_singleton _ _,?_⟩
  intro c before d last
  cases List.mem_singleton.mp last
  exact (bounded c before).2

private theorem divide_concat {cs : List Condition} (sql : String) (values : List Value)
    (raw : Bool) (divide : Condition.Divide q.parameters.length cs) :
    Condition.Divide (q.parameters ++ values).length
      (cs ++ [q.nextCondition sql values.length raw]) := by
  let c := q.nextCondition sql values.length raw
  have ordered : q.parameters.length ≤ c.stop := Nat.le_add_right _ _
  have added : Condition.Divide c.stop (cs ++ [c]) := divide.concat rfl ordered
  rw [List.length_append]
  exact added

private theorem raw_concat {cs : List Condition} (sql : String) (values : List Value) (raw : Bool)
    (bare : raw = true → values = [])
    (own : ∀ c ∈ cs, c.raw = true → c.start = c.stop) :
    ∀ c ∈ cs ++ [q.nextCondition sql values.length raw], c.raw = true → c.start = c.stop := by
  intro c member isRaw
  rcases List.mem_append.mp member with before | last
  · exact own c before isRaw
  · cases List.mem_singleton.mp last
    rw [nextCondition,bare isRaw]
    rfl

theorem conjoin (divided : q.Divided) (sql : String) (values : List Value) (raw : Bool)
    (bare : raw = true → values = []) :
    Divided { q with
      conditions := q.conditions ++ [q.nextCondition sql values.length raw]
      parameters := q.parameters ++ values } := by
  -- The newest condition is not the last of the two lists together.
  have last : (q.conditions ++ q.alternatives ++ [q.nextCondition sql values.length raw]).Perm
      (q.conditions ++ [q.nextCondition sql values.length raw] ++ q.alternatives) := by
    rw [List.append_assoc,List.append_assoc]
    exact List.perm_append_comm.append_left _
  have divide := (divide_concat sql values raw divided.divide).perm last
  refine ⟨divide,?_,divided.alternatives_ordered,?_⟩
  · refine ordered_concat sql _ raw ?_ divided.conditions_ordered
    intro c member
    exact divided.divide.bounded c (List.mem_append_left _ member)
  · intro c member
    exact raw_concat sql values raw bare divided.raw c (last.mem_iff.mpr member)

theorem disjoin (divided : q.Divided) (sql : String) (values : List Value) (raw : Bool)
    (bare : raw = true → values = []) :
    Divided { q with
      alternatives := q.alternatives ++ [q.nextCondition sql values.length raw]
      parameters := q.parameters ++ values } := by
  refine ⟨?_,divided.conditions_ordered,?_,?_⟩
  · rw [← List.append_assoc]
    exact divide_concat sql values raw divided.divide
  · refine ordered_concat sql _ raw ?_ divided.alternatives_ordered
    intro c member
    exact divided.divide.bounded c (List.mem_append_right _ member)
  · rw [← List.append_assoc]
    exact raw_concat sql values raw bare divided.raw

/-- The step: a condition takes over the values that come with it, and other calls touch neither
conditions nor parameters. -/
theorem apply (divided : q.Divided) (c : Clause) : (q.apply c).Divided := by
  cases c with
  | condition column operator value => exact divided.conjoin _ [value] false (by simp)
  | alternative column operator value => exact divided.disjoin _ [value] false (by simp)
  | membership column values =>
    rw [Pending.apply,addMembership]
    split
    · exact divided
    · exact divided.conjoin _ values false (by simp)
  | raw sql =>
    have added := divided.conjoin sql [] true (fun _ => rfl)
    rw [List.append_nil] at added
    exact added
  | _ => exact ⟨divided.divide,divided.conditions_ordered,divided.alternatives_ordered,divided.raw⟩

/-- The run: after any calls every parameter has one owner. -/
theorem ofClauses (calls : List Clause) : (Pending.ofClauses calls).Divided := by
  induction calls using List.reverseRecOn with
  | nil => exact empty
  | append_singleton calls c ih =>
    rw [Pending.ofClauses,List.foldl_append]
    exact ih.apply c

/-- Since the parameters are divided, the conditions pass on each of them once. -/
theorem whereParameters_perm (divided : q.Divided) : q.whereParameters.Perm q.parameters := by
  let read := fun i : Nat => q.parameters[i]?
  have slice (c : Condition) :
      (q.parameters.drop c.start).take c.parameterCount = c.indices.filterMap read :=
    (filterMap_range'_getElem? q.parameters c.start c.parameterCount).symm
  have owned : q.whereParameters =
      ((q.conditions ++ q.alternatives).flatMap Condition.indices).filterMap read := by
    rw [whereParameters,parametersOf,parametersOf,← List.flatMap_append,List.filterMap_flatMap]
    simp only [slice]
  have all : (List.range q.parameters.length).filterMap read = q.parameters := by
    rw [List.range_eq_range',filterMap_range'_getElem?,List.drop_zero,List.take_length]
  rw [owned]
  exact (divided.divide.indices_perm.filterMap read).trans (.of_eq all)

end Divided
end Pending

def questionMarks (text : String) : Nat := text.toList.count '?'

theorem questionMarks_append (a b : String) :
    questionMarks (a ++ b) = questionMarks a + questionMarks b := by
  rw [questionMarks,String.toList_append,List.count_append]
  rfl

theorem questionMarks_ofValues (values : List Value) :
    questionMarks (Layout.sql (Layout.ofValues values)) = values.length := by
  induction values with
  | nil => simp [Layout.ofValues,questionMarks]
  | cons value rest ih =>
    cases rest with
    | nil => simp [Layout.ofValues,Stretch.sql,questionMarks]
    | cons next rest =>
      have rest_eq : Layout.ofValues (value :: next :: rest) =
        .value value :: .fixed ", " :: Layout.ofValues (next :: rest) := by simp [Layout.ofValues]
      rw [rest_eq,Layout.sql_cons,Layout.sql_cons,questionMarks_append,questionMarks_append,ih]
      simp [Stretch.sql,questionMarks]
      omega

namespace Asked

/-- A condition keeps its text and, whatever marks the caller wrote, owns one parameter for each
question mark that was added to them. -/
structure Counted (a : Asked) (c : Condition) : Prop where
  sql : c.sql = Layout.sql a.layout
  raw : c.raw = a.isRaw
  count : questionMarks c.sql =
    c.parameterCount + ((Layout.writings a.layout).map questionMarks).sum

theorem questionMarks_layout (a : Asked) :
    questionMarks (Layout.sql a.layout) =
      (Layout.values a.layout).length + ((Layout.writings a.layout).map questionMarks).sum := by
  cases a with
  | comparison column operator value =>
    have blank : questionMarks " " = 0 := by decide
    have mark : questionMarks " ?" = 1 := by decide
    simp [layout,questionMarks_append,Stretch.sql,Stretch.value?,Stretch.writing?,blank,mark]
    omega
  | listing column values =>
    have opening : questionMarks " IN (" = 0 := by decide
    have closing : questionMarks ")" = 0 := by decide
    simp [layout,questionMarks_append,questionMarks_ofValues,Stretch.sql,Stretch.value?,
      Stretch.writing?,opening,closing]
    omega
  | raw sql => simp [layout,Stretch.sql,Stretch.value?,Stretch.writing?]

theorem Held.counted {parameters : List Value} {a : Asked} {c : Condition}
    (held : a.Held parameters c) : a.Counted c := by
  refine ⟨held.sql,held.raw,?_⟩
  have size : (Layout.values a.layout).length = c.parameterCount := by
    have start_le := held.start_le
    have stop_le := held.stop_le
    rw [← held.values,List.length_take,List.length_drop,Condition.parameterCount]
    omega
  rw [held.sql,questionMarks_layout,size]

end Asked

namespace Builder

variable {ε α : Type}

/-- In every state that a run reaches, each parameter has one owner. So no slice of parameters
reaches out of bounds, and a statement with conditions passes on each parameter once. -/
theorem after_divided (executor : Option ε) (tracer : Trace.Tracer)
    (script : List (Answers ε × Command ε α)) :
    let b : Builder ε := { executor, tracer }
    let q := (b.after script).pending
    let d := Draft.ofClauses (History.calls (b.steps script))
    q.Divided ∧
    List.Forall₂ Asked.Counted d.conjuncts q.conditions ∧
    List.Forall₂ Asked.Counted d.disjuncts q.alternatives ∧
    (∀ s, q.toSelect = .ok s → s.parameters.Perm q.parameters) ∧
    (∀ s, q.toDelete = .ok s → s.parameters.Perm q.parameters) ∧
    ∀ row s, q.toUpdate row = .ok s →
      ∃ found, s.parameters = row.values ++ found ∧ found.Perm q.parameters := by
  intro b q d
  have ended := (Reflects.fresh executor tracer).at_end script
  have reached : q = Pending.ofClauses (History.calls (b.steps script)) := ended.pending
  have divided : q.Divided := by
    rw [reached]
    exact .ofClauses _
  have asked : d.Matches q := by
    rw [reached]
    exact Draft.matches_ofClauses _
  refine ⟨divided,asked.conditions.imp fun _ _ held => held.counted,
    asked.alternatives.imp fun _ _ held => held.counted,?_,?_,?_⟩
  · intro s ok
    obtain ⟨name,table,rfl⟩ := Pending.toSelect_ok_iff.mp ok
    exact divided.whereParameters_perm
  · intro s ok
    obtain ⟨name,table,rfl⟩ := Pending.toDelete_ok_iff.mp ok
    exact divided.whereParameters_perm
  · intro row s ok
    obtain ⟨_,name,table,rfl⟩ := Pending.toUpdate_ok_iff.mp ok
    exact ⟨_,rfl,divided.whereParameters_perm⟩

theorem after_divided_crossed :
    let b : Builder Unit := {}
    let answers : Answers Unit := ⟨fun _ _ => .error .notConnected,fun _ _ => .ok ()⟩
    let script : List (Answers Unit × Command Unit Unit) := [
      (answers,.clause (.alternative "role" "=" (.text "admin"))),(answers,.terminal .first),
      (answers,.clause (.table "users")),(answers,.clause (.membership "id" [.int 1,.int 2]))]
    let q := (b.after script).pending
    q.parameters = [.text "admin",.int 1,.int 2] ∧
    ∃ s, q.toDelete = .ok s ∧ s.parameters = [.int 1,.int 2,.text "admin"] ∧
      s.parameters.Perm q.parameters := by
  intro b answers script q
  obtain ⟨_,_,_,_,deletes,_⟩ := after_divided (none : Option Unit) {} script
  exact ⟨rfl,_,rfl,rfl,deletes _ rfl⟩

end Builder
end FluentSql

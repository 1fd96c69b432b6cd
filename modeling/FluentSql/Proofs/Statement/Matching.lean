import FluentSql.Proofs.Statement.Draft
import Mathlib.Data.List.Forall2
import Mathlib.Data.List.Induction

/-! Pending states match the drafts of the calls that led to them. A condition holds on to its
values through the indices that it owns, also while further calls bind more parameters; the
statement that a state renders to is therefore the one that its draft lays out. -/
namespace FluentSql

/-- The condition has the text, and owns the values, of what was asked for. -/
structure Asked.Held (parameters : List Value) (a : Asked) (c : Condition) : Prop where
  sql : c.sql = Layout.sql a.layout
  raw : c.raw = a.isRaw
  start_le : c.start ≤ c.stop
  stop_le : c.stop ≤ parameters.length
  values : (parameters.drop c.start).take c.parameterCount = Layout.values a.layout

namespace Asked.Held

variable {parameters : List Value} {a : Asked} {c : Condition}

theorem append (held : Held parameters a c) (more : List Value) :
    Held (parameters ++ more) a c := by
  have start_le : c.start ≤ parameters.length := Nat.le_trans held.start_le held.stop_le
  have inside : c.parameterCount ≤ (parameters.drop c.start).length := by
    have stop_le := held.stop_le
    rw [List.length_drop,Condition.parameterCount]
    omega
  refine ⟨held.sql,held.raw,held.start_le,?_,?_⟩
  · rw [List.length_append]
    exact Nat.le_trans held.stop_le (Nat.le_add_right _ _)
  · rw [List.drop_append_of_le_length start_le,List.take_append_of_le_length inside]
    exact held.values

theorem nextCondition (q : Pending) (a : Asked) :
    Held (q.parameters ++ Layout.values a.layout) a
      (q.nextCondition (Layout.sql a.layout) (Layout.values a.layout).length a.isRaw) := by
  constructor <;> simp [Pending.nextCondition,Condition.parameterCount]

end Asked.Held

theorem flatMap_values_of_held {parameters : List Value} {asked : List Asked}
    {conditions : List Condition}
    (held : List.Forall₂ (Asked.Held parameters) asked conditions) :
    conditions.flatMap (fun c => (parameters.drop c.start).take c.parameterCount) =
      asked.flatMap fun a => Layout.values a.layout := by
  induction held with
  | nil => rfl
  | cons head _ ih => rw [List.flatMap_cons,List.flatMap_cons,head.values,ih]

namespace Draft

/-- A state does what the draft says, whatever the indices of its parameters. -/
structure Matches (d : Draft) (q : Pending) : Prop where
  table : q.table = d.table
  columns : q.columns = d.columns
  joins : q.joins = d.joins.map (Layout.sql ·.layout)
  conditions : List.Forall₂ (Asked.Held q.parameters) d.conjuncts q.conditions
  alternatives : List.Forall₂ (Asked.Held q.parameters) d.disjuncts q.alternatives
  groupBy : q.groupBy = d.groupBy
  orderBy : q.orderBy = d.orderBy.map (Layout.sql ·.layout)
  limit : q.limit = d.limit

theorem ofClauses_concat (calls : List Clause) (c : Clause) :
    ofClauses (calls ++ [c]) = (ofClauses calls).add c := by
  have last {α : Type} (f : Clause → Option α) :
      ((calls ++ [c]).filterMap f).getLast? = (f c).or (calls.filterMap f).getLast? := by
    cases found : f c <;> simp [List.filterMap_append,found]
  have all {α : Type} (f : Clause → Option α) :
      (calls ++ [c]).filterMap f = calls.filterMap f ++ (f c).toList := by
    cases found : f c <;> simp [List.filterMap_append,found]
  simp only [ofClauses,add,last]
  rw [all Clause.join?,all Clause.conjunct?,all Clause.disjunct?]
  cases c.columns? <;> rfl

namespace Matches

variable {d : Draft} {q : Pending}

private theorem held_append {parameters : List Value} {asked : List Asked}
    {conditions : List Condition}
    (held : List.Forall₂ (Asked.Held parameters) asked conditions) (more : List Value) :
    List.Forall₂ (Asked.Held (parameters ++ more)) asked conditions :=
  held.imp fun _ _ h => h.append more

private theorem held_concat {asked : List Asked} {conditions : List Condition}
    (held : List.Forall₂ (Asked.Held q.parameters) asked conditions) (a : Asked) :
    List.Forall₂ (Asked.Held (q.parameters ++ Layout.values a.layout)) (asked ++ [a])
      (conditions ++
        [q.nextCondition (Layout.sql a.layout) (Layout.values a.layout).length a.isRaw]) :=
  List.rel_append (held_append held _) (.cons (Asked.Held.nextCondition q a) .nil)

private theorem conjunct (m : d.Matches q) (a : Asked) :
    Matches { d with conjuncts := d.conjuncts ++ [a] } { q with
      conditions := q.conditions ++
        [q.nextCondition (Layout.sql a.layout) (Layout.values a.layout).length a.isRaw]
      parameters := q.parameters ++ Layout.values a.layout } :=
  { m with
    conditions := held_concat m.conditions a
    alternatives := held_append m.alternatives _ }

private theorem disjunct (m : d.Matches q) (a : Asked) :
    Matches { d with disjuncts := d.disjuncts ++ [a] } { q with
      alternatives := q.alternatives ++
        [q.nextCondition (Layout.sql a.layout) (Layout.values a.layout).length a.isRaw]
      parameters := q.parameters ++ Layout.values a.layout } :=
  { m with
    conditions := held_append m.conditions _
    alternatives := held_concat m.alternatives a }

private theorem sql_comparison (column operator : String) (value : Value) :
    Layout.sql (Asked.comparison column operator value).layout =
      column ++ " " ++ operator ++ " ?" := by
  simp [Asked.layout,Stretch.sql,String.append_assoc]

private theorem values_comparison (column operator : String) (value : Value) :
    Layout.values (Asked.comparison column operator value).layout = [value] := rfl

theorem sql_ofValues (values : List Value) :
    Layout.sql (Layout.ofValues values) = placeholders values.length := by
  rw [Layout.ofValues,Layout.sql_separated,placeholders,← List.map_const',List.map_map]
  congr 1

private theorem sql_listing (column : String) (values : List Value) :
    Layout.sql (Asked.listing column values).layout =
      column ++ " IN (" ++ placeholders values.length ++ ")" := by
  simp [Asked.layout,sql_ofValues,Stretch.sql,String.append_assoc]

private theorem values_listing (column : String) (values : List Value) :
    Layout.values (Asked.listing column values).layout = values := by
  simp [Asked.layout,Stretch.value?]

/-- The step: what a call does to the state, it does to the draft. -/
theorem add (m : d.Matches q) (c : Clause) : (d.add c).Matches (q.apply c) := by
  cases c with
  | table name =>
    have same : d.add (.table name) = { d with table := some name } := by simp [Draft.add]
    rw [same]
    exact { m with table := rfl }
  | columns names =>
    have same : d.add (.columns names) = { d with columns := names } := by simp [Draft.add]
    rw [same]
    exact { m with columns := rfl }
  | join kind name on =>
    let j : Join := ⟨kind,name,on⟩
    have same : d.add (.join kind name on) = { d with joins := d.joins ++ [j] } := by
      simp [Draft.add,j]
    have text : (q.apply (.join kind name on)).joins = q.joins ++ [Layout.sql j.layout] := by
      cases kind <;>
        simp [j,Join.layout,Pending.apply,Pending.addJoin,Stretch.sql,String.append_assoc]
    rw [same]
    exact { m with joins := by rw [text,m.joins,List.map_append,List.map_singleton] }
  | condition column operator value =>
    have asked := m.conjunct (.comparison column operator value)
    rw [sql_comparison,values_comparison] at asked
    simpa [Draft.add,Pending.apply,Pending.addCondition,Asked.isRaw] using asked
  | alternative column operator value =>
    have asked := m.disjunct (.comparison column operator value)
    rw [sql_comparison,values_comparison] at asked
    simpa [Draft.add,Pending.apply,Pending.addAlternative,Asked.isRaw] using asked
  | membership column values =>
    by_cases none : values = []
    · simpa [Draft.add,Pending.apply,Pending.addMembership,none] using m
    · have asked := m.conjunct (.listing column values)
      rw [sql_listing,values_listing] at asked
      simpa [Draft.add,Pending.apply,Pending.addMembership,Asked.isRaw,none] using asked
  | raw sql =>
    have asked := m.conjunct (.raw sql)
    simpa [Draft.add,Pending.apply,Pending.addRaw,Asked.layout,Asked.isRaw,Stretch.sql,
      Stretch.value?] using asked
  | groupBy column =>
    have same : d.add (.groupBy column) = { d with groupBy := some column } := by
      simp [Draft.add]
    rw [same]
    exact { m with groupBy := rfl }
  | orderBy column direction =>
    let o : Order := ⟨column,direction⟩
    have same : d.add (.orderBy column direction) = { d with orderBy := some o } := by
      simp [Draft.add,o]
    have text : Layout.sql o.layout = column ++ " " ++ direction := by
      simp [o,Order.layout,Stretch.sql,String.append_assoc]
    rw [same]
    exact { m with orderBy := by rw [Option.map_some,text]; rfl }
  | limit n =>
    have same : d.add (.limit n) = { d with limit := some n } := by simp [Draft.add]
    rw [same]
    exact { m with limit := rfl }

end Matches

/-- The run: the state that some calls lead to does what the calls say. -/
theorem matches_ofClauses (calls : List Clause) :
    (ofClauses calls).Matches (Pending.ofClauses calls) := by
  induction calls using List.reverseRecOn with
  | nil => exact ⟨rfl,rfl,rfl,.nil,.nil,rfl,rfl,rfl⟩
  | append_singleton calls c ih =>
    rw [ofClauses_concat,Pending.ofClauses,List.foldl_append]
    exact ih.add c

end Draft
end FluentSql

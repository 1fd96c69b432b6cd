import FluentSql.Proofs.Postgres.Marks
import FluentSql.Proofs.Statement.Draft
import Mathlib.Data.List.Chain

/-! Layouts in which the text of the library fences off what the caller wrote. A fence brings
the numbering of placeholders back to plain code, so each text of the caller is scanned as if it
stood alone, and the place of every value is numbered. -/
namespace FluentSql.Postgres

def Placeholder.isPlain (c : Char) : Bool :=
  c ≠ '?' && c ≠ '\'' && c ≠ '"' && c ≠ '-' && c ≠ '/'

/-- Some plain text. A slash before it must not become the opening of a comment. -/
def Placeholder.isFence (text : String) : Bool :=
  match text.toList with
  | [] => false
  | c :: rest => c ≠ '*' && (c :: rest).all isPlain

theorem Placeholder.all_isPlain_toDigits (n : Nat) : (Nat.toDigits 10 n).all isPlain = true := by
  rw [List.all_eq_true]
  intro c member
  have digit := Nat.isDigit_of_mem_toDigits (by omega) (by omega) member
  simp only [isPlain,Bool.and_eq_true,decide_eq_true_eq]
  refine ⟨⟨⟨⟨?_,?_⟩,?_⟩,?_⟩,?_⟩ <;>
  · intro same
    subst same
    cases digit

/-- Alone, the text ends outside quotes and comments. -/
def Placeholder.Closed (text : String) : Prop := (Mode.after .code text.toList).isCode = true

instance : DecidablePred Placeholder.Closed :=
  fun text => inferInstanceAs (Decidable ((Mode.after .code text.toList).isCode = true))

namespace Mode
open Placeholder

private theorem next_plain {c : Char} (plain : isPlain c = true) : next .code c = .code := by
  simp [isPlain] at plain
  simp [next,ofCode,plain]

private theorem after_plain {cs : List Char} (plain : cs.all isPlain = true) :
    after .code cs = .code := by
  induction cs with
  | nil => rfl
  | cons c rest ih =>
    rw [List.all_cons,Bool.and_eq_true] at plain
    rw [after_cons,next_plain plain.1,ih plain.2]

private theorem countFrom_plain (m : Mode) {cs : List Char} (plain : cs.all isPlain = true) :
    countFrom m cs = 0 := by
  induction cs generalizing m with
  | nil => rfl
  | cons c rest ih =>
    rw [List.all_cons,Bool.and_eq_true] at plain
    have other : c ≠ '?' := by
      intro same
      subst same
      cases plain.1
    simp [countFrom,ih _ plain.2,other]

theorem after_fence {m : Mode} (code : m.isCode = true) {text : String}
    (fence : isFence text = true) : m.after text.toList = .code := by
  unfold isFence at fence
  split at fence
  · cases fence
  · rename_i c rest found
    simp only [List.all_cons,Bool.and_eq_true,decide_eq_true_eq] at fence
    obtain ⟨noStar,plain,more⟩ := fence
    have first : m.next c = .code := by
      have base := next_plain plain
      simp [isPlain] at plain
      cases m <;> simp_all [next,isCode]
    rw [found,after_cons,first,after_plain more]

theorem countFrom_fence (m : Mode) {text : String} (fence : isFence text = true) :
    countFrom m text.toList = 0 := by
  unfold isFence at fence
  split at fence
  · cases fence
  · rename_i c rest found
    rw [Bool.and_eq_true] at fence
    rw [found]
    exact countFrom_plain m fence.2

end Mode
end FluentSql.Postgres

namespace FluentSql
open Postgres

def Stretch.Apart (a b : Stretch) : Prop := a.writing? = none ∨ b.writing? = none

namespace Layout

structure Fenced (l : Layout) : Prop where
  fences : ∀ text, .fixed text ∈ l → Placeholder.isFence text = true
  apart : l.IsChain Stretch.Apart

def Opens (l : Layout) : Prop := ∀ s ∈ l.head?, s.writing? = none

theorem opens_nil : Opens [] := by simp [Opens]

theorem opens_fixed (text : String) (l : Layout) : Opens (.fixed text :: l) := by
  simp [Opens,Stretch.writing?]

namespace Fenced

theorem nil : Fenced [] := ⟨by simp,.nil⟩

theorem written (text : String) : Fenced [.written text] := ⟨by simp,.singleton _⟩

theorem value (v : Value) : Fenced [.value v] := ⟨by simp,.singleton _⟩

theorem fixed (text : String) (fence : Placeholder.isFence text = true) {l : Layout}
    (rest : Fenced l) : Fenced (.fixed text :: l) := by
  constructor
  · intro other member
    rcases List.mem_cons.mp member with same | later
    · cases same
      exact fence
    · exact rest.fences other later
  · rw [List.isChain_cons]
    exact ⟨fun _ _ => .inl rfl,rest.apart⟩

theorem append {l m : Layout} (first : Fenced l) (second : Fenced m) (opens : Opens m) :
    Fenced (l ++ m) := by
  constructor
  · intro text member
    rcases List.mem_append.mp member with inFirst | inSecond
    · exact first.fences text inFirst
    · exact second.fences text inSecond
  · rw [List.isChain_append]
    exact ⟨first.apart,second.apart,fun _ _ b head => .inr (opens b head)⟩

theorem separated {separator : String} (fence : Placeholder.isFence separator = true)
    {parts : List Layout} (all : ∀ l ∈ parts, Fenced l) :
    Fenced (separated separator parts) := by
  induction parts with
  | nil => exact nil
  | cons l rest ih =>
    cases rest with
    | nil => simpa using all l (by simp)
    | cons m rest =>
      rw [separated_cons_cons]
      have later := ih fun part member => all part (by simp [member])
      exact append (all l (by simp)) (fixed _ fence later) (opens_fixed _ _)

theorem enclosed {l : Layout} (inner : Fenced l) : Fenced (enclosed l) :=
  append (fixed _ rfl inner) (fixed _ rfl nil) (opens_fixed _ _)

theorem ofValues (vs : List Value) : Fenced (ofValues vs) := by
  refine separated rfl ?_
  intro l member
  obtain ⟨v,_,rfl⟩ := List.mem_map.mp member
  exact value v

end Fenced
end Layout

open Layout

private theorem fenced_written_fixed (text fence : String) {l : Layout}
    (plain : Placeholder.isFence fence = true) (rest : Fenced l) :
    Fenced (.written text :: .fixed fence :: l) :=
  (Fenced.written text).append (Fenced.fixed _ plain rest) (opens_fixed _ _)

private theorem fenced_asked (a : Asked) : Fenced a.layout := by
  cases a with
  | comparison column operator value =>
    exact fenced_written_fixed _ _ rfl (fenced_written_fixed _ _ rfl (Fenced.value value))
  | listing column values =>
    have closing : Fenced [.fixed ")"] := Fenced.fixed _ rfl Fenced.nil
    exact fenced_written_fixed _ _ rfl
      ((Fenced.ofValues values).append closing (opens_fixed _ _))
  | raw sql => exact Fenced.written sql

private theorem fenced_join (j : Join) : Fenced j.layout := by
  have tail : Fenced [.fixed "JOIN ",.written j.table,.fixed " ON ",.written j.on] :=
    Fenced.fixed _ rfl (fenced_written_fixed _ _ rfl (Fenced.written j.on))
  cases found : j.kind with
  | none => simpa [Join.layout,found] using tail
  | some kind =>
    simpa [Join.layout,found] using fenced_written_fixed kind " " rfl tail

namespace Draft

private theorem fenced_conditionLayout (d : Draft) (a : Asked) : Fenced (d.conditionLayout a) := by
  rw [conditionLayout]
  split
  · exact (fenced_asked a).enclosed
  · exact fenced_asked a

private theorem fenced_conditions {separator : String}
    (plain : Placeholder.isFence separator = true) (d : Draft) (asked : List Asked) :
    Fenced (separated separator (asked.map d.conditionLayout)) := by
  refine Fenced.separated plain ?_
  intro l member
  obtain ⟨a,_,rfl⟩ := List.mem_map.mp member
  exact d.fenced_conditionLayout a

private theorem fenced_conjunction (d : Draft) : Fenced d.conjunction := by
  rw [conjunction]
  split
  · exact (d.fenced_conditions rfl _).enclosed
  · exact d.fenced_conditions rfl _

private theorem fenced_disjunction (d : Draft) : Fenced d.disjunction :=
  d.fenced_conditions rfl _

private theorem fenced_whereLayout (d : Draft) : Fenced d.whereLayout ∧ Opens d.whereLayout := by
  rw [whereLayout]
  split
  · exact ⟨Fenced.nil,opens_nil⟩
  · exact ⟨Fenced.fixed _ rfl d.fenced_conjunction,opens_fixed _ _⟩
  · exact ⟨Fenced.fixed _ rfl d.fenced_disjunction,opens_fixed _ _⟩
  · have alternatives := Fenced.fixed " OR " rfl d.fenced_disjunction
    have conditions := Fenced.fixed " WHERE " rfl d.fenced_conjunction
    exact ⟨conditions.append alternatives (opens_fixed _ _),opens_fixed _ _⟩

private theorem fenced_tableLayout (d : Draft) : Fenced d.tableLayout := by
  rw [tableLayout]
  cases d.table with
  | none => exact Fenced.nil
  | some name => exact Fenced.written name

private theorem fenced_selection (d : Draft) : Fenced d.selection := by
  rw [selection]
  split
  · exact Fenced.fixed _ rfl Fenced.nil
  · refine Fenced.fixed _ rfl (Fenced.separated rfl ?_)
    intro l member
    obtain ⟨name,_,rfl⟩ := List.mem_map.mp member
    exact Fenced.written name

private theorem fenced_joinsLayout (d : Draft) : Fenced d.joinsLayout ∧ Opens d.joinsLayout := by
  rw [joinsLayout]
  induction d.joins with
  | nil => exact ⟨Fenced.nil,opens_nil⟩
  | cons j rest ih =>
    have first := Fenced.fixed " " rfl (fenced_join j)
    exact ⟨first.append ih.1 ih.2,opens_fixed _ _⟩

private theorem fenced_groupByLayout (d : Draft) :
    Fenced d.groupByLayout ∧ Opens d.groupByLayout := by
  rw [groupByLayout]
  cases d.groupBy with
  | none => exact ⟨Fenced.nil,opens_nil⟩
  | some column => exact ⟨Fenced.fixed _ rfl (Fenced.written column),opens_fixed _ _⟩

private theorem fenced_orderByLayout (d : Draft) :
    Fenced d.orderByLayout ∧ Opens d.orderByLayout := by
  rw [orderByLayout]
  cases d.orderBy with
  | none => exact ⟨Fenced.nil,opens_nil⟩
  | some o =>
    have order := fenced_written_fixed o.column " " rfl
      (Fenced.written o.direction)
    exact ⟨Fenced.fixed _ rfl order,opens_fixed _ _⟩

private theorem fence_limit (n : Nat) : Placeholder.isFence (" LIMIT " ++ toString n) = true := by
  have digits : (toString n).toList.all Placeholder.isPlain = true := by
    have decimal : (toString n).toList = Nat.toDigits 10 n := by simp [toString,Nat.repr]
    rw [decimal]
    exact Placeholder.all_isPlain_toDigits n
  have shape : (" LIMIT " ++ toString n).toList =
      ' ' :: ("LIMIT ".toList ++ (toString n).toList) := by
    rw [String.toList_append]
    rfl
  have plain : (' ' :: ("LIMIT ".toList ++ (toString n).toList)).all Placeholder.isPlain = true := by
    rw [List.all_cons,List.all_append,digits]
    rfl
  rw [Placeholder.isFence,shape]
  exact plain

private theorem fenced_limitLayout (d : Draft) : Fenced d.limitLayout ∧ Opens d.limitLayout := by
  rw [limitLayout]
  cases d.limit with
  | none => exact ⟨Fenced.nil,opens_nil⟩
  | some n => exact ⟨Fenced.fixed _ (fence_limit n) Fenced.nil,opens_fixed _ _⟩

private theorem fenced_select (d : Draft) : Fenced d.select := by
  have table := Fenced.fixed " FROM " rfl d.fenced_tableLayout
  have source := d.fenced_selection.append table (opens_fixed _ _)
  have joined := source.append d.fenced_joinsLayout.1 d.fenced_joinsLayout.2
  have filtered := joined.append d.fenced_whereLayout.1 d.fenced_whereLayout.2
  have grouped := filtered.append d.fenced_groupByLayout.1 d.fenced_groupByLayout.2
  have ordered := grouped.append d.fenced_orderByLayout.1 d.fenced_orderByLayout.2
  exact ordered.append d.fenced_limitLayout.1 d.fenced_limitLayout.2

private theorem fenced_insert (d : Draft) (rows : List Record) : Fenced (d.insert rows) := by
  have table := Fenced.fixed "INSERT INTO " rfl d.fenced_tableLayout
  have columns (names : List String) :
      Fenced (.fixed " (" :: separated ", " (names.map ([.written ·]))) := by
    refine Fenced.fixed _ rfl (Fenced.separated rfl ?_)
    intro l member
    obtain ⟨name,_,rfl⟩ := List.mem_map.mp member
    exact Fenced.written name
  have groups : Fenced (.fixed ") VALUES " ::
      separated ", " (rows.map fun row => enclosed (ofValues row.values))) := by
    refine Fenced.fixed _ rfl (Fenced.separated rfl ?_)
    intro l member
    obtain ⟨row,_,rfl⟩ := List.mem_map.mp member
    exact (Fenced.ofValues row.values).enclosed
  exact (table.append (columns _) (opens_fixed _ _)).append groups (opens_fixed _ _)

private theorem fenced_update (d : Draft) (row : Record) : Fenced (d.update row) := by
  have table := Fenced.fixed "UPDATE " rfl d.fenced_tableLayout
  have sets : Fenced (.fixed " SET " :: separated ", " (row.fields.map assignment)) := by
    refine Fenced.fixed _ rfl (Fenced.separated rfl ?_)
    intro l member
    obtain ⟨field,_,rfl⟩ := List.mem_map.mp member
    exact fenced_written_fixed _ _ rfl (Fenced.value field.2)
  have assigned := table.append sets (opens_fixed _ _)
  exact assigned.append d.fenced_whereLayout.1 d.fenced_whereLayout.2

private theorem fenced_delete (d : Draft) : Fenced d.delete := by
  have table := Fenced.fixed "DELETE FROM " rfl d.fenced_tableLayout
  exact table.append d.fenced_whereLayout.1 d.fenced_whereLayout.2

/-- Between two texts of the caller there is always some of the library. -/
theorem fenced_layout (d : Draft) (r : Request) : Fenced (d.layout r) := by
  cases r with
  | select => exact d.fenced_select
  | insert row => exact d.fenced_insert [row]
  | insertMany rows => exact d.fenced_insert rows
  | update row => exact d.fenced_update row
  | delete => exact d.fenced_delete

end Draft
end FluentSql

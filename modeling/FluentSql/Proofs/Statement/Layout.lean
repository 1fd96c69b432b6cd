import FluentSql.Value
import Mathlib.Data.List.Basic

/-! Texts laid out in stretches. A stretch is text of the library, text written by the caller
or the place of a value. One layout gives the text with question marks, the text with the
values in their places, the values in order and what the caller wrote. -/
namespace FluentSql

inductive Stretch
  | fixed (text : String)
  | written (text : String)
  | value (v : Value)

abbrev Layout := List Stretch

namespace Stretch

def sql : Stretch → String
  | .fixed text => text
  | .written text => text
  | .value _ => "?"

def value? : Stretch → Option Value
  | .value v => some v
  | _ => none

def writing? : Stretch → Option String
  | .written text => some text
  | _ => none

/-- Text character by character, with a value where the question mark would be. -/
def filled : Stretch → List (Char ⊕ Value)
  | .fixed text => text.toList.map .inl
  | .written text => text.toList.map .inl
  | .value v => [.inr v]

end Stretch

namespace Layout

def sql (l : Layout) : String := String.join (l.map Stretch.sql)
def values (l : Layout) : List Value := l.filterMap Stretch.value?
def writings (l : Layout) : List String := l.filterMap Stretch.writing?
def filled (l : Layout) : List (Char ⊕ Value) := l.flatMap Stretch.filled

def separated (separator : String) (parts : List Layout) : Layout :=
  List.intercalate [.fixed separator] parts

def ofValues (vs : List Value) : Layout := separated ", " (vs.map ([.value ·]))

def enclosed (l : Layout) : Layout := .fixed "(" :: l ++ [.fixed ")"]

@[simp] theorem sql_nil : sql [] = "" := by simp [sql]

@[simp] theorem sql_cons (s : Stretch) (l : Layout) : sql (s :: l) = s.sql ++ sql l := by
  simp [sql]

@[simp] theorem sql_append (l m : Layout) : sql (l ++ m) = sql l ++ sql m := by simp [sql]

@[simp] theorem values_nil : values [] = [] := rfl

@[simp] theorem values_cons (s : Stretch) (l : Layout) :
    values (s :: l) = s.value?.toList ++ values l := by
  cases s <;> rfl

@[simp] theorem values_append (l m : Layout) : values (l ++ m) = values l ++ values m := by
  simp [values]

@[simp] theorem writings_nil : writings [] = [] := rfl

@[simp] theorem writings_cons (s : Stretch) (l : Layout) :
    writings (s :: l) = s.writing?.toList ++ writings l := by
  cases s <;> rfl

@[simp] theorem writings_append (l m : Layout) :
    writings (l ++ m) = writings l ++ writings m := by
  simp [writings]

@[simp] theorem separated_nil (separator : String) : separated separator [] = [] := rfl

@[simp] theorem separated_singleton (separator : String) (l : Layout) :
    separated separator [l] = l := by simp [separated]

@[simp] theorem separated_cons_cons (separator : String) (l m : Layout) (parts : List Layout) :
    separated separator (l :: m :: parts) =
      l ++ .fixed separator :: separated separator (m :: parts) := by
  simp [separated]

theorem sql_separated (separator : String) (parts : List Layout) :
    sql (separated separator parts) = separator.intercalate (parts.map sql) := by
  induction parts with
  | nil => simp
  | cons l rest ih =>
    cases rest with
    | nil => simp
    | cons m rest =>
      rw [separated_cons_cons,sql_append,sql_cons,ih]
      simp [Stretch.sql,String.append_assoc]

/-- A view that skips the text of the library sees the parts only. -/
theorem filterMap_separated {α : Type} (f : Stretch → Option α)
    (skips : ∀ text, f (.fixed text) = none) (separator : String) (parts : List Layout) :
    (separated separator parts).filterMap f = parts.flatMap (List.filterMap f) := by
  induction parts with
  | nil => simp
  | cons l rest ih =>
    cases rest with
    | nil => simp
    | cons m rest =>
      rw [separated_cons_cons,List.filterMap_append,List.filterMap_cons_none (skips _),ih]
      rfl

theorem filterMap_enclosed {α : Type} (f : Stretch → Option α)
    (skips : ∀ text, f (.fixed text) = none) (l : Layout) :
    (enclosed l).filterMap f = l.filterMap f := by
  simp [enclosed,skips]

theorem values_separated (separator : String) (parts : List Layout) :
    values (separated separator parts) = parts.flatMap values :=
  filterMap_separated _ (fun _ => rfl) separator parts

theorem writings_separated (separator : String) (parts : List Layout) :
    writings (separated separator parts) = parts.flatMap writings :=
  filterMap_separated _ (fun _ => rfl) separator parts

@[simp] theorem values_ofValues (vs : List Value) : values (ofValues vs) = vs := by
  rw [ofValues,values_separated,List.flatMap_map]
  simp [Stretch.value?]

@[simp] theorem writings_ofValues (vs : List Value) : writings (ofValues vs) = [] := by
  rw [ofValues,writings_separated,List.flatMap_map]
  simp [Stretch.writing?]

@[simp] theorem sql_enclosed (l : Layout) : sql (enclosed l) = "(" ++ sql l ++ ")" := by
  simp [enclosed,Stretch.sql,String.append_assoc]

@[simp] theorem values_enclosed (l : Layout) : values (enclosed l) = values l :=
  filterMap_enclosed _ (fun _ => rfl) l

@[simp] theorem writings_enclosed (l : Layout) : writings (enclosed l) = writings l :=
  filterMap_enclosed _ (fun _ => rfl) l

end Layout
end FluentSql

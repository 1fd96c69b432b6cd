import FluentSql.Postgres.Placeholder
import FluentSql.Value

/-! The numbering of placeholders seen mark by mark. A mark is a character that is copied or a
placeholder that is introduced, so that introduced placeholders are never mixed up with text
that merely looks like them. -/
namespace FluentSql.Postgres

namespace Mode

@[simp] theorem after_nil (m : Mode) : m.after [] = m := rfl

@[simp] theorem after_cons (m : Mode) (c : Char) (rest : List Char) :
    m.after (c :: rest) = (m.next c).after rest := rfl

theorem after_append (m : Mode) (xs ys : List Char) :
    m.after (xs ++ ys) = (m.after xs).after ys := List.foldl_append

theorem next_question {m : Mode} (code : m.isCode = true) : m.next '?' = .code := by
  cases m <;> first | rfl | cases code

end Mode

namespace Placeholder

/-- The marks of a text that starts in a mode and behind `count` placeholders. -/
def marksFrom (m : Mode) (count : Nat) : List Char → List (Char ⊕ Nat)
  | [] => []
  | c :: rest =>
    if c = '?' ∧ m.isCode then .inr (count + 1) :: marksFrom (m.next c) (count + 1) rest
    else .inl c :: marksFrom (m.next c) count rest

def marks (sql : String) : List (Char ⊕ Nat) := marksFrom .code 0 sql.toList

def introduced (marks : List (Char ⊕ Nat)) : List Nat := marks.filterMap Sum.getRight?

def spell : Char ⊕ Nat → List Char
  | .inl c => [c]
  | .inr k => '$' :: Nat.toDigits 10 k

/-- Puts the parameter with number `k`, counted from one, in place of the placeholder `$k`. -/
def fill (parameters : List Value) : Char ⊕ Nat → List (Char ⊕ Value)
  | .inl c => [.inl c]
  | .inr k => parameters[k - 1]?.toList.map .inr

theorem numberFrom_eq (m : Mode) (n : Nat) (cs : List Char) :
    numberFrom m n cs = (marksFrom m n cs).flatMap spell := by
  induction cs generalizing m n with
  | nil => rfl
  | cons c rest ih =>
    rw [numberFrom,marksFrom]
    split
    · rename_i placeholder
      obtain ⟨rfl,code⟩ := placeholder
      rw [List.flatMap_cons,Mode.next_question code,ih]
      rfl
    · rw [List.flatMap_cons,ih]
      rfl

theorem number_eq (sql : String) : number sql = String.ofList ((marks sql).flatMap spell) := by
  rw [number,marks,numberFrom_eq]

theorem introduced_marksFrom (m : Mode) (n : Nat) (cs : List Char) :
    introduced (marksFrom m n cs) = List.range' (n + 1) (countFrom m cs) := by
  induction cs generalizing m n with
  | nil => rfl
  | cons c rest ih =>
    rw [marksFrom,countFrom]
    split
    · have later := ih (m.next c) (n + 1)
      rw [Nat.add_comm 1,List.range'_succ,← later]
      rfl
    · have later := ih (m.next c) n
      rw [Nat.zero_add,← later]
      rfl

theorem introduced_marks (sql : String) :
    introduced (marks sql) = List.range' 1 (count sql) := introduced_marksFrom .code 0 _

theorem countFrom_append (m : Mode) (xs ys : List Char) :
    countFrom m (xs ++ ys) = countFrom m xs + countFrom (m.after xs) ys := by
  induction xs generalizing m with
  | nil => simp [countFrom]
  | cons c rest ih =>
    rw [List.cons_append,countFrom,countFrom,ih,Mode.after_cons,Nat.add_assoc]

theorem marksFrom_append (m : Mode) (n : Nat) (xs ys : List Char) :
    marksFrom m n (xs ++ ys) =
      marksFrom m n xs ++ marksFrom (m.after xs) (n + countFrom m xs) ys := by
  induction xs generalizing m n with
  | nil => simp [marksFrom,countFrom]
  | cons c rest ih =>
    rw [List.cons_append,marksFrom,marksFrom,countFrom,Mode.after_cons]
    split
    · rw [ih,List.cons_append,Nat.add_assoc]
    · rw [ih,List.cons_append,Nat.zero_add]

theorem marksFrom_of_countFrom_eq_zero {m : Mode} (n : Nat) {cs : List Char}
    (none : countFrom m cs = 0) : marksFrom m n cs = cs.map .inl := by
  induction cs generalizing m with
  | nil => rfl
  | cons c rest ih =>
    rw [countFrom] at none
    rw [marksFrom,if_neg,ih (Nat.eq_zero_of_add_eq_zero_left none),List.map_cons]
    intro placeholder
    rw [if_pos placeholder] at none
    omega

end Placeholder
end FluentSql.Postgres

import FluentSql.Proofs.Postgres.Fences

/-! Numbering a text a second time. The number that stands for a placeholder opens neither quotes
nor comments, so behind it the second scan is in the mode in which the first was behind the
question mark, and it meets no other question mark in code. -/
namespace FluentSql.Postgres
open Placeholder

namespace Placeholder

theorem isFence_spell (k : Nat) : isFence (String.ofList (spell (.inr k))) = true := by
  rw [isFence,String.toList_ofList,spell]
  simp only [List.all_cons,all_isPlain_toDigits k]
  decide

theorem numberFrom_of_countFrom_eq_zero {m : Mode} (n : Nat) {cs : List Char}
    (none : countFrom m cs = 0) : numberFrom m n cs = cs := by
  rw [numberFrom_eq,marksFrom_of_countFrom_eq_zero n none,List.flatMap_map]
  exact List.flatMap_singleton' cs

end Placeholder

namespace Mode

theorem after_spell {m : Mode} (code : m.isCode = true) (k : Nat) :
    m.after (spell (.inr k)) = .code ∧ countFrom m (spell (.inr k)) = 0 := by
  have after := after_fence code (isFence_spell k)
  have none := countFrom_fence m (isFence_spell k)
  rw [String.toList_ofList] at after none
  exact ⟨after,none⟩

/-- The scan of the numbered text ends as that of the text does, and has nothing to number. -/
theorem after_numberFrom (m : Mode) (n : Nat) (cs : List Char) :
    m.after (numberFrom m n cs) = m.after cs ∧ countFrom m (numberFrom m n cs) = 0 := by
  induction cs generalizing m n with
  | nil => exact ⟨rfl,rfl⟩
  | cons c rest ih =>
    rw [numberFrom,after_cons]
    split
    next placeholder =>
      obtain ⟨rfl,code⟩ := placeholder
      obtain ⟨behind,none⟩ := after_spell code (n + 1)
      obtain ⟨same,quiet⟩ := ih .code (n + 1)
      change m.after (spell (.inr (n + 1)) ++ _) = _ ∧ countFrom m (spell (.inr (n + 1)) ++ _) = 0
      rw [after_append,countFrom_append,behind,none,next_question code]
      exact ⟨same,by rw [quiet]⟩
    next copied =>
      obtain ⟨same,quiet⟩ := ih (m.next c) n
      rw [after_cons,countFrom,if_neg copied,quiet]
      exact ⟨same,rfl⟩

end Mode

theorem number_number (sql : String) :
    number (number sql) = number sql ∧ count (number sql) = 0 := by
  have none : count (number sql) = 0 := by
    rw [count,number,String.toList_ofList]
    exact (Mode.after_numberFrom .code 0 sql.toList).2
  refine ⟨?_,none⟩
  rw [number,numberFrom_of_countFrom_eq_zero 0 none,String.ofList_toList]

example : let once := number "a-? /* ? */ ?/* ?"; once = "a-$1 /* ? */ $2/* ?" ∧ count once = 0 := by
  decide

end FluentSql.Postgres

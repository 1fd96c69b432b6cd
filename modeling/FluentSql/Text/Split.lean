/-! Splitting a text at every occurrence of a separator. -/
namespace FluentSql.Text

def splitOn (separator : Char) : List Char → List (List Char)
  | [] => [[]]
  | c :: rest =>
    if c = separator then [] :: splitOn separator rest
    else match splitOn separator rest with
      | [] => [[c]]
      | part :: parts => (c :: part) :: parts

variable {separator : Char} {part : List Char}

theorem splitOn_of_notMem (absent : separator ∉ part) : splitOn separator part = [part] := by
  induction part with
  | nil => rfl
  | cons c rest ih =>
    rw [List.mem_cons,not_or] at absent
    rw [splitOn,if_neg (Ne.symm absent.1),ih absent.2]

theorem splitOn_append_cons (absent : separator ∉ part) (rest : List Char) :
    splitOn separator (part ++ separator :: rest) = part :: splitOn separator rest := by
  induction part with
  | nil => rw [List.nil_append,splitOn,if_pos rfl]
  | cons c cs ih =>
    rw [List.mem_cons,not_or] at absent
    rw [List.cons_append,splitOn,if_neg (Ne.symm absent.1),ih absent.2]

end FluentSql.Text

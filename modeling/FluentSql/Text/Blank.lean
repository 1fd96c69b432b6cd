/-! Blank characters and trimming. A character is blank when it has the Unicode
property `White_Space`; trimming removes blanks at both ends and nowhere else. -/
namespace FluentSql.Text

def isBlank (c : Char) : Bool :=
  let n := c.toNat
  (0x9 ≤ n && n ≤ 0xd) || n == 0x20 || n == 0x85 || n == 0xa0 || n == 0x1680 ||
    (0x2000 ≤ n && n ≤ 0x200a) || n == 0x2028 || n == 0x2029 || n == 0x202f ||
    n == 0x205f || n == 0x3000

def skipBlanks (cs : List Char) : List Char := cs.dropWhile isBlank

def trim (cs : List Char) : List Char := (skipBlanks (skipBlanks cs).reverse).reverse

def allBlank (cs : List Char) : Bool := cs.all isBlank

@[simp] theorem skipBlanks_nil : skipBlanks [] = [] := rfl

theorem skipBlanks_cons_of_blank {c : Char} (cs : List Char) (h : isBlank c = true) :
    skipBlanks (c :: cs) = skipBlanks cs := by simp [skipBlanks,h]

theorem skipBlanks_cons_of_not_blank {c : Char} (cs : List Char) (h : isBlank c = false) :
    skipBlanks (c :: cs) = c :: cs := by simp [skipBlanks,h]

end FluentSql.Text

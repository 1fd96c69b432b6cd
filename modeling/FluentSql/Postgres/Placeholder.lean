/-! Numbered placeholders. Question marks become `$1`, `$2` and so on, except those inside
quotes and comments. A quote written twice inside quotes ends the quoted text and starts it
again, which needs no rule of its own. -/
namespace FluentSql.Postgres

inductive Mode
  | code
  /-- In code, behind one minus sign or one slash that may open a comment. -/
  | dash
  | slash
  | quoted (quote : Char)
  | lineComment
  | blockComment
  /-- In a block comment, behind an asterisk that may close it. -/
  | asterisk
  deriving DecidableEq

namespace Mode

def isCode : Mode → Bool
  | .code | .dash | .slash => true
  | _ => false

def ofCode (c : Char) : Mode :=
  if c = '\'' ∨ c = '"' then .quoted c
  else if c = '-' then .dash
  else if c = '/' then .slash
  else .code

def next : Mode → Char → Mode
  | .code, c => ofCode c
  | .dash, c => if c = '-' then .lineComment else ofCode c
  | .slash, c => if c = '*' then .blockComment else ofCode c
  | .quoted q, c => if c = q then .code else .quoted q
  | .lineComment, c => if c = '\n' then .code else .lineComment
  | .blockComment, c => if c = '*' then .asterisk else .blockComment
  | .asterisk, c =>
    if c = '/' then .code else if c = '*' then .asterisk else .blockComment

def after (m : Mode) (text : List Char) : Mode := text.foldl next m

end Mode

namespace Placeholder

/-- Numbers the placeholders of a text that starts in a mode and behind `count` of them. -/
def numberFrom (m : Mode) (count : Nat) : List Char → List Char
  | [] => []
  | c :: rest =>
    if c = '?' ∧ m.isCode then
      '$' :: Nat.toDigits 10 (count + 1) ++ numberFrom .code (count + 1) rest
    else c :: numberFrom (m.next c) count rest

def countFrom (m : Mode) : List Char → Nat
  | [] => 0
  | c :: rest => (if c = '?' ∧ m.isCode then 1 else 0) + countFrom (m.next c) rest

def number (sql : String) : String := String.ofList (numberFrom .code 0 sql.toList)

def count (sql : String) : Nat := countFrom .code sql.toList

end Placeholder
end FluentSql.Postgres

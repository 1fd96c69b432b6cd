import FluentSql.Json.Basic
import FluentSql.Binary.Printer
import FluentSql.Text.Hex

/-! The compact text of a JSON document. Quotes, backslashes and control characters are
escaped and nothing else. -/
namespace FluentSql.Json

def escapeChar (c : Char) : List Char :=
  match c with
  | '"' => ['\\','"']
  | '\\' => ['\\','\\']
  | '\x08' => ['\\','b']
  | '\x0c' => ['\\','f']
  | '\n' => ['\\','n']
  | '\r' => ['\\','r']
  | '\t' => ['\\','t']
  | c => if c.toNat < 0x20 then '\\' :: 'u' :: '0' :: '0' :: Hex.pair c.toNat else [c]

def quote (s : String) : String := String.ofList ('"' :: s.toList.flatMap escapeChar ++ ['"'])

def Number.render : Number → String
  | .natural n => toString n.toNat
  | .negative n => toString n.toInt
  | .real x => x.renderJson

mutual

def render : Json → String
  | .null => "null"
  | .bool b => if b then "true" else "false"
  | .number n => n.render
  | .string s => quote s
  | .array items => "[" ++ renderItems items ++ "]"
  | .object members => "\x7b" ++ renderMembers members ++ "\x7d"

def renderItems : List Json → String
  | [] => ""
  | [item] => item.render
  | item :: rest => item.render ++ "," ++ renderItems rest

def renderMembers : List (String × Json) → String
  | [] => ""
  | [member] => renderMember member
  | member :: rest => renderMember member ++ "," ++ renderMembers rest

def renderMember : String × Json → String
  | (name,value) => quote name ++ ":" ++ value.render

end

end FluentSql.Json

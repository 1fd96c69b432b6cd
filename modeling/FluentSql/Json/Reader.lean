import FluentSql.Json.NumberReader
import FluentSql.Text.Hex

/-! Reading JSON text. Documents nest up to 127 levels deep, and nothing but blanks may follow
the value. -/
namespace FluentSql.Json

def isSpace (c : Char) : Bool := c == ' ' || c == '\t' || c == '\n' || c == '\r'

def skipSpaces (cs : List Char) : List Char := cs.dropWhile isSpace

def readHex4 : List Char → Option (Nat × List Char)
  | a :: b :: c :: d :: rest => do
    let a ← Hex.value? a
    let b ← Hex.value? b
    let c ← Hex.value? c
    let d ← Hex.value? d
    return (((a * 16 + b) * 16 + c) * 16 + d,rest)
  | _ => none

/-- A code unit after a backslash and `u`. A high surrogate needs its low partner, and a low
one does not stand alone. -/
def readUnit (cs : List Char) : Option (Char × List Char) := do
  let (high,rest) ← readHex4 cs
  if 0xd800 ≤ high ∧ high < 0xdc00 then
    match rest with
    | '\\' :: 'u' :: rest =>
      let (low,rest) ← readHex4 rest
      if 0xdc00 ≤ low ∧ low < 0xe000 then
        return (Char.ofNat (0x10000 + (high - 0xd800) * 0x400 + (low - 0xdc00)),rest)
      else none
    | _ => none
  else if 0xdc00 ≤ high ∧ high < 0xe000 then none
  else return (Char.ofNat high,rest)

def readEscape : List Char → Option (Char × List Char)
  | '"' :: rest => some ('"',rest)
  | '\\' :: rest => some ('\\',rest)
  | '/' :: rest => some ('/',rest)
  | 'b' :: rest => some ('\x08',rest)
  | 'f' :: rest => some ('\x0c',rest)
  | 'n' :: rest => some ('\n',rest)
  | 'r' :: rest => some ('\r',rest)
  | 't' :: rest => some ('\t',rest)
  | 'u' :: rest => readUnit rest
  | _ => none

def readChars : Nat → List Char → List Char → Option (String × List Char)
  | 0, _, _ => none
  | _ + 1, _, [] => none
  | fuel + 1, acc, c :: rest =>
    if c = '"' then some (String.ofList acc.reverse,rest)
    else if c = '\\' then do
      let (d,rest) ← readEscape rest
      readChars fuel (d :: acc) rest
    else if c.toNat < 0x20 then none
    else readChars fuel (c :: acc) rest

def readString (cs : List Char) : Option (String × List Char) :=
  readChars (cs.length + 1) [] cs

def dropWord (word cs : List Char) : Option (List Char) :=
  if word.isPrefixOf cs then some (cs.drop word.length) else none

mutual

/-- A value; `depth` bounds how deep it may nest, and three steps for each character are fuel
enough. -/
def readValue (depth : Nat) : Nat → List Char → Option (Json × List Char)
  | 0, _ => none
  | fuel + 1, cs =>
    match skipSpaces cs, depth with
    | '"' :: rest, _ => (readString rest).map fun (s,rest) => (.string s,rest)
    | '[' :: rest, depth + 1 => do
      let (items,rest) ← readItems depth true fuel [] (skipSpaces rest)
      return (.array items,rest)
    | '\x7b' :: rest, depth + 1 => do
      let (assignments,rest) ← readMembers depth true fuel [] (skipSpaces rest)
      return (ofAssignments assignments,rest)
    | 'n' :: rest, _ => (dropWord ['u','l','l'] rest).map (.null,·)
    | 't' :: rest, _ => (dropWord ['r','u','e'] rest).map (.bool true,·)
    | 'f' :: rest, _ => (dropWord ['a','l','s','e'] rest).map (.bool false,·)
    | rest, _ => (Number.read rest).map fun (n,rest) => (.number n,rest)

/-- The items of an array up to its bracket; a comma stands before each but the first. -/
def readItems (depth : Nat) (first : Bool) :
    Nat → List Json → List Char → Option (List Json × List Char)
  | 0, _, _ => none
  | fuel + 1, acc, cs =>
    match cs, first with
    | ']' :: rest, _ => some (acc.reverse,rest)
    | ',' :: rest, false => do
      let (item,rest) ← readValue depth fuel rest
      readItems depth false fuel (item :: acc) (skipSpaces rest)
    | cs, true => do
      let (item,rest) ← readValue depth fuel cs
      readItems depth false fuel (item :: acc) (skipSpaces rest)
    | _, false => none

def readMembers (depth : Nat) (first : Bool) :
    Nat → List (String × Json) → List Char → Option (List (String × Json) × List Char)
  | 0, _, _ => none
  | fuel + 1, acc, cs =>
    match cs, first with
    | '\x7d' :: rest, _ => some (acc.reverse,rest)
    | ',' :: rest, false => do
      let (member,rest) ← readMember depth fuel (skipSpaces rest)
      readMembers depth false fuel (member :: acc) (skipSpaces rest)
    | cs, true => do
      let (member,rest) ← readMember depth fuel cs
      readMembers depth false fuel (member :: acc) (skipSpaces rest)
    | _, false => none

def readMember (depth : Nat) : Nat → List Char → Option ((String × Json) × List Char)
  | 0, _ => none
  | fuel + 1, cs =>
    match cs with
    | '"' :: rest => do
      let (name,rest) ← readString rest
      match skipSpaces rest with
      | ':' :: rest =>
        let (value,rest) ← readValue depth fuel rest
        return ((name,value),rest)
      | _ => none
    | _ => none

end

def read (text : List Char) : Option Json :=
  match readValue 127 (3 * text.length + 3) text with
  | some (document,rest) => if (skipSpaces rest).isEmpty then some document else none
  | none => none

end FluentSql.Json

import FluentSql.Json.Reader
import FluentSql.Proofs.Json.Document
import FluentSql.Proofs.Json.Literal

/-! What JSON text means. Each rule says what stands in front of a text and what is left behind it,
so that a text has one meaning at most. -/
namespace FluentSql.Json

def shortEscapes : List (Char × Char) :=
  [('"','"'),('\\','\\'),('/','/'),('b','\x08'),('f','\x0c'),('n','\n'),('r','\r'),('t','\t')]

def isHigh (unit : ℕ) : Prop := 0xd800 ≤ unit ∧ unit < 0xdc00

def isLow (unit : ℕ) : Prop := 0xdc00 ≤ unit ∧ unit < 0xe000

/-- The characters behind a backslash. Two code units of a surrogate pair are one character. -/
inductive Escape : List Char → Char → Prop
  | short {name c : Char} (listed : shortEscapes.lookup name = some c) : Escape [name] c
  | unit {digits : List Char} {n : ℕ} (length : digits.length = 4)
    (value : readHex4 digits = some (n,[])) (single : ¬ isHigh n ∧ ¬ isLow n) :
    Escape ('u' :: digits) (Char.ofNat n)
  | pair {digits digits' : List Char} {high low : ℕ} (length : digits.length = 4)
    (length' : digits'.length = 4) (value : readHex4 digits = some (high,[]))
    (value' : readHex4 digits' = some (low,[])) (surrogate : isHigh high) (partner : isLow low) :
    Escape ('u' :: (digits ++ '\\' :: 'u' :: digits'))
      (Char.ofNat (0x10000 + (high - 0xd800) * 0x400 + (low - 0xdc00)))

/-- The characters of a string, up to its closing quote. -/
inductive Quoted : List Char → List Char → List Char → Prop
  | close (rest : List Char) : Quoted [] ('"' :: rest) rest
  | plain {c : Char} {s cs rest : List Char} (quote : c ≠ '"') (backslash : c ≠ '\\')
    (printable : 0x20 ≤ c.toNat) (later : Quoted s cs rest) : Quoted (c :: s) (c :: cs) rest
  | escaped {c : Char} {e s cs rest : List Char} (escape : Escape e c) (later : Quoted s cs rest) :
    Quoted (c :: s) ('\\' :: (e ++ cs)) rest

/-- Where a text is read. Behind an opening bracket there may be a `first` entry, and behind an
entry the next. -/
inductive Place
  | value
  | items (first : Bool)
  | members (first : Bool)
  | member

def Place.Meaning : Place → Type
  | .value => Tree Literal
  | .items _ => List (Tree Literal)
  | .members _ => List (String × Tree Literal)
  | .member => String × Tree Literal

inductive Reads : (place : Place) → place.Meaning → List Char → List Char → Prop
  | null {cs rest} (text : skipSpaces cs = 'n' :: 'u' :: 'l' :: 'l' :: rest) :
    Reads .value Tree.null cs rest
  | true {cs rest} (text : skipSpaces cs = 't' :: 'r' :: 'u' :: 'e' :: rest) :
    Reads .value (Tree.bool true) cs rest
  | false {cs rest} (text : skipSpaces cs = 'f' :: 'a' :: 'l' :: 's' :: 'e' :: rest) :
    Reads .value (Tree.bool false) cs rest
  | number {cs rest} {lit : Literal} (text : skipSpaces cs = lit.chars ++ rest)
    (ends : lit.Ends rest) : Reads .value (Tree.number lit) cs rest
  | string {cs quoted rest} {s : String} (text : skipSpaces cs = '"' :: quoted)
    (chars : Quoted s.toList quoted rest) : Reads .value (Tree.string s) cs rest
  | array {cs behind rest items} (text : skipSpaces cs = '[' :: behind)
    (entries : Reads (.items true) items behind rest) : Reads .value (Tree.array items) cs rest
  | object {cs behind rest members} (text : skipSpaces cs = '\x7b' :: behind)
    (entries : Reads (.members true) members behind rest) :
    Reads .value (Tree.object members) cs rest
  | noItem {first cs rest} (text : skipSpaces cs = ']' :: rest) :
    Reads (.items first) ([] : List (Tree Literal)) cs rest
  | firstItem {cs mid rest} {t : Tree Literal} {items} (item : Reads .value t cs mid)
    (later : Reads (.items false) items mid rest) : Reads (.items true) (t :: items) cs rest
  | nextItem {cs behind mid rest} {t : Tree Literal} {items} (text : skipSpaces cs = ',' :: behind)
    (item : Reads .value t behind mid) (later : Reads (.items false) items mid rest) :
    Reads (.items false) (t :: items) cs rest
  | noMember {first cs rest} (text : skipSpaces cs = '\x7d' :: rest) :
    Reads (.members first) ([] : List (String × Tree Literal)) cs rest
  | firstMember {cs mid rest m members} (member : Reads .member m cs mid)
    (later : Reads (.members false) members mid rest) :
    Reads (.members true) (m :: members) cs rest
  | nextMember {cs behind mid rest m members} (text : skipSpaces cs = ',' :: behind)
    (member : Reads .member m behind mid) (later : Reads (.members false) members mid rest) :
    Reads (.members false) (m :: members) cs rest
  | member {cs quoted mid behind rest} {name : String} {t : Tree Literal}
    (text : skipSpaces cs = '"' :: quoted) (chars : Quoted name.toList quoted mid)
    (colon : skipSpaces mid = ':' :: behind) (value : Reads .value t behind rest) :
    Reads .member (name,t) cs rest

theorem Escape.unique {e e' x y : List Char} {c c' : Char} (one : Escape e c) (other : Escape e' c')
    (same : e ++ x = e' ++ y) : c = c' ∧ x = y := by
  cases one with
  | short listed =>
    cases other with
    | short listed' =>
      obtain ⟨rfl,rfl⟩ := List.cons.inj same
      exact ⟨Option.some.inj (listed.symm.trans listed'),rfl⟩
    | unit | pair =>
      obtain ⟨rfl,-⟩ := List.cons.inj same
      cases listed
  | @unit digits n length value single =>
    cases other with
    | short listed' =>
      obtain ⟨rfl,-⟩ := List.cons.inj same
      cases listed'
    | @unit digits' n' length' value' single' =>
      obtain ⟨rfl,rfl⟩ := List.append_inj (List.cons.inj same).2 (length.trans length'.symm)
      cases value.symm.trans value'
      exact ⟨rfl,rfl⟩
    | @pair digits' low high low' length' _ value' _ surrogate _ =>
      have tail := (List.cons.inj same).2
      rw [List.append_eq,List.append_eq,List.append_assoc] at tail
      obtain ⟨rfl,-⟩ := List.append_inj tail (length.trans length'.symm)
      cases value.symm.trans value'
      exact absurd surrogate single.1
  | @pair digits digits₂ high low length length₂ value value₂ surrogate partner =>
    cases other with
    | short listed' =>
      obtain ⟨rfl,-⟩ := List.cons.inj same
      cases listed'
    | @unit digits' n' length' value' single' =>
      have tail := (List.cons.inj same).2
      rw [List.append_eq,List.append_eq,List.append_assoc] at tail
      obtain ⟨rfl,-⟩ := List.append_inj tail (length.trans length'.symm)
      cases value.symm.trans value'
      exact absurd surrogate single'.1
    | @pair digits' digits₂' high' low' length' length₂' value' value₂' _ _ =>
      have tail := (List.cons.inj same).2
      rw [List.append_eq,List.append_eq,List.append_assoc,List.append_assoc] at tail
      obtain ⟨rfl,behind⟩ := List.append_inj tail (length.trans length'.symm)
      obtain ⟨rfl,rfl⟩ := List.append_inj (List.cons.inj (List.cons.inj behind).2).2
        (length₂.trans length₂'.symm)
      cases value.symm.trans value'
      cases value₂.symm.trans value₂'
      exact ⟨rfl,rfl⟩

theorem Quoted.unique {s s' cs rest rest' : List Char} (one : Quoted s cs rest)
    (other : Quoted s' cs rest') : s = s' ∧ rest = rest' := by
  induction one generalizing s' with
  | close rest =>
    cases other with
    | close => exact ⟨rfl,rfl⟩
    | plain quote => exact absurd rfl quote
  | plain quote backslash _ _ ih =>
    cases other with
    | close => exact absurd rfl quote
    | plain _ _ _ later =>
      obtain ⟨rfl,rfl⟩ := ih later
      exact ⟨rfl,rfl⟩
    | escaped => exact absurd rfl backslash
  | @escaped c e s cs rest escape _ ih =>
    generalize text : '\\' :: (e ++ cs) = whole at other
    cases other with
    | close => cases text
    | plain _ backslash =>
      obtain ⟨rfl,-⟩ := List.cons.inj text
      exact absurd rfl backslash
    | @escaped c' e' s'' cs' _ escape' later =>
      obtain ⟨rfl,rfl⟩ := escape.unique escape' (List.cons.inj text).2
      obtain ⟨rfl,rfl⟩ := ih later
      exact ⟨rfl,rfl⟩

theorem Literal.head_chars (lit : Literal) (rest : List Char) : ∃ c behind,
    lit.chars ++ rest = c :: behind ∧ (c = '-' ∨ c.isDigit = true) := by
  obtain ⟨negative,whole,fraction,power,leading⟩ := lit
  cases negative with
  | true => exact ⟨'-',_,rfl,.inl rfl⟩
  | false =>
    obtain ⟨c,behind,text,digit⟩ := exists_head_digits whole (endingChars fraction power ++ rest)
    refine ⟨c,behind,?_,.inr digit⟩
    rw [← text,← List.append_assoc]
    rfl

theorem Literal.chars_ne {lit : Literal} {c : Char} {rest behind : List Char} (sign : c ≠ '-')
    (digit : c.isDigit = false) : lit.chars ++ rest ≠ c :: behind := by
  intro same
  obtain ⟨d,tail,text,minus | numeral⟩ := lit.head_chars rest
  · exact sign ((List.cons.inj (same.symm.trans text)).1.trans minus)
  · rw [← (List.cons.inj (same.symm.trans text)).1,digit] at numeral
    cases numeral

/-- No value starts with a closing bracket. -/
theorem Reads.value_ne {t : Tree Literal} {cs rest behind : List Char} (value : Reads .value t cs rest) :
    skipSpaces cs ≠ ']' :: behind := by
  intro closed
  cases value with
  | number text => exact Literal.chars_ne (by decide) rfl (text.symm.trans closed)
  | null text | true text | false text | string text | array text | object text =>
    cases text.symm.trans closed

theorem Reads.member_ne {m : String × Tree Literal} {cs rest behind : List Char}
    (member : Reads .member m cs rest) : skipSpaces cs ≠ '\x7d' :: behind := by
  intro closed
  cases member with
  | member text => cases text.symm.trans closed

/-- The reading of a text is the only one. -/
theorem Reads.unique {place : Place} {x y : place.Meaning} {cs rest rest' : List Char}
    (one : Reads place x cs rest) (other : Reads place y cs rest') : x = y ∧ rest = rest' := by
  induction one generalizing rest' with
  | null text | true text | false text =>
    cases other with
    | number text' => exact absurd (text'.symm.trans text) (Literal.chars_ne (by decide) rfl)
    | null text' | true text' | false text' | string text' | array text' | object text' =>
      cases text.symm.trans text' <;> exact ⟨rfl,rfl⟩
  | number text ends =>
    cases other with
    | number text' ends' =>
      obtain ⟨rfl,rfl⟩ := Literal.chars_append_inj ends ends' (text.symm.trans text')
      exact ⟨rfl,rfl⟩
    | null text' | true text' | false text' | string text' | array text' | object text' =>
      exact absurd (text.symm.trans text') (Literal.chars_ne (by decide) rfl)
  | string text chars =>
    cases other with
    | string text' chars' =>
      cases text.symm.trans text'
      obtain ⟨same,rfl⟩ := chars.unique chars'
      rw [String.toList_inj.mp same]
      exact ⟨rfl,rfl⟩
    | number text' => exact absurd (text'.symm.trans text) (Literal.chars_ne (by decide) rfl)
    | null text' | true text' | false text' | array text' | object text' =>
      cases text.symm.trans text'
  | array text entries ih =>
    cases other with
    | array text' entries' =>
      cases text.symm.trans text'
      obtain ⟨rfl,rfl⟩ := ih entries'
      exact ⟨rfl,rfl⟩
    | number text' => exact absurd (text'.symm.trans text) (Literal.chars_ne (by decide) rfl)
    | null text' | true text' | false text' | string text' | object text' =>
      cases text.symm.trans text'
  | object text entries ih =>
    cases other with
    | object text' entries' =>
      cases text.symm.trans text'
      obtain ⟨rfl,rfl⟩ := ih entries'
      exact ⟨rfl,rfl⟩
    | number text' => exact absurd (text'.symm.trans text) (Literal.chars_ne (by decide) rfl)
    | null text' | true text' | false text' | string text' | array text' =>
      cases text.symm.trans text'
  | noItem text =>
    cases other with
    | noItem text' =>
      cases text.symm.trans text'
      exact ⟨rfl,rfl⟩
    | firstItem item' => exact absurd text item'.value_ne
    | nextItem text' => cases text.symm.trans text'
  | firstItem item later ih ihLater =>
    cases other with
    | noItem text' => exact absurd text' item.value_ne
    | firstItem item' later' =>
      obtain ⟨rfl,rfl⟩ := ih item'
      obtain ⟨rfl,rfl⟩ := ihLater later'
      exact ⟨rfl,rfl⟩
  | nextItem text item later ih ihLater =>
    cases other with
    | noItem text' => cases text.symm.trans text'
    | nextItem text' item' later' =>
      cases text.symm.trans text'
      obtain ⟨rfl,rfl⟩ := ih item'
      obtain ⟨rfl,rfl⟩ := ihLater later'
      exact ⟨rfl,rfl⟩
  | noMember text =>
    cases other with
    | noMember text' =>
      cases text.symm.trans text'
      exact ⟨rfl,rfl⟩
    | firstMember member' => exact absurd text member'.member_ne
    | nextMember text' => cases text.symm.trans text'
  | firstMember member later ih ihLater =>
    cases other with
    | noMember text' => exact absurd text' member.member_ne
    | firstMember member' later' =>
      obtain ⟨rfl,rfl⟩ := ih member'
      obtain ⟨rfl,rfl⟩ := ihLater later'
      exact ⟨rfl,rfl⟩
  | nextMember text member later ih ihLater =>
    cases other with
    | noMember text' => cases text.symm.trans text'
    | nextMember text' member' later' =>
      cases text.symm.trans text'
      obtain ⟨rfl,rfl⟩ := ih member'
      obtain ⟨rfl,rfl⟩ := ihLater later'
      exact ⟨rfl,rfl⟩
  | member text chars colon value ih =>
    cases other with
    | member text' chars' colon' value' =>
      cases text.symm.trans text'
      obtain ⟨same,rfl⟩ := chars.unique chars'
      cases colon.symm.trans colon'
      obtain ⟨rfl,rfl⟩ := ih value'
      rw [String.toList_inj.mp same]
      exact ⟨rfl,rfl⟩

/-- The tree of a text, behind which there are only blanks. -/
def IsText (t : Tree Literal) (cs : List Char) : Prop :=
  ∃ rest, Reads .value t cs rest ∧ skipSpaces rest = []

theorem IsText.unique {t t' : Tree Literal} {cs : List Char} (one : IsText t cs)
    (other : IsText t' cs) : t = t' := by
  obtain ⟨rest,reads,-⟩ := one
  obtain ⟨rest',reads',-⟩ := other
  exact (reads.unique reads').1

def Tree.document (t : Tree Literal) : Document := t.translate Literal.value id

/-- The document that a text denotes. Numbers count by their exact values. -/
def Denotes (cs : List Char) (d : Document) : Prop := ∃ t, IsText t cs ∧ t.document = d

theorem Denotes.unique {cs : List Char} {d d' : Document} (one : Denotes cs d)
    (other : Denotes cs d') : d = d' := by
  obtain ⟨t,text,rfl⟩ := one
  obtain ⟨t',text',rfl⟩ := other
  rw [text.unique text']

end FluentSql.Json

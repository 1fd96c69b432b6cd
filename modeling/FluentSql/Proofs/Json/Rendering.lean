import FluentSql.Proofs.Json.Grammar
import FluentSql.Proofs.Json.NumberRendering

/-! JSON documents as they are written out: the text of a document denotes it, but for doubles, for
which it denotes their shortest decimals. -/
namespace FluentSql.Json
open Text

theorem sizeOf_item_lt {items : List Json} {j : Json} (member : j ∈ items) :
    sizeOf j < sizeOf (Json.array items) := by
  rw [array.sizeOf_spec]
  exact Nat.lt_add_left 1 (List.sizeOf_lt_of_mem member)

theorem sizeOf_member_lt {members : List (String × Json)} {m : String × Json}
    (member : m ∈ members) : sizeOf m.2 < sizeOf (Json.object members) := by
  have inside := List.sizeOf_lt_of_mem member
  obtain ⟨name,j⟩ := m
  rw [Prod.mk.sizeOf_spec] at inside
  rw [object.sizeOf_spec]
  change sizeOf j < _
  omega

/-- The document that is written. -/
def document : Json → Document
  | .null => .null
  | .bool b => .bool b
  | .number n => .number n.written
  | .string s => .string s
  | .array items => .array (items.map fun j => j.document)
  | .object members => .object (members.map fun m => (m.1,m.2.document))
decreasing_by
  · exact sizeOf_item_lt ‹_›
  · exact sizeOf_member_lt ‹_›

@[elab_as_elim]
theorem induction {P : Json → Prop} (null : P .null) (bool : ∀ b, P (.bool b))
    (number : ∀ n, P (.number n)) (string : ∀ s, P (.string s))
    (array : ∀ items, (∀ j ∈ items, P j) → P (.array items))
    (object : ∀ members, (∀ m ∈ members, P m.2) → P (.object members)) (j : Json) : P j :=
  @Json.rec P (fun items => ∀ j ∈ items, P j) (fun members => ∀ m ∈ members, P m.2)
    (fun m => P m.2) null bool number string array object nofun
    (fun _ _ head tail => List.forall_mem_cons.mpr ⟨head,tail⟩) nofun
    (fun _ _ head tail => List.forall_mem_cons.mpr ⟨head,tail⟩) (fun _ _ value => value) j

/-- A character is written as it is, or behind a backslash. -/
theorem escapeChar_cases (c : Char) :
    escapeChar c = [c] ∧ c ≠ '"' ∧ c ≠ '\\' ∧ 0x20 ≤ c.toNat ∨
      ∃ e, escapeChar c = '\\' :: e ∧ Escape e c := by
  have coded : ∀ n < 32, readHex4 ('0' :: '0' :: Hex.pair n) = some (n,[]) := by decide
  rw [escapeChar.eq_def]
  split
  · exact .inr ⟨_,rfl,.short rfl⟩
  · exact .inr ⟨_,rfl,.short rfl⟩
  · exact .inr ⟨_,rfl,.short rfl⟩
  · exact .inr ⟨_,rfl,.short rfl⟩
  · exact .inr ⟨_,rfl,.short rfl⟩
  · exact .inr ⟨_,rfl,.short rfl⟩
  · exact .inr ⟨_,rfl,.short rfl⟩
  next quote backslash _ _ _ _ _ =>
    split
    next control =>
      have single : ¬ isHigh c.toNat ∧ ¬ isLow c.toNat := by
        rw [isHigh,isLow]
        omega
      have escape := Escape.unit rfl (coded c.toNat control) single
      rw [Char.ofNat_toNat] at escape
      exact .inr ⟨_,rfl,escape⟩
    next printable => exact .inl ⟨rfl,quote,backslash,Nat.not_lt.mp printable⟩

theorem quoted_flatMap_escapeChar (s rest : List Char) :
    Quoted s (s.flatMap escapeChar ++ '"' :: rest) rest := by
  induction s with
  | nil => exact .close rest
  | cons c s ih =>
    rw [List.flatMap_cons,List.append_assoc]
    rcases escapeChar_cases c with ⟨text,quote,backslash,printable⟩ | ⟨e,text,escape⟩
    · rw [text]
      exact .plain quote backslash printable ih
    · rw [text]
      exact .escaped escape ih

theorem toList_quote_append (s : String) (rest : List Char) :
    (quote s).toList ++ rest = '"' :: (s.toList.flatMap escapeChar ++ '"' :: rest) := by
  rw [quote,String.toList_ofList,List.append_assoc]
  rfl

/-- What follows a value inside a document. -/
def Delimits (rest : List Char) : Prop := ∀ c ∈ rest.head?, c = ',' ∨ c = ']' ∨ c = '\x7d'

theorem Delimits.ends {rest : List Char} (delimits : Delimits rest) (lit : Literal) :
    lit.Ends rest where
  stops c first := by rcases delimits c first with rfl | rfl | rfl <;> rfl
  noPower _ c first := by rcases delimits c first with rfl | rfl | rfl <;> decide
  noPoint _ _ c first := by rcases delimits c first with rfl | rfl | rfl <;> decide

theorem delimits_cons {c : Char} (delimiter : c = ',' ∨ c = ']' ∨ c = '\x7d') (rest : List Char) :
    Delimits (c :: rest) := by
  rintro d ⟨⟩
  exact delimiter

/-- The text of a value is read as the value, whatever follows. -/
def Written (j : Json) : Prop := ∃ t : Tree Literal, t.document = j.document ∧
  ∀ rest, Delimits rest → Reads .value t (j.render.toList ++ rest) rest

theorem isSpace_of_isDigit {c : Char} (digit : c.isDigit = true) : isSpace c = false := by
  have other {d : Char} (plain : d.isDigit = false) : (c == d) = false :=
    beq_eq_false_iff_ne.mpr (ne_of_isDigit digit plain)
  simp only [isSpace,other (d := ' ') rfl,other (d := '\t') rfl,other (d := '\n') rfl,
    other (d := '\r') rfl,Bool.or_false]

theorem Literal.skipSpaces_append (lit : Literal) (rest : List Char) :
    skipSpaces (lit.chars ++ rest) = lit.chars ++ rest := by
  obtain ⟨c,behind,same,minus | digit⟩ := lit.head_chars rest
  · rw [same,minus]
    rfl
  · rw [same,skipSpaces,List.dropWhile_cons_of_neg (by rw [isSpace_of_isDigit digit]; decide)]

theorem written_number (n : Number) : Written (.number n) := by
  obtain ⟨lit,text,value⟩ := n.isNumber_render
  refine ⟨.number lit,?_,fun rest delimits => ?_⟩
  · rw [Tree.document,Tree.translate,document,value]
  · rw [render,← text]
    exact .number (lit.skipSpaces_append rest) (delimits.ends lit)

theorem written_string (s : String) : Written (.string s) := by
  refine ⟨.string s,by simp only [Tree.document,Tree.translate,document],fun rest _ => ?_⟩
  rw [render,toList_quote_append]
  exact .string rfl (quoted_flatMap_escapeChar s.toList rest)

section Array

variable {items : List Json}

/-- The items behind the first, each with its comma. -/
def laterItems (items : List Json) : List Char := items.flatMap fun j => ',' :: j.render.toList

theorem toList_renderItems (j : Json) (items : List Json) :
    (renderItems (j :: items)).toList = j.render.toList ++ laterItems items := by
  induction items generalizing j with
  | nil => rw [renderItems,laterItems,List.flatMap_nil,List.append_nil]
  | cons k items ih =>
    rw [renderItems,String.toList_append,String.toList_append,ih,List.append_assoc]
    · rfl
    · exact nofun

theorem delimits_laterItems (items : List Json) (rest : List Char) :
    Delimits (laterItems items ++ ']' :: rest) := by
  cases items with
  | nil => exact delimits_cons (.inr (.inl rfl)) rest
  | cons j items => exact delimits_cons (.inl rfl) _

theorem reads_laterItems (written : ∀ j ∈ items, Written j) : ∃ ts : List (Tree Literal),
    ts.map Tree.document = items.map document ∧
    ∀ rest, Reads (.items false) ts (laterItems items ++ ']' :: rest) rest := by
  induction items with
  | nil => exact ⟨[],rfl,fun rest => .noItem rfl⟩
  | cons j items ih =>
    obtain ⟨⟨t,same,reads⟩,others⟩ := List.forall_mem_cons.mp written
    obtain ⟨ts,sames,later⟩ := ih others
    refine ⟨t :: ts,by rw [List.map_cons,List.map_cons,same,sames],fun rest => ?_⟩
    have text : laterItems (j :: items) ++ ']' :: rest =
        ',' :: (j.render.toList ++ (laterItems items ++ ']' :: rest)) := by
      rw [laterItems,List.flatMap_cons,List.append_assoc]
      rfl
    rw [text]
    exact .nextItem rfl (reads _ (delimits_laterItems items rest)) (later rest)

theorem written_array (written : ∀ j ∈ items, Written j) : Written (.array items) := by
  have text (rest : List Char) : (Json.array items).render.toList ++ rest =
      '[' :: ((renderItems items).toList ++ ']' :: rest) := by
    rw [render,String.toList_append,String.toList_append,List.append_assoc,List.append_assoc]
    rfl
  cases items with
  | nil =>
    refine ⟨.array [],by simp only [Tree.document,Tree.translate,document,List.map_nil],
      fun rest _ => ?_⟩
    rw [text]
    exact .array rfl (.noItem rfl)
  | cons j items =>
    obtain ⟨⟨t,same,reads⟩,others⟩ := List.forall_mem_cons.mp written
    obtain ⟨ts,sames,later⟩ := reads_laterItems others
    refine ⟨.array (t :: ts),?_,fun rest _ => ?_⟩
    · rw [Tree.document,Tree.translate,document]
      exact congrArg Tree.array (congrArg₂ List.cons same sames)
    · rw [text,toList_renderItems,List.append_assoc]
      exact .array rfl (.firstItem (reads _ (delimits_laterItems items rest)) (later rest))

end Array

section Object

variable {members : List (String × Json)}

theorem toList_renderMember (m : String × Json) (rest : List Char) :
    (renderMember m).toList ++ rest = '"' :: (m.1.toList.flatMap escapeChar ++
      '"' :: ':' :: (m.2.render.toList ++ rest)) := by
  obtain ⟨name,j⟩ := m
  rw [renderMember,String.toList_append,String.toList_append,List.append_assoc,List.append_assoc,
    toList_quote_append]
  rfl

theorem reads_member {m : String × Json} {t : Tree Literal} {rest : List Char}
    (value : Reads .value t (m.2.render.toList ++ rest) rest) :
    Reads .member (m.1,t) ((renderMember m).toList ++ rest) rest := by
  rw [toList_renderMember]
  exact .member rfl (quoted_flatMap_escapeChar m.1.toList _) rfl value

def laterMembers (members : List (String × Json)) : List Char :=
  members.flatMap fun m => ',' :: (renderMember m).toList

theorem toList_renderMembers (m : String × Json) (members : List (String × Json)) :
    (renderMembers (m :: members)).toList = (renderMember m).toList ++ laterMembers members := by
  induction members generalizing m with
  | nil => rw [renderMembers,laterMembers,List.flatMap_nil,List.append_nil]
  | cons n members ih =>
    rw [renderMembers,String.toList_append,String.toList_append,ih,List.append_assoc]
    · rfl
    · exact nofun

theorem delimits_laterMembers (members : List (String × Json)) (rest : List Char) :
    Delimits (laterMembers members ++ '\x7d' :: rest) := by
  cases members with
  | nil => exact delimits_cons (.inr (.inr rfl)) rest
  | cons m members => exact delimits_cons (.inl rfl) _

theorem reads_laterMembers (written : ∀ m ∈ members, Written m.2) :
    ∃ ts : List (String × Tree Literal),
      (ts.map fun m => (m.1,m.2.document)) = (members.map fun m => (m.1,m.2.document)) ∧
      ∀ rest, Reads (.members false) ts (laterMembers members ++ '\x7d' :: rest) rest := by
  induction members with
  | nil => exact ⟨[],rfl,fun rest => .noMember rfl⟩
  | cons m members ih =>
    obtain ⟨⟨t,same,reads⟩,others⟩ := List.forall_mem_cons.mp written
    obtain ⟨ts,sames,later⟩ := ih others
    refine ⟨(m.1,t) :: ts,by rw [List.map_cons,List.map_cons,same,sames],fun rest => ?_⟩
    have text : laterMembers (m :: members) ++ '\x7d' :: rest =
        ',' :: ((renderMember m).toList ++ (laterMembers members ++ '\x7d' :: rest)) := by
      rw [laterMembers,List.flatMap_cons,List.append_assoc]
      rfl
    rw [text]
    exact .nextMember rfl (reads_member (reads _ (delimits_laterMembers members rest))) (later rest)

theorem written_object (written : ∀ m ∈ members, Written m.2) : Written (.object members) := by
  have text (rest : List Char) : (Json.object members).render.toList ++ rest =
      '\x7b' :: ((renderMembers members).toList ++ '\x7d' :: rest) := by
    rw [render,String.toList_append,String.toList_append,List.append_assoc,List.append_assoc]
    rfl
  cases members with
  | nil =>
    refine ⟨.object [],by simp only [Tree.document,Tree.translate,document,List.map_nil,id],
      fun rest _ => ?_⟩
    rw [text]
    exact .object rfl (.noMember rfl)
  | cons m members =>
    obtain ⟨⟨t,same,reads⟩,others⟩ := List.forall_mem_cons.mp written
    obtain ⟨ts,sames,later⟩ := reads_laterMembers others
    refine ⟨.object ((m.1,t) :: ts),?_,fun rest _ => ?_⟩
    · rw [Tree.document,Tree.translate,document]
      exact congrArg Tree.object (congrArg₂ List.cons (congrArg (Prod.mk m.1) same) sames)
    · rw [text,toList_renderMembers,List.append_assoc]
      exact .object rfl (.firstMember (reads_member (reads _ (delimits_laterMembers members rest)))
        (later rest))

end Object

theorem written (j : Json) : Written j := by
  induction j using Json.induction with
  | null =>
    exact ⟨.null,by simp only [Tree.document,Tree.translate,document],fun rest _ => .null rfl⟩
  | bool b =>
    refine ⟨.bool b,by simp only [Tree.document,Tree.translate,document],fun rest _ => ?_⟩
    cases b with
    | true => exact .true rfl
    | false => exact .false rfl
  | number n => exact written_number n
  | string s => exact written_string s
  | array items ih => exact written_array ih
  | object members ih => exact written_object ih

theorem denotes_render (j : Json) : Denotes j.render.toList j.document := by
  obtain ⟨t,same,reads⟩ := written j
  have alone := reads [] nofun
  rw [List.append_nil] at alone
  exact ⟨t,⟨[],alone,rfl⟩,same⟩

end FluentSql.Json

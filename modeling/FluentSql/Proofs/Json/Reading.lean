import FluentSql.Proofs.Json.NumberReading
import FluentSql.Proofs.Json.Rendering
import Mathlib.Data.List.DropRight

/-! What the reader of JSON takes from a text is what the text means, but for its numbers, of which it
holds what it can, and for names that an object mentions again. -/
namespace FluentSql.Json

/-- The number that is written for one that was read. -/
def Literal.written? (lit : Literal) : Option ℚ := lit.held?.map Number.written

/-- The document that is written for one that was read, with none of the numbers that are not. -/
def Tree.written (t : Tree Literal) : Tree (Option ℚ) := t.translate Literal.written? putAll

/-- A document all of whose numbers are there. -/
def Tree.whole (d : Document) : Tree (Option ℚ) := d.translate some id

theorem exists_hex {cs rest : List Char} {n : ℕ} (read : readHex4 cs = some (n,rest)) :
    ∃ digits, digits.length = 4 ∧ cs = digits ++ rest ∧ readHex4 digits = some (n,[]) := by
  rw [readHex4.eq_def] at read
  split at read
  next a b c d behind =>
    simp only [bind,Option.bind_eq_some_iff] at read
    obtain ⟨ha,va,hb,vb,hc,vc,hd,vd,same⟩ := read
    cases same
    refine ⟨[a,b,c,d],rfl,rfl,?_⟩
    simp only [readHex4,va,vb,vc,vd]
    rfl
  next => cases read

theorem exists_unit {cs rest : List Char} {c : Char} (read : readUnit cs = some (c,rest)) :
    ∃ e, 'u' :: cs = e ++ rest ∧ Escape e c := by
  simp only [readUnit,bind,Option.bind_eq_some_iff] at read
  obtain ⟨⟨high,behind⟩,first,read⟩ := read
  obtain ⟨digits,length,rfl,value⟩ := exists_hex first
  simp only at read
  split at read
  next surrogate =>
    split at read
    next later =>
      simp only [Option.bind_eq_some_iff] at read
      obtain ⟨⟨low,last⟩,second,read⟩ := read
      obtain ⟨digits',length',rfl,value'⟩ := exists_hex second
      simp only at read
      split at read
      next partner =>
        obtain ⟨rfl,rfl⟩ := Prod.mk.inj (Option.some.inj read)
        refine ⟨_,?_,.pair length length' value value' surrogate partner⟩
        rw [List.cons_append,List.append_assoc]
        rfl
      next => cases read
    next => cases read
  next single =>
    split at read
    next => cases read
    next other =>
      cases read
      exact ⟨'u' :: digits,rfl,.unit length value ⟨single,other⟩⟩

theorem exists_escape {cs rest : List Char} {c : Char} (read : readEscape cs = some (c,rest)) :
    ∃ e, cs = e ++ rest ∧ Escape e c := by
  rw [readEscape.eq_def] at read
  split at read
  case h_9 => exact exists_unit read
  case h_10 => cases read
  all_goals
    cases read
    exact ⟨[_],rfl,.short rfl⟩

theorem exists_quoted {fuel : ℕ} {acc cs rest : List Char} {s : String}
    (read : readChars fuel acc cs = some (s,rest)) :
    ∃ body, s.toList = acc.reverse ++ body ∧ Quoted body cs rest := by
  induction fuel generalizing acc cs with
  | zero => cases read
  | succ fuel ih =>
    cases cs with
    | nil => cases read
    | cons c behind =>
      rw [readChars] at read
      split at read
      next quote =>
        cases read
        refine ⟨[],?_,quote ▸ .close rest⟩
        rw [String.toList_ofList,List.append_nil]
      next notQuote =>
        split at read
        next backslash =>
          obtain ⟨⟨d,later⟩,escaped,remaining⟩ := Option.bind_eq_some_iff.mp read
          obtain ⟨e,rfl,escape⟩ := exists_escape escaped
          obtain ⟨body,same,quoted⟩ := ih remaining
          refine ⟨d :: body,?_,backslash ▸ .escaped escape quoted⟩
          rw [same,List.reverse_cons,List.append_assoc]
          rfl
        next notBackslash =>
          split at read
          next => cases read
          next printable =>
            obtain ⟨body,same,quoted⟩ := ih read
            refine ⟨c :: body,?_,.plain notQuote notBackslash (Nat.not_lt.mp printable) quoted⟩
            rw [same,List.reverse_cons,List.append_assoc]
            rfl

theorem quoted_of_readString {cs rest : List Char} {s : String}
    (read : readString cs = some (s,rest)) : Quoted s.toList cs rest := by
  obtain ⟨body,same,quoted⟩ := exists_quoted read
  rw [same]
  exact quoted

theorem skipSpaces_skipSpaces (cs : List Char) : skipSpaces (skipSpaces cs) = skipSpaces cs :=
  List.dropWhile_idempotent _ _

theorem Reads.of_skipSpaces {place : Place} {x : place.Meaning} {cs rest : List Char}
    (reads : Reads place x (skipSpaces cs) rest) : Reads place x cs rest := by
  generalize skipped : skipSpaces cs = ds at reads
  have same : skipSpaces ds = skipSpaces cs := by rw [← skipped,skipSpaces_skipSpaces]
  induction reads generalizing cs with
  | null text => exact .null (same ▸ text)
  | true text => exact .true (same ▸ text)
  | false text => exact .false (same ▸ text)
  | number text ends => exact .number (same ▸ text) ends
  | string text chars => exact .string (same ▸ text) chars
  | array text entries => exact .array (same ▸ text) entries
  | object text entries => exact .object (same ▸ text) entries
  | noItem text => exact .noItem (same ▸ text)
  | firstItem item later ih => exact .firstItem (ih skipped same) later
  | nextItem text item later => exact .nextItem (same ▸ text) item later
  | noMember text => exact .noMember (same ▸ text)
  | firstMember member later ih => exact .firstMember (ih skipped same) later
  | nextMember text member later => exact .nextMember (same ▸ text) member later
  | member text chars colon value => exact .member (same ▸ text) chars colon value

theorem eq_of_dropWord {word cs rest : List Char} (dropped : dropWord word cs = some rest) :
    cs = word ++ rest := by
  rw [dropWord] at dropped
  split at dropped
  next front =>
    cases dropped
    obtain ⟨behind,rfl⟩ := List.isPrefixOf_iff_prefix.mp front
    rw [List.drop_left]
  next => cases dropped

/-- What the readers take with some fuel. -/
structure ReadsWith (fuel : ℕ) : Prop where
  value : ∀ {depth cs j rest}, readValue depth fuel cs = some (j,rest) →
    ∃ t : Tree Literal, Reads .value t cs rest ∧ j.document.whole = t.written
  items : ∀ {depth first acc cs js rest}, readItems depth first fuel acc cs = some (js,rest) →
    ∃ (new : List Json) (ts : List (Tree Literal)), js = acc.reverse ++ new ∧
      Reads (.items first) ts cs rest ∧ (new.map fun j => j.document.whole) = ts.map Tree.written
  members : ∀ {depth first acc cs ms rest}, readMembers depth first fuel acc cs = some (ms,rest) →
    ∃ (new : List (String × Json)) (ts : List (String × Tree Literal)), ms = acc.reverse ++ new ∧
      Reads (.members first) ts cs rest ∧
      (new.map fun m => (m.1,m.2.document.whole)) = ts.map fun m => (m.1,m.2.written)
  member : ∀ {depth cs m rest}, readMember depth fuel cs = some (m,rest) →
    ∃ t : Tree Literal, Reads .member (m.1,t) cs rest ∧ m.2.document.whole = t.written

variable {fuel depth : ℕ} {cs rest : List Char}

namespace ReadsWith

theorem readValue (below : ReadsWith fuel) {j : Json}
    (read : Json.readValue depth (fuel + 1) cs = some (j,rest)) :
    ∃ t : Tree Literal, Reads .value t cs rest ∧ j.document.whole = t.written := by
  rw [Json.readValue.eq_def] at read
  simp only at read
  split at read
  next quoted text =>
    obtain ⟨⟨s,behind⟩,string,same⟩ := Option.map_eq_some_iff.mp read
    cases same
    exact ⟨.string s,.string text (quoted_of_readString string),
      by simp only [document,Tree.whole,Tree.written,Tree.translate]⟩
  next behind inner text =>
    obtain ⟨⟨items,left⟩,list,same⟩ := Option.bind_eq_some_iff.mp read
    cases same
    obtain ⟨_,ts,rfl,reads,alike⟩ := below.items list
    refine ⟨.array ts,.array text reads.of_skipSpaces,?_⟩
    rw [document,Tree.whole,Tree.written,Tree.translate,Tree.translate,List.map_map]
    exact congrArg Tree.array alike
  next behind inner text =>
    obtain ⟨⟨assignments,left⟩,list,same⟩ := Option.bind_eq_some_iff.mp read
    cases same
    obtain ⟨_,ts,rfl,reads,alike⟩ := below.members list
    refine ⟨.object ts,.object text reads.of_skipSpaces,?_⟩
    have written := (putAll_map (fun j : Json => j.document.whole) _).trans (congrArg putAll alike)
    rw [ofAssignments,members_eq_putAll,document,Tree.whole,Tree.written,Tree.translate,
      Tree.translate,id,List.map_map]
    exact congrArg Tree.object written
  next behind text =>
    obtain ⟨left,word,same⟩ := Option.map_eq_some_iff.mp read
    cases same
    obtain rfl := eq_of_dropWord word
    exact ⟨.null,.null text,by simp only [document,Tree.whole,Tree.written,Tree.translate]⟩
  next behind text =>
    obtain ⟨left,word,same⟩ := Option.map_eq_some_iff.mp read
    cases same
    obtain rfl := eq_of_dropWord word
    exact ⟨.bool true,.true text,by simp only [document,Tree.whole,Tree.written,Tree.translate]⟩
  next behind text =>
    obtain ⟨left,word,same⟩ := Option.map_eq_some_iff.mp read
    cases same
    obtain rfl := eq_of_dropWord word
    exact ⟨.bool false,.false text,by simp only [document,Tree.whole,Tree.written,Tree.translate]⟩
  next =>
    obtain ⟨⟨n,left⟩,number,same⟩ := Option.map_eq_some_iff.mp read
    cases same
    obtain ⟨lit,text,ends,held⟩ := Number.exists_literal number
    refine ⟨.number lit,.number text ends,?_⟩
    rw [document,Tree.whole,Tree.written,Tree.translate,Tree.translate,Literal.written?,held]
    rfl

/-- An item and those behind it. -/
theorem item (below : ReadsWith fuel) {acc js : List Json}
    (read : ((Json.readValue depth fuel cs).bind fun (j,mid) =>
      Json.readItems depth false fuel (j :: acc) (skipSpaces mid)) = some (js,rest)) :
    ∃ (mid : List Char) (t : Tree Literal) (new : List Json) (ts : List (Tree Literal)),
      Reads .value t cs mid ∧ Reads (.items false) ts mid rest ∧ js = acc.reverse ++ new ∧
      (new.map fun j => j.document.whole) = (t :: ts).map Tree.written := by
  obtain ⟨⟨j,mid⟩,one,others⟩ := Option.bind_eq_some_iff.mp read
  obtain ⟨t,item,same⟩ := below.value one
  obtain ⟨new,ts,rfl,later,alike⟩ := below.items others
  refine ⟨mid,t,j :: new,ts,item,later.of_skipSpaces,?_,?_⟩
  · rw [List.reverse_cons,List.append_assoc]
    rfl
  · rw [List.map_cons,List.map_cons,same,alike]

theorem readItems (below : ReadsWith fuel) {first : Bool} {acc js : List Json}
    (read : Json.readItems depth first (fuel + 1) acc cs = some (js,rest)) :
    ∃ (new : List Json) (ts : List (Tree Literal)), js = acc.reverse ++ new ∧
      Reads (.items first) ts cs rest ∧
      (new.map fun j => j.document.whole) = ts.map Tree.written := by
  rw [Json.readItems.eq_def] at read
  simp only at read
  split at read
  next =>
    cases read
    exact ⟨[],[],(List.append_nil _).symm,.noItem rfl,rfl⟩
  next =>
    obtain ⟨mid,t,new,ts,item,later,same,alike⟩ := below.item read
    exact ⟨new,t :: ts,same,.nextItem rfl item later,alike⟩
  next =>
    obtain ⟨mid,t,new,ts,item,later,same,alike⟩ := below.item read
    exact ⟨new,t :: ts,same,.firstItem item later,alike⟩
  next => cases read

/-- A member and those behind it. -/
theorem entry (below : ReadsWith fuel) {acc ms : List (String × Json)}
    (read : ((Json.readMember depth fuel cs).bind fun (m,mid) =>
      Json.readMembers depth false fuel (m :: acc) (skipSpaces mid)) = some (ms,rest)) :
    ∃ (mid : List Char) (m : String × Tree Literal) (new : List (String × Json))
      (ts : List (String × Tree Literal)), Reads .member m cs mid ∧
      Reads (.members false) ts mid rest ∧ ms = acc.reverse ++ new ∧
      (new.map fun m => (m.1,m.2.document.whole)) = (m :: ts).map fun m => (m.1,m.2.written) := by
  obtain ⟨⟨m,mid⟩,one,others⟩ := Option.bind_eq_some_iff.mp read
  obtain ⟨t,member,same⟩ := below.member one
  obtain ⟨new,ts,rfl,later,alike⟩ := below.members others
  refine ⟨mid,(m.1,t),m :: new,ts,member,later.of_skipSpaces,?_,?_⟩
  · rw [List.reverse_cons,List.append_assoc]
    rfl
  · rw [List.map_cons,List.map_cons,same,alike]

theorem readMembers (below : ReadsWith fuel) {first : Bool} {acc ms : List (String × Json)}
    (read : Json.readMembers depth first (fuel + 1) acc cs = some (ms,rest)) :
    ∃ (new : List (String × Json)) (ts : List (String × Tree Literal)), ms = acc.reverse ++ new ∧
      Reads (.members first) ts cs rest ∧
      (new.map fun m => (m.1,m.2.document.whole)) = ts.map fun m => (m.1,m.2.written) := by
  rw [Json.readMembers.eq_def] at read
  simp only at read
  split at read
  next =>
    cases read
    exact ⟨[],[],(List.append_nil _).symm,.noMember rfl,rfl⟩
  next =>
    obtain ⟨mid,m,new,ts,member,later,same,alike⟩ := below.entry read
    exact ⟨new,m :: ts,same,.nextMember rfl member.of_skipSpaces later,alike⟩
  next =>
    obtain ⟨mid,m,new,ts,member,later,same,alike⟩ := below.entry read
    exact ⟨new,m :: ts,same,.firstMember member later,alike⟩
  next => cases read

theorem readMember (below : ReadsWith fuel) {m : String × Json}
    (read : Json.readMember depth (fuel + 1) cs = some (m,rest)) :
    ∃ t : Tree Literal, Reads .member (m.1,t) cs rest ∧ m.2.document.whole = t.written := by
  rw [Json.readMember.eq_def] at read
  simp only at read
  split at read
  next quoted =>
    obtain ⟨⟨name,mid⟩,string,remaining⟩ := Option.bind_eq_some_iff.mp read
    simp only at remaining
    split at remaining
    next behind colon =>
      obtain ⟨⟨j,left⟩,value,same⟩ := Option.bind_eq_some_iff.mp remaining
      cases same
      obtain ⟨t,reads,alike⟩ := below.value value
      exact ⟨t,.member rfl (quoted_of_readString string) colon reads,alike⟩
    next => cases remaining
  next => cases read

end ReadsWith

theorem readsWith (fuel : ℕ) : ReadsWith fuel := by
  induction fuel with
  | zero =>
    refine ⟨fun read => ?_,fun read => ?_,fun read => ?_,fun read => ?_⟩
    · rw [readValue.eq_def] at read
      cases read
    · rw [readItems.eq_def] at read
      cases read
    · rw [readMembers.eq_def] at read
      cases read
    · rw [readMember.eq_def] at read
      cases read
  | succ fuel below => exact ⟨below.readValue,below.readItems,below.readMembers,below.readMember⟩

/-- A text that is read has a meaning. What is held of it is written out as this meaning with the
numbers that are held, and with the last of the members of one name. -/
theorem exists_isText {j : Json} (read : Json.read cs = some j) :
    ∃ t : Tree Literal, IsText t cs ∧ j.document.whole = t.written := by
  rw [Json.read] at read
  split at read
  next document rest value =>
    split at read
    next blank =>
      cases read
      obtain ⟨t,reads,same⟩ := (readsWith _).value value
      exact ⟨t,⟨rest,reads,List.isEmpty_iff.mp blank⟩,same⟩
    next => cases read
  next => cases read

end FluentSql.Json

import FluentSql.Proofs.Postgres.Alignment

/-! How the server itself reads a statement, beside how the placeholders are numbered. Left out
are a literal with escapes that goes on in another pair of quotes on a later line, where the
escapes stay on, and literals in dollar quotes: here the first is two literals, of which the
second has no escapes, and the second is code. Apart from these the two readings part in three
places: at the end of a comment inside a comment, at an escaped quote in a literal with escapes,
and at a carriage return in a line comment. Up to the first such place exactly those question
marks are numbered that are found outside literals, identifiers and comments. -/
namespace FluentSql.Postgres

/-- What a block comment has just read of an opening or closing mark. -/
inductive CommentMark
  | none
  | slash
  | star
  /-- A whole opening mark, whose asterisk does not count for a closing one. -/
  | opened
  deriving DecidableEq

inductive Region
  | code
  /-- In a keyword, a name or a number. -/
  | word
  /-- Behind a word that is the letter E alone; a literal that follows at once has escapes. -/
  | escapeMark
  | dash
  | slash
  | literal (escapes : Bool)
  /-- Behind a backslash in a literal with escapes. -/
  | escaped
  /-- Behind the closing quote of a literal with escapes, which a further quote takes back. -/
  | reopening
  | identifier
  | lineComment
  /-- In a block comment inside `depth` other ones. -/
  | comment (depth : Nat) (mark : CommentMark)
  deriving DecidableEq

namespace Region

def isWordStart (c : Char) : Bool := c.isAlphanum || c == '_' || 128 ≤ c.toNat

def isWordPart (c : Char) : Bool := isWordStart c || c == '$'

/-- The region behind a character with which something new begins. -/
def start (c : Char) : Region :=
  if c = '\'' then .literal false
  else if c = '"' then .identifier
  else if c = '-' then .dash
  else if c = '/' then .slash
  else if c = 'e' ∨ c = 'E' then .escapeMark
  else if isWordStart c then .word
  else .code

def nextInComment (depth : Nat) (mark : CommentMark) (c : Char) : Region :=
  if c = '*' then
    if mark = .slash then .comment (depth + 1) .opened else .comment depth .star
  else if c = '/' then
    if mark = .star then
      match depth with
      | 0 => .code
      | depth + 1 => .comment depth .none
    else .comment depth .slash
  else .comment depth .none

def next : Region → Char → Region
  | .code, c => start c
  | .word, c => if isWordPart c then .word else start c
  | .escapeMark, c =>
    if c = '\'' then .literal true else if isWordPart c then .word else start c
  | .dash, c => if c = '-' then .lineComment else start c
  | .slash, c => if c = '*' then .comment 0 .none else start c
  | .literal false, c => if c = '\'' then .code else .literal false
  | .literal true, c =>
    if c = '\'' then .reopening else if c = '\\' then .escaped else .literal true
  | .escaped, _ => .literal true
  | .reopening, c => if c = '\'' then .literal true else start c
  | .identifier, c => if c = '"' then .code else .identifier
  | .lineComment, c => if c = '\n' ∨ c = '\r' then .code else .lineComment
  | .comment depth mark, c => nextInComment depth mark c

def after (r : Region) (text : List Char) : Region := text.foldl next r

def isOutside : Region → Bool
  | .code | .word | .escapeMark | .dash | .slash | .reopening => true
  | _ => false

/-- The mode of the numbering that goes with a region. -/
def mode : Region → Mode
  | .code | .word | .escapeMark | .reopening => .code
  | .dash => .dash
  | .slash => .slash
  | .literal _ | .escaped => .quoted '\''
  | .identifier => .quoted '"'
  | .lineComment => .lineComment
  | .comment _ .star | .comment _ .opened => .asterisk
  | .comment _ _ => .blockComment

/-- The character takes the numbering elsewhere than the server. -/
def misreads : Region → Char → Bool
  | .escaped, c => c == '\''
  | .lineComment, c => c == '\r'
  | .comment depth .star, c => c == '/' && depth != 0
  | .comment _ .opened, c => c == '/'
  | _, _ => false

def agrees (r : Region) : List Char → Bool
  | [] => true
  | c :: rest => !r.misreads c && agrees (r.next c) rest

theorem isCode_mode (r : Region) : r.mode.isCode = r.isOutside := by
  cases r with
  | comment depth mark => cases mark <;> rfl
  | _ => rfl

theorem mode_start (c : Char) : (start c).mode = Mode.ofCode c := by
  simp only [start,Mode.ofCode]
  split
  · simp_all [mode]
  · split
    · simp_all [mode]
    · simp_all only [or_self,if_false]
      repeat' split
      all_goals rfl

private theorem mode_nextInComment {depth : Nat} {mark : CommentMark} {c : Char}
    (agree : (comment depth mark).misreads c = false) :
    (nextInComment depth mark c).mode = (comment depth mark).mode.next c := by
  by_cases star : c = '*'
  · subst star
    cases mark <;> rfl
  · by_cases slash : c = '/'
    · subst slash
      cases mark with
      | none | slash => rfl
      | opened => cases agree
      | star =>
        cases depth with
        | zero => rfl
        | succ depth => cases agree
    · cases mark <;> simp [nextInComment,mode,Mode.next,star,slash]

private theorem ofCode_wordPart {c : Char} (part : isWordPart c = true) :
    Mode.ofCode c = .code := by
  have apart {d : Char} (mark : isWordPart d = false) : c ≠ d := by
    rintro rfl
    rw [mark] at part
    cases part
  have quote : c ≠ '\'' := apart rfl
  have doubled : c ≠ '"' := apart rfl
  have dash : c ≠ '-' := apart rfl
  have slash : c ≠ '/' := apart rfl
  simp [Mode.ofCode,quote,doubled,dash,slash]

private theorem mode_wordPart (c : Char) :
    (if isWordPart c then Region.word else start c).mode = Mode.ofCode c := by
  split
  · rename_i part
    exact (ofCode_wordPart part).symm
  · exact mode_start c

theorem mode_next {r : Region} {c : Char} (agree : r.misreads c = false) :
    (r.next c).mode = r.mode.next c := by
  cases r with
  | code => exact mode_start c
  | word => exact mode_wordPart c
  | escapeMark | reopening =>
    by_cases quote : c = '\''
    · subst quote
      rfl
    · rw [next,if_neg quote]
      first | exact mode_wordPart c | exact mode_start c
  | dash | slash =>
    rw [next,apply_ite mode,mode_start]
    rfl
  | literal escapes =>
    cases escapes
    · rw [next,apply_ite mode]
      rfl
    · have stays : (if c = '\\' then Region.escaped else .literal true).mode = .quoted '\'' := by
        split <;> rfl
      rw [next,apply_ite mode,stays]
      rfl
  | escaped =>
    have unquoted : c ≠ '\'' := by simpa [misreads] using agree
    simp [next,mode,Mode.next,unquoted]
  | identifier =>
    rw [next,apply_ite mode]
    rfl
  | lineComment =>
    have other : c ≠ '\r' := by simpa [misreads] using agree
    simp only [next,other,or_false,apply_ite mode]
    rfl
  | comment depth mark => exact mode_nextInComment agree

/-- At a character that is misread one reading is inside and the other outside at once. -/
theorem isOutside_of_misreads {r : Region} {c : Char} (misread : r.misreads c = true) :
    (r.mode.next c).isCode ≠ (r.next c).isOutside := by
  cases r with
  | escaped =>
    have quote : c = '\'' := by simpa [misreads] using misread
    subst quote
    decide
  | lineComment =>
    have back : c = '\r' := by simpa [misreads] using misread
    subst back
    decide
  | comment depth mark =>
    cases mark with
    | star =>
      simp only [misreads,Bool.and_eq_true,beq_iff_eq,bne_iff_ne] at misread
      obtain ⟨rfl,nested⟩ := misread
      obtain ⟨outer,rfl⟩ := Nat.exists_eq_succ_of_ne_zero nested
      simp [mode,Mode.next,Mode.isCode,next,nextInComment,isOutside]
    | opened =>
      have slash : c = '/' := by simpa [misreads] using misread
      subst slash
      simp [mode,Mode.next,Mode.isCode,next,nextInComment,isOutside]
    | none | slash => cases misread
  | _ => cases misread

variable {r : Region} {cs : List Char}

theorem mode_after (agree : r.agrees cs = true) : (r.after cs).mode = r.mode.after cs := by
  induction cs generalizing r with
  | nil => rfl
  | cons c rest ih =>
    simp only [agrees,Bool.and_eq_true,Bool.not_eq_true'] at agree
    rw [Mode.after_cons,← mode_next agree.1]
    exact ih agree.2

/-- Where the readings part, they part at a definite place. -/
theorem exists_parting (part : r.agrees cs = false) :
    ∃ before, before <+: cs ∧ (r.mode.after before).isCode ≠ (r.after before).isOutside := by
  induction cs generalizing r with
  | nil => cases part
  | cons c rest ih =>
    cases misread : r.misreads c with
    | true => exact ⟨[c],List.prefix_append [c] rest,isOutside_of_misreads misread⟩
    | false =>
      simp only [agrees,misread,Bool.not_false,Bool.true_and] at part
      obtain ⟨before,front,differ⟩ := ih part
      refine ⟨c :: before,List.cons_prefix_cons.mpr ⟨rfl,front⟩,?_⟩
      rw [Mode.after_cons,← mode_next misread]
      exact differ

theorem agrees_take (agree : r.agrees cs = true) (n : Nat) : r.agrees (cs.take n) = true := by
  induction cs generalizing r n with
  | nil => simp [agrees]
  | cons c rest ih =>
    simp only [agrees,Bool.and_eq_true] at agree
    cases n with
    | zero => rfl
    | succ n => simp [agrees,agree.1,ih agree.2 n]

/-- The character at a position is a question mark that the server finds in code. -/
def IsOpen (cs : List Char) (i : Nat) : Prop :=
  cs[i]? = some '?' ∧ (after .code (cs.take i)).isOutside = true

instance (cs : List Char) : DecidablePred (IsOpen cs) :=
  fun _ => inferInstanceAs (Decidable (_ ∧ _))

def openCount (cs : List Char) : Nat := (List.range cs.length).countP (IsOpen cs ·)

end Region

namespace Placeholder

/-- The character at a position is replaced by a number. -/
def IsNumbered (cs : List Char) (i : Nat) : Prop := ∃ k, (marksFrom .code 0 cs)[i]? = some (.inr k)

theorem getElem?_marksFrom (m : Mode) (n : Nat) (cs : List Char) (i : Nat) :
    (∃ k, (marksFrom m n cs)[i]? = some (.inr k)) ↔
      cs[i]? = some '?' ∧ (m.after (cs.take i)).isCode = true := by
  induction cs generalizing m n i with
  | nil => simp [marksFrom]
  | cons c rest ih =>
    rw [marksFrom]
    cases i with
    | zero => split <;> simp_all
    | succ i => split <;> simpa using ih _ _ i

theorem countFrom_eq_countP (m : Mode) (cs : List Char) :
    countFrom m cs = (List.range cs.length).countP
      (fun i => decide (cs[i]? = some '?' ∧ (m.after (cs.take i)).isCode = true)) := by
  induction cs generalizing m with
  | nil => rfl
  | cons c rest ih =>
    rw [countFrom,ih,List.length_cons,List.range_succ_eq_map,List.countP_cons,List.countP_map,
      Nat.add_comm]
    simp [Function.comp_def]

end Placeholder

namespace Region
open Placeholder

variable {cs : List Char}

theorem isNumbered_iff {i : Nat} : IsNumbered cs i ↔
    cs[i]? = some '?' ∧ (Mode.after .code (cs.take i)).isCode = true :=
  getElem?_marksFrom .code 0 cs i

theorem isCode_after (agree : agrees .code cs = true) :
    (Mode.after .code cs).isCode = (after .code cs).isOutside := by
  rw [← isCode_mode,mode_after agree]
  rfl

theorem isNumbered_iff_isOpen {i : Nat} (agree : agrees .code (cs.take i) = true) :
    IsNumbered cs i ↔ IsOpen cs i := by
  rw [isNumbered_iff,isCode_after agree,IsOpen]

theorem countFrom_eq_openCount (agree : agrees .code cs = true) :
    countFrom .code cs = openCount cs := by
  rw [countFrom_eq_countP,openCount]
  apply List.countP_congr
  intro i _
  rw [decide_eq_true_iff,decide_eq_true_iff,isCode_after (agrees_take agree i),IsOpen]

theorem exists_misjudged (part : agrees .code cs = false) :
    ∃ before, before <+: cs ∧
      ¬ (IsNumbered (before ++ ['?']) before.length ↔ IsOpen (before ++ ['?']) before.length) := by
  obtain ⟨before,front,differ⟩ := exists_parting part
  change (Mode.after .code before).isCode ≠ _ at differ
  refine ⟨before,front,?_⟩
  have mark : (before ++ ['?'])[before.length]? = some '?' := by simp
  have behind : (before ++ ['?']).take before.length = before := List.take_left
  rw [isNumbered_iff,IsOpen,mark,behind]
  intro alike
  exact differ (Bool.eq_iff_iff.mpr (by simpa using alike))

end Region

theorem Config.prepare_ok_iff {config : Config} (numbering : config.numberPlaceholders = true)
    (s : Statement) : (∃ text, config.prepare s = .ok text) ↔
      Placeholder.count s.sql = s.parameters.length := by
  constructor
  · rintro ⟨text,prepared⟩
    by_contra other
    obtain ⟨message,refused⟩ := prepare_of_count_ne numbering other
    rw [refused] at prepared
    cases prepared
  · exact fun same => ⟨_,prepare_of_count_eq numbering same⟩

/-- Behind a text that both read alike a question mark is numbered exactly if the server finds
it in code, and a statement read alike throughout is accepted exactly if such question marks are
as many as the parameters. In any other statement there is a place where a question mark would
be misjudged. -/
theorem numbered_iff_open (config : Config) (numbering : config.numberPlaceholders = true)
    (s : Statement) :
    let cs := s.sql.toList
    (∀ i, Region.agrees .code (cs.take i) = true →
      (Placeholder.IsNumbered cs i ↔ Region.IsOpen cs i)) ∧
    (Region.agrees .code cs = true →
      ((∃ text, config.prepare s = .ok text) ↔ Region.openCount cs = s.parameters.length)) ∧
    (Region.agrees .code cs = false → ∃ before, before <+: cs ∧
      ¬ (Placeholder.IsNumbered (before ++ ['?']) before.length ↔
        Region.IsOpen (before ++ ['?']) before.length)) := by
  intro cs
  refine ⟨fun i agree => Region.isNumbered_iff_isOpen agree,?_,Region.exists_misjudged⟩
  intro agree
  rw [Config.prepare_ok_iff numbering,Placeholder.count,Region.countFrom_eq_openCount agree]

/-- A statement that is read alike, and one in which the numbering takes the end of an inner
comment for the end of the outer one. -/
theorem numbered_iff_open_comments :
    let config : Config := {}
    let alike : Statement := ⟨.select,
      "SELECT \"why?\" FROM t /* ? -- */ WHERE a = E'\\\\?' AND b = 'it''s ?' AND c = ? -- ?",
      [.int 1]⟩
    let nested : Statement := ⟨.select,"/* a /* b */ ? */ c = ?",[.int 1]⟩
    ((∃ text, config.prepare alike = .ok text) ∧ Region.openCount alike.sql.toList = 1) ∧
    (¬ (∃ text, config.prepare nested = .ok text) ∧ Region.openCount nested.sql.toList = 1 ∧
      Placeholder.IsNumbered nested.sql.toList 13 ∧ ¬ Region.IsOpen nested.sql.toList 13) ∧
    ∃ before, before <+: nested.sql.toList ∧
      ¬ (Placeholder.IsNumbered (before ++ ['?']) before.length ↔
        Region.IsOpen (before ++ ['?']) before.length) := by
  intro config alike nested
  have agreed := (numbered_iff_open config rfl alike).2.1 (by decide)
  have parted := (numbered_iff_open config rfl nested).2.2 (by decide)
  have counted : Region.openCount alike.sql.toList = 1 := by decide
  refine ⟨⟨agreed.mpr counted,counted⟩,⟨?_,by decide,⟨1,by decide⟩,by decide⟩,parted⟩
  rw [Config.prepare_ok_iff rfl]
  decide

end FluentSql.Postgres

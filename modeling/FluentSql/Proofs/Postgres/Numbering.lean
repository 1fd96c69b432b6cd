import FluentSql.Proofs.Postgres.Segments
import Mathlib.Data.List.Infix

/-! The scan that numbers placeholders, segment by segment. It copies every enclosed stretch and
every other character and is back in plain code behind each of them, so that the placeholders it
finds are those of the split. -/
namespace FluentSql.Postgres

def Delimiter.mode : Delimiter → Mode
  | .singleQuote => .quoted '\''
  | .doubleQuote => .quoted '"'
  | .line => .lineComment
  | .block => .blockComment

namespace Mode
open Placeholder

theorem after_opening (d : Delimiter) : after .code d.opening = d.mode := by cases d <;> rfl

theorem countFrom_opening (d : Delimiter) : countFrom .code d.opening = 0 := by cases d <;> rfl

/-- A mode that nothing but the character `q` ends. -/
structure EndsAt (m : Mode) (q : Char) : Prop where
  inside : m.isCode = false
  ends : m.next q = .code
  stays : ∀ c, c ≠ q → m.next c = m

theorem endsAt_quoted (q : Char) : (quoted q).EndsAt q :=
  ⟨rfl,by simp [next],by intro c other; simp [next,other]⟩

theorem endsAt_lineComment : lineComment.EndsAt '\n' :=
  ⟨rfl,rfl,by intro c other; simp [next,other]⟩

variable {m : Mode} {q : Char} {body : List Char}

theorem EndsAt.after_body (single : m.EndsAt q) (absent : q ∉ body) :
    m.after body = m ∧ countFrom m body = 0 := by
  induction body with
  | nil => exact ⟨rfl,rfl⟩
  | cons c body ih =>
    rw [List.mem_cons,not_or] at absent
    have same := single.stays c (Ne.symm absent.1)
    rw [after_cons,countFrom,same,single.inside]
    simpa using ih absent.2

theorem EndsAt.after_closed (single : m.EndsAt q) (absent : q ∉ body) :
    m.after (body ++ [q]) = .code ∧ countFrom m (body ++ [q]) = 0 := by
  obtain ⟨after,none⟩ := single.after_body absent
  rw [after_append,countFrom_append,after,none]
  exact ⟨single.ends,by simp [countFrom,single.inside]⟩

/-- The part of the closing mark that a scan in a block comment has just read. -/
def pending : Mode → List Char
  | .asterisk => ['*']
  | _ => []

def InBlock (m : Mode) : Prop := m = .blockComment ∨ m = .asterisk

private theorem next_inBlock {c : Char} (block : m.InBlock)
    (apart : ¬ ['*','/'] <:+: m.pending ++ c :: body) :
    (m.next c).InBlock ∧ ¬ ['*','/'] <:+: (m.next c).pending ++ body := by
  have later : ¬ ['*','/'] <:+: c :: body :=
    fun inside => apart (inside.trans (List.suffix_append _ _).isInfix)
  have closer : ¬ (m = .asterisk ∧ c = '/') := by
    rintro ⟨rfl,rfl⟩
    exact apart (List.prefix_append ['*','/'] body).isInfix
  by_cases star : c = '*'
  · subst star
    rcases block with rfl | rfl <;> exact ⟨.inr rfl,later⟩
  · have plain : m.next c = .blockComment := by
      rcases block with rfl | rfl
      · simp [next,star]
      · have other : c ≠ '/' := fun same => closer ⟨rfl,same⟩
        simp [next,star,other]
    rw [plain]
    exact ⟨.inl rfl,fun inside => later (inside.trans (List.suffix_cons c body).isInfix)⟩

theorem InBlock.after_body (block : m.InBlock) (apart : ¬ ['*','/'] <:+: m.pending ++ body) :
    (m.after body).InBlock ∧ countFrom m body = 0 := by
  induction body generalizing m with
  | nil => exact ⟨block,rfl⟩
  | cons c body ih =>
    obtain ⟨block',apart'⟩ := next_inBlock block apart
    have inside : m.isCode = false := by rcases block with rfl | rfl <;> rfl
    rw [after_cons,countFrom,inside]
    simpa using ih block' apart'

theorem after_block_closed (apart : ¬ ['*','/'] <:+: body ++ ['*']) :
    after .blockComment (body ++ ['*','/']) = .code ∧
      countFrom .blockComment (body ++ ['*','/']) = 0 := by
  have before : ¬ ['*','/'] <:+: body :=
    fun inside => apart (inside.trans (List.prefix_append body ['*']).isInfix)
  obtain ⟨block,none⟩ := InBlock.after_body (.inl rfl) before
  rw [after_append,countFrom_append,none]
  rcases block with same | same <;> rw [same] <;> exact ⟨rfl,rfl⟩

private theorem notMem_of_absent (absent : ¬ [q] <:+: body) : q ∉ body :=
  fun member => absent ((List.singleton_infix_iff q body).mpr member)

theorem after_closing (d : Delimiter) (first : ¬ d.closing <:+: body ++ d.closing.dropLast) :
    after d.mode (body ++ d.closing) = .code ∧ countFrom d.mode (body ++ d.closing) = 0 := by
  cases d with
  | block => exact after_block_closed first
  | line =>
    rw [Delimiter.closing,List.dropLast_singleton,List.append_nil] at first
    exact endsAt_lineComment.after_closed (notMem_of_absent first)
  | singleQuote | doubleQuote =>
    rw [Delimiter.closing,List.dropLast_singleton,List.append_nil] at first
    exact (endsAt_quoted _).after_closed (notMem_of_absent first)

theorem countFrom_unclosed (d : Delimiter) (absent : ¬ d.closing <:+: body) :
    countFrom d.mode body = 0 := by
  cases d with
  | block => exact (InBlock.after_body (.inl rfl) absent).2
  | line => exact (endsAt_lineComment.after_body (notMem_of_absent absent)).2
  | singleQuote | doubleQuote =>
    exact ((endsAt_quoted _).after_body (notMem_of_absent absent)).2

end Mode

namespace Placeholder

/-- The scan of a text depends on the mode it starts in only through its first character. -/
theorem marksFrom_congr {m m' : Mode} (n : Nat) {cs : List Char} (code : m.isCode = m'.isCode)
    (next : ∀ c ∈ cs.head?, m.next c = m'.next c) : marksFrom m n cs = marksFrom m' n cs := by
  cases cs with
  | nil => rfl
  | cons c rest => rw [marksFrom,marksFrom,code,next c rfl]

end Placeholder

namespace Segment
open Placeholder Mode

variable {s : Segment} {rest : List Char}

private theorem leads_enclosed {d : Delimiter} {body : List Char} {closed : Bool}
    (leads : (enclosed d body closed).Leads rest) :
    countFrom .code (enclosed d body closed).text = 0 ∧
      (after .code (enclosed d body closed).text = .code ∨ rest = []) := by
  rw [text,countFrom_append,after_append,countFrom_opening,after_opening,Nat.zero_add]
  cases closed with
  | true =>
    obtain ⟨after,none⟩ := after_closing d leads
    exact ⟨none,.inl after⟩
  | false =>
    obtain ⟨absent,none⟩ := leads
    exact ⟨by simpa using countFrom_unclosed d absent,.inr none⟩

private theorem marksFrom_behind_other {c : Char} (leads : (other c).Leads rest) (n : Nat) :
    Placeholder.marksFrom (next .code c) n rest = Placeholder.marksFrom .code n rest := by
  obtain ⟨mark,opens⟩ := leads
  have unquoted : ¬ (c = '\'' ∨ c = '"') := by
    rintro (rfl | rfl)
    · exact opens .singleQuote (List.prefix_append ['\''] rest)
    · exact opens .doubleQuote (List.prefix_append ['"'] rest)
  by_cases dash : c = '-'
  · subst dash
    have code : (next .code '-').isCode = Mode.code.isCode := rfl
    apply marksFrom_congr n code
    intro c first
    have single : c ≠ '-' := by
      rintro rfl
      obtain ⟨tail,rfl⟩ := List.head?_eq_some_iff.mp first
      exact opens .line (List.prefix_append ['-','-'] tail)
    simp [next,ofCode,single]
  · by_cases slash : c = '/'
    · subst slash
      have code : (next .code '/').isCode = Mode.code.isCode := rfl
      apply marksFrom_congr n code
      intro c first
      have single : c ≠ '*' := by
        rintro rfl
        obtain ⟨tail,rfl⟩ := List.head?_eq_some_iff.mp first
        exact opens .block (List.prefix_append ['/','*'] tail)
      simp [next,ofCode,single]
    · have plain : next .code c = .code := by simp [next,ofCode,unquoted,dash,slash]
      rw [plain]

/-- A segment that is no placeholder is copied, and the scan goes on as from plain code. -/
theorem Leads.marksFrom_append (leads : s.Leads rest) (no : s ≠ .placeholder) (n : Nat) :
    Placeholder.marksFrom .code n (s.text ++ rest) =
      s.text.map .inl ++ Placeholder.marksFrom .code n rest := by
  rw [Placeholder.marksFrom_append]
  cases s with
  | placeholder => exact absurd rfl no
  | enclosed d body closed =>
    obtain ⟨none,behind⟩ := leads_enclosed leads
    rw [marksFrom_of_countFrom_eq_zero n none,none,Nat.add_zero]
    rcases behind with code | rfl
    · rw [code]
    · rfl
  | other c =>
    have none : countFrom .code (other c).text = 0 := by simp [text,countFrom,leads.1]
    rw [marksFrom_of_countFrom_eq_zero n none,none,Nat.add_zero]
    exact congrArg _ (marksFrom_behind_other leads n)

theorem marksFrom_cons_of_ne (no : s ≠ .placeholder) (n : Nat) (segments : List Segment) :
    marksFrom n (s :: segments) = s.text.map .inl ++ marksFrom n segments := by
  cases s with
  | placeholder => exact absurd rfl no
  | _ => rfl

end Segment

namespace Split
open Placeholder

variable {cs : List Char} {segments : List Segment}

theorem marksFrom_eq (split : Split cs segments) (n : Nat) :
    marksFrom .code n cs = Segment.marksFrom n segments := by
  induction split generalizing n with
  | nil => rfl
  | @cons s rest segments leads more ih =>
    by_cases mark : s = .placeholder
    · subst mark
      exact congrArg _ (ih (n + 1))
    · rw [leads.marksFrom_append mark,Segment.marksFrom_cons_of_ne mark,ih]

end Split

namespace Placeholder

/-- What stands in the original text for a mark. -/
def original : Char ⊕ Nat → Char
  | .inl c => c
  | .inr _ => '?'

theorem map_original_marksFrom (m : Mode) (n : Nat) (cs : List Char) :
    (marksFrom m n cs).map original = cs := by
  induction cs generalizing m n with
  | nil => rfl
  | cons c rest ih =>
    rw [marksFrom]
    split
    · rename_i placeholder
      rw [List.map_cons,ih,placeholder.1]
      rfl
    · rw [List.map_cons,ih]
      rfl

end Placeholder

theorem Segment.introduced_marksFrom (n : Nat) (segments : List Segment) :
    Placeholder.introduced (marksFrom n segments) =
      List.range' (n + 1) (segments.count .placeholder) := by
  induction segments generalizing n with
  | nil => rfl
  | cons s segments ih =>
    by_cases mark : s = .placeholder
    · subst mark
      rw [List.count_cons_self,List.range'_succ,← ih (n + 1)]
      rfl
    · have copied : Placeholder.introduced (s.text.map .inl) = [] := by
        simp [Placeholder.introduced]
      rw [marksFrom_cons_of_ne mark,List.count_cons_of_ne mark,← ih n]
      rw [Placeholder.introduced,List.filterMap_append,← Placeholder.introduced,copied]
      rfl

/-- Numbering follows the grammar: every text splits in one way, the placeholders of the split
are numbered in order, and putting question marks back restores the text. -/
theorem number_of_split (sql : String) :
    (∃! segments, Split sql.toList segments) ∧
    ∀ segments, Split sql.toList segments →
      Placeholder.number sql =
        String.ofList ((Segment.marksFrom 0 segments).flatMap Placeholder.spell) ∧
      Placeholder.count sql = segments.count .placeholder ∧
      Placeholder.introduced (Segment.marksFrom 0 segments) =
        List.range' 1 (segments.count .placeholder) ∧
      (Segment.marksFrom 0 segments).map Placeholder.original = sql.toList := by
  refine ⟨?_,?_⟩
  · obtain ⟨segments,split⟩ := Split.exists_split sql.toList
    exact ⟨segments,split,fun others other => other.unique split⟩
  · intro segments split
    have marked : Placeholder.marks sql = Segment.marksFrom 0 segments := split.marksFrom_eq 0
    have introduced := Segment.introduced_marksFrom 0 segments
    refine ⟨?_,?_,introduced,?_⟩
    · rw [Placeholder.number_eq,marked]
    · have counted := Placeholder.introduced_marks sql
      rw [marked,introduced] at counted
      simpa using (congrArg List.length counted).symm
    · rw [← marked]
      exact Placeholder.map_original_marksFrom .code 0 sql.toList

/-- A comment does not end with the characters that open it, and what is not closed runs to the
end of the text. -/
theorem number_of_split_comment :
    let sql := "'?'/*/?*/?-\"?"
    let segments : List Segment := [.enclosed .singleQuote ['?'] true,
      .enclosed .block ['/','?'] true,.placeholder,.other '-',.enclosed .doubleQuote ['?'] false]
    Split sql.toList segments ∧ Placeholder.number sql = "'?'/*/?*/$1-\"?" ∧
      Placeholder.count sql = 1 := by
  intro sql segments
  have lone : (Segment.other '-').Leads ['"','?'] :=
    ⟨by decide,fun d => by cases d <;> decide⟩
  have mark : Segment.placeholder.Leads ['-','"','?'] := trivial
  have unclosed : (Segment.enclosed .doubleQuote ['?'] false).Leads [] := ⟨by decide,rfl⟩
  have comment : (Segment.enclosed .block ['/','?'] true).Leads ['?','-','"','?'] := by
    change ¬ _ <:+: _
    decide
  have literal : (Segment.enclosed .singleQuote ['?'] true).Leads
      ['/','*','/','?','*','/','?','-','"','?'] := by
    change ¬ _ <:+: _
    decide
  have text : sql.toList = segments.flatMap Segment.text := by decide
  have split : Split sql.toList segments := by
    rw [text]
    exact .cons literal (.cons comment (.cons mark (.cons lone (.cons unclosed .nil))))
  obtain ⟨numbered,counted,-⟩ := (number_of_split sql).2 segments split
  exact ⟨split,numbered.trans (by decide),counted.trans (by decide)⟩

end FluentSql.Postgres

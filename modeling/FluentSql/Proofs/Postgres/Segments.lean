import FluentSql.Proofs.Postgres.Marks

/-! The grammar that the numbering of placeholders follows. From left to right, a text splits
into quoted stretches, comments, placeholders and single other characters, and it does so in one
way only. Numbering puts numbers in place of the placeholders of that split and copies all else. -/
namespace FluentSql.Postgres

/-- What encloses a stretch of text in which question marks are not placeholders. -/
inductive Delimiter
  | singleQuote
  | doubleQuote
  | line
  | block
  deriving DecidableEq

namespace Delimiter

def opening : Delimiter → List Char
  | .singleQuote => ['\'']
  | .doubleQuote => ['"']
  | .line => ['-','-']
  | .block => ['/','*']

def closing : Delimiter → List Char
  | .singleQuote => ['\'']
  | .doubleQuote => ['"']
  | .line => ['\n']
  | .block => ['*','/']

theorem closing_ne_nil (d : Delimiter) : d.closing ≠ [] := by cases d <;> simp [closing]

end Delimiter

/-- The text `body` runs to the first `stop` or, where none follows, to the end of the text. -/
def RunsTo (stop body : List Char) (closed : Bool) (rest : List Char) : Prop :=
  if closed then ¬ stop <:+: body ++ stop.dropLast else ¬ stop <:+: body ∧ rest = []

inductive Segment
  | enclosed (d : Delimiter) (body : List Char) (closed : Bool)
  | placeholder
  | other (c : Char)
  deriving DecidableEq

namespace Segment

def text : Segment → List Char
  | .enclosed d body closed => d.opening ++ (body ++ if closed then d.closing else [])
  | .placeholder => ['?']
  | .other c => [c]

/-- The segment is the first one of a text that goes on with `rest` behind it. -/
def Leads (rest : List Char) : Segment → Prop
  | .enclosed d body closed => RunsTo d.closing body closed rest
  | .placeholder => True
  | .other c => c ≠ '?' ∧ ∀ d : Delimiter, ¬ d.opening <+: c :: rest

/-- The marks of segments behind `count` placeholders. -/
def marksFrom (count : Nat) : List Segment → List (Char ⊕ Nat)
  | [] => []
  | .placeholder :: rest => .inr (count + 1) :: marksFrom (count + 1) rest
  | s :: rest => s.text.map .inl ++ marksFrom count rest

theorem text_ne_nil (s : Segment) : s.text ≠ [] := by
  cases s with
  | enclosed d body closed => cases d <;> simp [text,Delimiter.opening]
  | placeholder => simp [text]
  | other c => simp [text]

end Segment

inductive Split : List Char → List Segment → Prop
  | nil : Split [] []
  | cons {s : Segment} {rest : List Char} {segments : List Segment} (leads : s.Leads rest)
      (more : Split rest segments) : Split (s.text ++ rest) (s :: segments)

section RunsTo

variable {stop body body' rest rest' : List Char} {closed closed' : Bool}

theorem exists_runsTo (nonempty : stop ≠ []) (cs : List Char) :
    ∃ body closed rest, cs = body ++ ((if closed then stop else []) ++ rest) ∧
      RunsTo stop body closed rest := by
  induction cs with
  | nil => exact ⟨[],false,[],rfl,by simp [RunsTo,nonempty]⟩
  | cons c cs ih =>
    by_cases here : stop <+: c :: cs
    · obtain ⟨rest,same⟩ := here
      refine ⟨[],true,rest,same.symm,?_⟩
      have shorter : stop.dropLast.length < stop.length := by
        have := List.length_pos_iff.mpr nonempty
        rw [List.length_dropLast]
        omega
      intro inside
      exact absurd inside.length_le (by simpa using shorter)
    · obtain ⟨body,closed,rest,rfl,runs⟩ := ih
      refine ⟨c :: body,closed,rest,rfl,?_⟩
      cases closed with
      | false =>
        obtain ⟨absent,rfl⟩ := runs
        refine ⟨?_,rfl⟩
        rw [List.infix_cons_iff]
        rintro (first | later)
        · exact here (by simpa using first)
        · exact absent later
      | true =>
        have front : body ++ stop.dropLast <+: body ++ (stop ++ rest) :=
          List.prefix_append_right_inj body |>.mpr
            ((List.dropLast_prefix stop).trans (List.prefix_append stop rest))
        change ¬ stop <:+: c :: (body ++ stop.dropLast)
        rw [List.infix_cons_iff]
        rintro (first | later)
        · exact here (first.trans (List.cons_prefix_cons.mpr ⟨rfl,front⟩))
        · exact runs later

/-- Where a stop comes first it also comes first in another reading of the same text. -/
private theorem length_le_of_runsTo
    (same : body ++ ((if closed then stop else []) ++ rest) =
      body' ++ ((if closed' then stop else []) ++ rest'))
    (runs : RunsTo stop body closed rest) (runs' : RunsTo stop body' closed' rest') :
    body'.length ≤ body.length := by
  apply Nat.le_of_not_lt
  intro shorter
  cases closed with
  | false =>
    obtain ⟨_,rfl⟩ := runs
    have lengths := congrArg List.length same
    simp at lengths
    omega
  | true =>
    have found : body ++ stop <+: body' ++ ((if closed' then stop else []) ++ rest') :=
      ⟨rest,by rw [← same,List.append_assoc]; rfl⟩
    cases closed' with
    | false =>
      obtain ⟨absent,rfl⟩ := runs'
      have inside : body ++ stop <+: body' := by simpa using found
      exact absent ((List.suffix_append body stop).isInfix.trans inside.isInfix)
    | true =>
      have front : body' ++ stop.dropLast <+: body' ++ (stop ++ rest') :=
        List.prefix_append_right_inj body' |>.mpr
          ((List.dropLast_prefix stop).trans (List.prefix_append stop rest'))
      have inside : body ++ stop <+: body' ++ stop.dropLast := by
        apply List.prefix_of_prefix_length_le found front
        simp only [List.length_append,List.length_dropLast]
        omega
      exact runs' ((List.suffix_append body stop).isInfix.trans inside.isInfix)

theorem RunsTo.unique (nonempty : stop ≠ [])
    (same : body ++ ((if closed then stop else []) ++ rest) =
      body' ++ ((if closed' then stop else []) ++ rest'))
    (runs : RunsTo stop body closed rest) (runs' : RunsTo stop body' closed' rest') :
    body = body' ∧ closed = closed' ∧ rest = rest' := by
  have length : body.length = body'.length :=
    Nat.le_antisymm (length_le_of_runsTo same.symm runs' runs) (length_le_of_runsTo same runs runs')
  obtain ⟨rfl,tails⟩ := List.append_inj same length
  refine ⟨rfl,?_⟩
  cases closed <;> cases closed'
  · exact ⟨rfl,by simpa using tails⟩
  · rw [runs.2] at tails
    simp [nonempty] at tails
  · rw [runs'.2] at tails
    simp [nonempty] at tails
  · exact ⟨rfl,by simpa using tails⟩

end RunsTo

theorem Segment.Leads.unique {s s' : Segment} {rest rest' : List Char} (leads : s.Leads rest)
    (leads' : s'.Leads rest') (same : s.text ++ rest = s'.text ++ rest') :
    s = s' ∧ rest = rest' := by
  cases s with
  | enclosed d body closed =>
    cases s' with
    | enclosed d' body' closed' =>
      have kind : d = d' := by
        cases d <;> cases d' <;> first | rfl | simp [text,Delimiter.opening] at same
      subst kind
      simp only [text,List.append_assoc,List.append_cancel_left_eq] at same
      obtain ⟨rfl,rfl,rfl⟩ := RunsTo.unique d.closing_ne_nil same leads leads'
      exact ⟨rfl,rfl⟩
    | placeholder => cases d <;> simp [text,Delimiter.opening] at same
    | other c =>
      refine absurd ?_ (leads'.2 d)
      exact ⟨_,by rw [← List.append_assoc]; exact same⟩
  | placeholder =>
    cases s' with
    | enclosed d body closed => cases d <;> simp [text,Delimiter.opening] at same
    | placeholder => exact ⟨rfl,by simpa [text] using same⟩
    | other c =>
      simp [text] at same
      exact absurd same.1.symm leads'.1
  | other c =>
    cases s' with
    | enclosed d body closed =>
      refine absurd ?_ (leads.2 d)
      exact ⟨_,by rw [← List.append_assoc]; exact same.symm⟩
    | placeholder =>
      simp [text] at same
      exact absurd same.1 leads.1
    | other c' =>
      simp [text] at same
      exact ⟨by rw [same.1],same.2⟩

theorem exists_leads (c : Char) (cs : List Char) :
    ∃ (s : Segment) (rest : List Char), c :: cs = s.text ++ rest ∧ s.Leads rest ∧
      rest.length < (c :: cs).length := by
  by_cases opens : ∃ d : Delimiter, d.opening <+: c :: cs
  · obtain ⟨d,tail,found⟩ := opens
    obtain ⟨body,closed,rest,rfl,runs⟩ := exists_runsTo d.closing_ne_nil tail
    refine ⟨.enclosed d body closed,rest,?_,runs,?_⟩
    · rw [← found,Segment.text,List.append_assoc,List.append_assoc]
    · rw [← found]
      cases d <;> simp [Delimiter.opening] <;> omega
  · by_cases mark : c = '?'
    · exact ⟨.placeholder,cs,by rw [mark]; rfl,trivial,Nat.lt_succ_self _⟩
    · exact ⟨.other c,cs,rfl,⟨mark,fun d starts => opens ⟨d,starts⟩⟩,Nat.lt_succ_self _⟩

namespace Split

theorem exists_split (cs : List Char) : ∃ segments, Split cs segments := by
  induction length : cs.length using Nat.strongRecOn generalizing cs with
  | _ n ih =>
    cases cs with
    | nil => exact ⟨[],.nil⟩
    | cons c cs =>
      obtain ⟨s,rest,same,leads,shorter⟩ := exists_leads c cs
      obtain ⟨segments,more⟩ := ih rest.length (length ▸ shorter) rest rfl
      rw [same]
      exact ⟨s :: segments,.cons leads more⟩

theorem unique {cs : List Char} {segments others : List Segment} (split : Split cs segments)
    (other : Split cs others) : segments = others := by
  induction split generalizing others with
  | nil =>
    generalize none : [] = cs at other
    cases other with
    | nil => rfl
    | @cons s _ _ _ _ => exact absurd (List.append_eq_nil_iff.mp none.symm).1 s.text_ne_nil
  | @cons s rest segments leads more ih =>
    generalize same : s.text ++ rest = cs at other
    cases other with
    | nil => exact absurd (List.append_eq_nil_iff.mp same).1 s.text_ne_nil
    | cons leads' more' =>
      obtain ⟨rfl,rfl⟩ := leads.unique leads' same
      rw [ih more']

end Split
end FluentSql.Postgres

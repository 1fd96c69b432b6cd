import Mathlib.Data.List.Basic

/-! Boolean formulas and how a row of signs is read as one. Parentheses bind first, then NOT,
then AND, then OR. A reading takes as many signs as it can, so that no row has two of them. -/
namespace FluentSql

inductive Formula (α : Type)
  | atom (a : α)
  | not (f : Formula α)
  | and (f g : Formula α)
  | or (f g : Formula α)

def Formula.eval {α : Type} (truth : α → Bool) : Formula α → Bool
  | .atom a => truth a
  | .not f => !f.eval truth
  | .and f g => f.eval truth && g.eval truth
  | .or f g => f.eval truth || g.eval truth

inductive Sign (α : Type)
  | atom (a : α)
  | not
  | and
  | or
  | opening
  | closing

inductive Level
  | operand
  | conjunction
  | disjunction

/-- The first signs of a row are read as a formula, the other signs are left. -/
inductive Reads {α : Type} : Level → List (Sign α) → Formula α → List (Sign α) → Prop
  | atom (a rest) : Reads .operand (.atom a :: rest) (.atom a) rest
  | not {signs f rest} (body : Reads .operand signs f rest) :
      Reads .operand (.not :: signs) (.not f) rest
  | enclosed {signs f rest} (body : Reads .disjunction signs f (.closing :: rest)) :
      Reads .operand (.opening :: signs) f rest
  | lastFactor {signs f rest} (factor : Reads .operand signs f rest)
      (last : rest.head? ≠ some .and) : Reads .conjunction signs f rest
  | and {signs f between g rest} (factor : Reads .operand signs f (.and :: between))
      (others : Reads .conjunction between g rest) : Reads .conjunction signs (.and f g) rest
  | lastTerm {signs f rest} (term : Reads .conjunction signs f rest)
      (last : rest.head? ≠ some .or) : Reads .disjunction signs f rest
  | or {signs f between g rest} (term : Reads .conjunction signs f (.or :: between))
      (others : Reads .disjunction between g rest) : Reads .disjunction signs (.or f g) rest

/-- No sign of the row could be taken in by a reading at the level. -/
def Level.Stops {α : Type} (more : List (Sign α)) : Level → Prop
  | .operand => True
  | .conjunction => more.head? ≠ some .and
  | .disjunction => more.head? ≠ some .and ∧ more.head? ≠ some .or

namespace Reads

variable {α : Type} {l : Level} {signs rest rest' : List (Sign α)} {f g : Formula α}

theorem deterministic (one : Reads l signs f rest) (other : Reads l signs g rest') :
    f = g ∧ rest = rest' := by
  induction one generalizing g rest' with
  | atom a rest =>
    cases other
    exact ⟨rfl,rfl⟩
  | not _ ih =>
    cases other with
    | not body =>
      obtain ⟨rfl,rfl⟩ := ih body
      exact ⟨rfl,rfl⟩
  | enclosed _ ih =>
    cases other with
    | enclosed body =>
      obtain ⟨rfl,left⟩ := ih body
      cases left
      exact ⟨rfl,rfl⟩
  | lastFactor _ last ih =>
    cases other with
    | lastFactor factor _ => exact ih factor
    | and factor _ =>
      obtain ⟨_,rfl⟩ := ih factor
      exact absurd rfl last
  | and _ _ ihFactor ihOthers =>
    cases other with
    | lastFactor factor last =>
      obtain ⟨_,rfl⟩ := ihFactor factor
      exact absurd rfl last
    | and factor others =>
      obtain ⟨rfl,left⟩ := ihFactor factor
      cases left
      obtain ⟨rfl,rfl⟩ := ihOthers others
      exact ⟨rfl,rfl⟩
  | lastTerm _ last ih =>
    cases other with
    | lastTerm term _ => exact ih term
    | or term _ =>
      obtain ⟨_,rfl⟩ := ih term
      exact absurd rfl last
  | or _ _ ihTerm ihOthers =>
    cases other with
    | lastTerm term last =>
      obtain ⟨_,rfl⟩ := ihTerm term
      exact absurd rfl last
    | or term others =>
      obtain ⟨rfl,left⟩ := ihTerm term
      cases left
      obtain ⟨rfl,rfl⟩ := ihOthers others
      exact ⟨rfl,rfl⟩

private theorem head?_append_ne {rest more : List (Sign α)} {sign : Sign α}
    (here : rest.head? ≠ some sign) (next : rest = [] → more.head? ≠ some sign) :
    (rest ++ more).head? ≠ some sign := by
  cases rest with
  | nil => exact next rfl
  | cons first others => exact here

/-- What a reading leaves can be longer, unless the reading would have gone on into it. -/
theorem append (reads : Reads l signs f rest) (more : List (Sign α))
    (stops : rest = [] → l.Stops more) : Reads l (signs ++ more) f (rest ++ more) := by
  induction reads with
  | atom a rest => exact .atom a _
  | not _ ih => exact .not (ih stops)
  | enclosed _ ih => exact .enclosed (ih (fun none => by cases none))
  | lastFactor _ last ih =>
    exact .lastFactor (ih fun _ => trivial) (head?_append_ne last stops)
  | and _ _ ihFactor ihOthers =>
    exact .and (ihFactor fun none => by cases none) (ihOthers stops)
  | lastTerm _ last ih =>
    exact .lastTerm (ih fun none => (stops none).1)
      (head?_append_ne last fun none => (stops none).2)
  | or _ _ ihTerm ihOthers =>
    exact .or (ihTerm fun none => by cases none) (ihOthers stops)

end Reads
end FluentSql

import FluentSql.Proofs.Statement.Formula
import FluentSql.Text.Blank
import Mathlib.Data.List.Chain

/-! Boolean expressions as text. A phrase is a row of words that is read as one formula, with
the text that the words make; phrases are put together the way their formulas are. -/
namespace FluentSql

def Sign.keyword? {α : Type} : Sign α → Option String
  | .atom _ => none
  | .not => some "NOT"
  | .and => some "AND"
  | .or => some "OR"
  | .opening => some "("
  | .closing => some ")"

def Sign.isAtom {α : Type} : Sign α → Bool
  | .atom _ => true
  | _ => false

/-- The signs that join any number of phrases to one. -/
inductive Connective
  | and
  | or

namespace Connective

@[reducible] def inner : Connective → Level
  | .and => .operand
  | .or => .conjunction

@[reducible] def outer : Connective → Level
  | .and => .conjunction
  | .or => .disjunction

def separator : Connective → String
  | .and => " AND "
  | .or => " OR "

def sign {α : Type} : Connective → Sign α
  | .and => .and
  | .or => .or

def formula {α : Type} : Connective → Formula α → Formula α → Formula α
  | .and => .and
  | .or => .or

def holds : Connective → List Bool → Bool
  | .and,values => values.all id
  | .or,values => values.any id

end Connective

/-- A sign as it is written. Keywords may have blanks around them and letters of either case;
an atom may be any text that shows something. -/
structure Word (α : Type) where
  sign : Sign α
  text : String
  spelled : sign.keyword?.all (·.toList == (Text.trim text.toList).map Char.toUpper) = true
  shown : Text.allBlank text.toList = false

namespace Word

variable {α : Type}

def joins (c : Char) : Bool := c.isAlphanum || c == '_' || c == '$' || 128 ≤ c.toNat

/-- The two can stand next to each other and still be told apart. -/
def Apart (w v : Word α) : Prop :=
  ¬ (w.text.toList.getLast?.any joins = true ∧ v.text.toList.head?.any joins = true)

def isLoose (text : String) : Bool :=
  !text.toList.head?.any joins && !text.toList.getLast?.any joins

def opening : Word α := ⟨.opening,"(",rfl,rfl⟩
def closing : Word α := ⟨.closing,")",rfl,rfl⟩

def ofConnective (c : Connective) : Word α where
  sign := c.sign
  text := c.separator
  spelled := by cases c <;> rfl
  shown := by cases c <;> rfl

def spell (words : List (Word α)) : String := String.join (words.map Word.text)

@[simp] theorem spell_nil : spell ([] : List (Word α)) = "" := by simp [spell]

@[simp] theorem spell_cons (w : Word α) (words : List (Word α)) :
    spell (w :: words) = w.text ++ spell words := by simp [spell]

@[simp] theorem spell_append (words more : List (Word α)) :
    spell (words ++ more) = spell words ++ spell more := by simp [spell]

theorem isChain_between {before after : List (Word α)} {w : Word α}
    (loose : isLoose w.text = true) (isChain : before.IsChain Apart)
    (isChain' : after.IsChain Apart) : (before ++ w :: after).IsChain Apart := by
  obtain ⟨first,last⟩ : w.text.toList.head?.any joins = false ∧
      w.text.toList.getLast?.any joins = false := by simpa [isLoose] using loose
  refine List.isChain_append.mpr ⟨isChain,List.isChain_cons.mpr ⟨?_,isChain'⟩,?_⟩
  · intro v _ both
    exact Bool.false_ne_true (last.symm.trans both.1)
  · intro v _ v' next both
    cases next
    exact Bool.false_ne_true (first.symm.trans both.2)

end Word

structure Phrase (α : Type) (l : Level) where
  words : List (Word α)
  formula : Formula α
  reads : Reads l (words.map Word.sign) formula []
  apart : words.IsChain Word.Apart

namespace Phrase

variable {α : Type} {l : Level}

def text (p : Phrase α l) : String := Word.spell p.words

def atoms (p : Phrase α l) : List (Word α) := p.words.filter (·.sign.isAtom)

def eval (truth : α → Bool) (p : Phrase α l) : Bool := p.formula.eval truth

/-- The words of a phrase are read as its formula in full, and not in any other way. -/
theorem reads_unique (p : Phrase α l) {f : Formula α} {rest : List (Sign α)}
    (reads : Reads l (p.words.map Word.sign) f rest) : f = p.formula ∧ rest = [] :=
  reads.deterministic p.reads

theorem eval_eq_of_words_eq {p q : Phrase α l} (same : p.words = q.words) (truth : α → Bool) :
    p.eval truth = q.eval truth := by
  obtain ⟨formula,_⟩ := p.reads_unique (same ▸ q.reads)
  rw [eval,eval,formula]

def ofAtom (a : α) (w : Word α) (sign : w.sign = .atom a) : Phrase α .operand where
  words := [w]
  formula := .atom a
  reads := by
    rw [List.map_singleton,sign]
    exact .atom a []
  apart := List.isChain_singleton w

def enclosed (p : Phrase α .disjunction) : Phrase α .operand where
  words := .opening :: p.words ++ [.closing]
  formula := p.formula
  reads := by
    have body := p.reads.append [.closing] fun _ => by simp [Level.Stops]
    simpa [Word.opening,Word.closing] using Reads.enclosed body
  apart := by
    have front : (Word.opening :: p.words).IsChain Word.Apart :=
      Word.isChain_between (by decide : Word.isLoose "(" = true) List.isChain_nil p.apart
    exact Word.isChain_between (by decide : Word.isLoose ")" = true) front List.isChain_nil

/-- One phrase, of which there may be more. -/
def alone (c : Connective) (p : Phrase α c.inner) : Phrase α c.outer where
  words := p.words
  formula := p.formula
  reads := by
    cases c with
    | and => exact .lastFactor p.reads (by simp)
    | or => exact .lastTerm p.reads (by simp)
  apart := p.apart

def link (c : Connective) (p : Phrase α c.inner) (q : Phrase α c.outer) : Phrase α c.outer where
  words := p.words ++ .ofConnective c :: q.words
  formula := c.formula p.formula q.formula
  reads := by
    rw [List.map_append,List.map_cons]
    cases c with
    | and => exact .and (p.reads.append _ fun _ => trivial) q.reads
    | or =>
      have first : Reads .conjunction (p.words.map Word.sign) p.formula [] := p.reads
      exact .or (first.append _ fun _ => by simp [Level.Stops,Word.ofConnective,Connective.sign])
        q.reads
  apart := by
    have loose : Word.isLoose c.separator = true := by cases c <;> decide
    exact Word.isChain_between loose p.apart q.apart

def joined (c : Connective) (p : Phrase α c.inner) : List (Phrase α c.inner) → Phrase α c.outer
  | [] => alone c p
  | q :: rest => link c p (joined c q rest)

section Views

variable (truth : α → Bool) (c : Connective)

@[simp] theorem text_enclosed (p : Phrase α .disjunction) :
    p.enclosed.text = "(" ++ p.text ++ ")" := by
  simp [text,enclosed,Word.opening,Word.closing,String.append_assoc]

@[simp] theorem atoms_enclosed (p : Phrase α .disjunction) : p.enclosed.atoms = p.atoms := by
  simp [atoms,enclosed,Word.opening,Word.closing,Sign.isAtom]

@[simp] theorem eval_enclosed (p : Phrase α .disjunction) :
    p.enclosed.eval truth = p.eval truth := rfl

@[simp] theorem text_alone (p : Phrase α c.inner) : (alone c p).text = p.text := rfl

@[simp] theorem atoms_alone (p : Phrase α c.inner) : (alone c p).atoms = p.atoms := rfl

@[simp] theorem eval_alone (p : Phrase α c.inner) : (alone c p).eval truth = p.eval truth := rfl

@[simp] theorem text_link (p : Phrase α c.inner) (q : Phrase α c.outer) :
    (link c p q).text = p.text ++ (c.separator ++ q.text) := by
  simp [text,link,Word.ofConnective]

@[simp] theorem atoms_link (p : Phrase α c.inner) (q : Phrase α c.outer) :
    (link c p q).atoms = p.atoms ++ q.atoms := by
  cases c <;> simp [atoms,link,Word.ofConnective,Connective.sign,Sign.isAtom]

theorem eval_link (p : Phrase α c.inner) (q : Phrase α c.outer) :
    (link c p q).eval truth = c.holds [p.eval truth,q.eval truth] := by
  cases c <;> simp [eval,link,Connective.formula,Connective.holds,Formula.eval]

theorem text_joined (p : Phrase α c.inner) (rest : List (Phrase α c.inner)) :
    (joined c p rest).text = c.separator.intercalate ((p :: rest).map text) := by
  induction rest generalizing p with
  | nil => simp [joined]
  | cons q rest ih => simp [joined,ih,String.append_assoc]

theorem atoms_joined (p : Phrase α c.inner) (rest : List (Phrase α c.inner)) :
    (joined c p rest).atoms = (p :: rest).flatMap atoms := by
  induction rest generalizing p with
  | nil => simp [joined]
  | cons q rest ih => simp [joined,ih]

theorem eval_joined (p : Phrase α c.inner) (rest : List (Phrase α c.inner)) :
    (joined c p rest).eval truth = c.holds ((p :: rest).map (eval truth)) := by
  induction rest generalizing p with
  | nil => cases c <;> simp [joined,Connective.holds]
  | cons q rest ih =>
    rw [joined,eval_link,ih]
    cases c <;> simp [Connective.holds]

end Views

end Phrase
end FluentSql

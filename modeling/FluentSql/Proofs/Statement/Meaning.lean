import FluentSql.Proofs.Statement.Phrase
import FluentSql.Proofs.Statement.Rendering

/-! What the conditions of a statement mean. In whatever order conditions and alternatives were
asked for, the clause that a SELECT, an UPDATE or a DELETE has for them is read as all of the
conditions, or else one of the alternatives. -/
namespace FluentSql

variable {α : Type}

/-- Raw text may be any expression; every other condition is one atom. -/
structure Asked.ReadAs (a : Asked) (p : Phrase α .disjunction) : Prop where
  text : p.text = Layout.sql a.layout
  atom : a.isRaw = false → ∃ w x, w.sign = .atom x ∧ p.words = [w]

namespace Phrase

/-- What is asked for: all conditions or one of the alternatives, where there are both. -/
def asked (truth : α → Bool) (conditions alternatives : List (Phrase α .disjunction)) : Bool :=
  match conditions, alternatives with
  | conditions, [] => conditions.all (eval truth)
  | [], alternatives => alternatives.any (eval truth)
  | conditions, alternatives => conditions.all (eval truth) || alternatives.any (eval truth)

structure Conveys {l : Level} (p : Phrase α l) (layout : Layout)
    (parts : List (Phrase α .disjunction)) (value : (α → Bool) → Bool) : Prop where
  text : p.text = Layout.sql layout
  atoms : p.atoms = parts.flatMap Phrase.atoms
  eval : ∀ truth, p.eval truth = value truth

end Phrase

namespace Draft

variable {d : Draft} {asked : List Asked} {phrases : List (Phrase α .disjunction)}

/-- Next to other conditions, each one is an operand: raw text because it is enclosed. -/
private theorem operand_of_readAs {a : Asked} {p : Phrase α .disjunction} (read : a.ReadAs p)
    (shared : 1 < d.conditionCount) :
    ∃ o : Phrase α .operand, o.text = Layout.sql (d.conditionLayout a) ∧
      o.atoms = p.atoms ∧ ∀ truth, o.eval truth = p.eval truth := by
  cases raw : a.isRaw with
  | true =>
    refine ⟨p.enclosed,?_,by simp,by simp⟩
    rw [conditionLayout,if_pos ⟨raw,shared⟩,Layout.sql_enclosed,← read.text,Phrase.text_enclosed]
  | false =>
    obtain ⟨w,x,sign,words⟩ := read.atom raw
    have same : (Phrase.alone .or (.alone .and (.ofAtom x w sign))).words = p.words := words.symm
    refine ⟨Phrase.ofAtom x w sign,?_,?_,?_⟩
    · rw [conditionLayout,if_neg (by simp [raw]),← read.text,Phrase.text,Phrase.text,words]
      rfl
    · rw [Phrase.atoms,Phrase.atoms,words]
      rfl
    · exact Phrase.eval_eq_of_words_eq same

private theorem inner_of_readAs (c : Connective) {a : Asked} {p : Phrase α .disjunction}
    (read : a.ReadAs p) (shared : 1 < d.conditionCount) :
    ∃ o : Phrase α c.inner, o.text = Layout.sql (d.conditionLayout a) ∧
      o.atoms = p.atoms ∧ ∀ truth, o.eval truth = p.eval truth := by
  obtain ⟨o,text,atoms,eval⟩ := operand_of_readAs read shared
  cases c with
  | and => exact ⟨o,text,atoms,eval⟩
  | or => exact ⟨Phrase.alone .and o,text,atoms,eval⟩

private theorem inners_of_readAs (c : Connective)
    (read : List.Forall₂ Asked.ReadAs asked phrases) (shared : 1 < d.conditionCount) :
    ∃ os : List (Phrase α c.inner),
      os.map Phrase.text = (asked.map d.conditionLayout).map Layout.sql ∧
      os.flatMap Phrase.atoms = phrases.flatMap Phrase.atoms ∧
      ∀ truth, os.map (Phrase.eval truth) = phrases.map (Phrase.eval truth) := by
  induction read with
  | nil => exact ⟨[],rfl,rfl,fun _ => rfl⟩
  | cons head _ ih =>
    obtain ⟨o,text,atoms,eval⟩ := inner_of_readAs c head shared
    obtain ⟨os,texts,atoms',evals⟩ := ih
    refine ⟨o :: os,?_,?_,fun truth => ?_⟩
    · rw [List.map_cons,text,texts]
      rfl
    · rw [List.flatMap_cons,atoms,atoms']
      rfl
    · rw [List.map_cons,eval,evals]
      rfl

private theorem separated_reads (c : Connective)
    (read : List.Forall₂ Asked.ReadAs asked phrases) (nonempty : asked ≠ [])
    (shared : 1 < d.conditionCount) :
    ∃ p : Phrase α c.outer,
      p.Conveys (Layout.separated c.separator (asked.map d.conditionLayout)) phrases
        fun truth => c.holds (phrases.map (Phrase.eval truth)) := by
  obtain ⟨os,texts,atoms,evals⟩ := inners_of_readAs c read shared
  cases os with
  | nil =>
    have empty : asked = [] := by simpa using texts
    exact absurd empty nonempty
  | cons o os =>
    refine ⟨Phrase.joined c o os,?_,?_,fun truth => ?_⟩
    · rw [Phrase.text_joined,texts,Layout.sql_separated]
    · rw [Phrase.atoms_joined,atoms]
    · rw [Phrase.eval_joined,evals]

private theorem conjunction_of_shared (read : List.Forall₂ Asked.ReadAs d.conjuncts phrases)
    (nonempty : d.conjuncts ≠ []) (shared : 1 < d.conditionCount) :
    ∃ c : Phrase α .conjunction,
      c.Conveys d.conjunction phrases fun truth => phrases.all (Phrase.eval truth) := by
  obtain ⟨c,text,atoms,evals⟩ := separated_reads .and read nonempty shared
  have conveys : c.Conveys (Layout.separated " AND " (d.conjuncts.map d.conditionLayout)) phrases
      fun truth => phrases.all (Phrase.eval truth) :=
    ⟨text,atoms,by simpa [Connective.holds,List.all_map] using evals⟩
  rw [conjunction]
  -- Parentheses around all of the conditions change nothing of what they mean.
  split
  · refine ⟨.alone .and (Phrase.alone .or c).enclosed,?_,by simpa using conveys.atoms,
      by simpa using conveys.eval⟩
    rw [Layout.sql_enclosed,← conveys.text]
    simp
  · exact ⟨c,conveys⟩

private theorem conditionLayout_alone (a : Asked) (alone : d.conditionCount = 1) :
    d.conditionLayout a = a.layout := by
  rw [conditionLayout,if_neg (by simp [alone])]

private theorem conjunction_of_alone (read : List.Forall₂ Asked.ReadAs d.conjuncts phrases)
    (nonempty : d.conjuncts ≠ []) (alone : d.conditionCount = 1) :
    ∃ p : Phrase α .disjunction,
      p.Conveys d.conjunction phrases fun truth => phrases.all (Phrase.eval truth) := by
  have none : d.disjuncts = [] := by
    have some := List.length_pos_iff.mpr nonempty
    exact List.eq_nil_of_length_eq_zero (by rw [conditionCount] at alone; omega)
  obtain ⟨a,one⟩ : ∃ a, d.conjuncts = [a] := by
    rwa [conditionCount,none,List.length_nil,Nat.add_zero,List.length_eq_one_iff] at alone
  rw [one] at read
  obtain _ | ⟨readAs,_ | _⟩ := read
  rename_i p
  refine ⟨p,?_,by simp,by simp⟩
  rw [conjunction,one,none,readAs.text]
  simp [conditionLayout_alone a alone]

private theorem disjunction_of_alone (read : List.Forall₂ Asked.ReadAs d.disjuncts phrases)
    (nonempty : d.disjuncts ≠ []) (alone : d.conditionCount = 1) :
    ∃ p : Phrase α .disjunction,
      p.Conveys d.disjunction phrases fun truth => phrases.any (Phrase.eval truth) := by
  obtain ⟨a,one⟩ : ∃ a, d.disjuncts = [a] := by
    have some := List.length_pos_iff.mpr nonempty
    exact List.length_eq_one_iff.mp (by rw [conditionCount] at alone; omega)
  rw [one] at read
  obtain _ | ⟨readAs,_ | _⟩ := read
  rename_i p
  refine ⟨p,?_,by simp,by simp⟩
  rw [disjunction,one,readAs.text]
  simp [conditionLayout_alone a alone]

theorem conjunction_reads (read : List.Forall₂ Asked.ReadAs d.conjuncts phrases)
    (nonempty : d.conjuncts ≠ []) :
    ∃ p : Phrase α .disjunction,
      p.Conveys d.conjunction phrases fun truth => phrases.all (Phrase.eval truth) := by
  have some : 0 < d.conjuncts.length := List.length_pos_iff.mpr nonempty
  rcases Nat.lt_or_ge 1 d.conditionCount with shared | few
  · obtain ⟨c,conveys⟩ := conjunction_of_shared read nonempty shared
    exact ⟨.alone .or c,conveys.text,conveys.atoms,conveys.eval⟩
  · exact conjunction_of_alone read nonempty (by rw [conditionCount] at few ⊢; omega)

theorem disjunction_reads (read : List.Forall₂ Asked.ReadAs d.disjuncts phrases)
    (nonempty : d.disjuncts ≠ []) :
    ∃ p : Phrase α .disjunction,
      p.Conveys d.disjunction phrases fun truth => phrases.any (Phrase.eval truth) := by
  have some : 0 < d.disjuncts.length := List.length_pos_iff.mpr nonempty
  rcases Nat.lt_or_ge 1 d.conditionCount with shared | few
  · obtain ⟨p,text,atoms,evals⟩ := separated_reads .or read nonempty shared
    exact ⟨p,text,atoms,by simpa [Connective.holds,List.any_map] using evals⟩
  · exact disjunction_of_alone read nonempty (by rw [conditionCount] at few ⊢; omega)

theorem whereLayout_reads {conditions alternatives : List (Phrase α .disjunction)}
    (readConditions : List.Forall₂ Asked.ReadAs d.conjuncts conditions)
    (readAlternatives : List.Forall₂ Asked.ReadAs d.disjuncts alternatives)
    (some : 0 < d.conditionCount) :
    ∃ p : Phrase α .disjunction,
      Layout.sql d.whereLayout = " WHERE " ++ p.text ∧
      p.atoms = (conditions ++ alternatives).flatMap Phrase.atoms ∧
      ∀ truth, p.eval truth = Phrase.asked truth conditions alternatives := by
  rw [List.flatMap_append]
  cases conjuncts : d.conjuncts with
  | nil =>
    cases disjuncts : d.disjuncts with
    | nil => simp [conditionCount,conjuncts,disjuncts] at some
    | cons o os =>
      obtain ⟨p,conveys⟩ := disjunction_reads readAlternatives (by simp [disjuncts])
      rw [conjuncts] at readConditions
      rw [disjuncts] at readAlternatives
      cases readConditions
      cases readAlternatives
      refine ⟨p,?_,by simpa using conveys.atoms,by simpa [Phrase.asked] using conveys.eval⟩
      simp [whereLayout,conjuncts,disjuncts,conveys.text,Stretch.sql]
  | cons a as =>
    have nonempty : d.conjuncts ≠ [] := by simp [conjuncts]
    cases disjuncts : d.disjuncts with
    | nil =>
      obtain ⟨p,conveys⟩ := conjunction_reads readConditions nonempty
      rw [disjuncts] at readAlternatives
      cases readAlternatives
      refine ⟨p,?_,by simpa using conveys.atoms,by simpa [Phrase.asked] using conveys.eval⟩
      simp [whereLayout,conjuncts,disjuncts,conveys.text,Stretch.sql]
    | cons o os =>
      have shared : 1 < d.conditionCount := by
        rw [conditionCount,conjuncts,disjuncts,List.length_cons,List.length_cons]
        omega
      obtain ⟨c,conveys⟩ := conjunction_of_shared readConditions nonempty shared
      obtain ⟨p,conveys'⟩ := disjunction_reads readAlternatives (by simp [disjuncts])
      rw [conjuncts] at readConditions
      rw [disjuncts] at readAlternatives
      cases readConditions
      cases readAlternatives
      refine ⟨.link .or c p,?_,?_,fun truth => ?_⟩
      · simp [whereLayout,conjuncts,disjuncts,conveys.text,conveys'.text,Stretch.sql,
          Connective.separator]
      · rw [Phrase.atoms_link,conveys.atoms,conveys'.atoms]
      · rw [Phrase.eval_link,conveys.eval,conveys'.eval]
        simp [Phrase.asked,Connective.holds]

theorem sql_whereLayout_eq_empty_iff (d : Draft) :
    Layout.sql d.whereLayout = "" ↔ d.conditionCount = 0 := by
  rw [whereLayout,conditionCount]
  cases d.conjuncts <;> cases d.disjuncts <;> simp [Stretch.sql]

end Draft

/-- The three statements that have conditions, as they are written with this clause for them. -/
structure Pending.HasClause (q : Pending) (clause : String) : Prop where
  select : ∀ s, q.toSelect = .ok s ↔ ∃ name, q.Names name ∧
    s = ⟨.select,"SELECT " ++ q.columnsText ++ " FROM " ++ name ++ q.joinsText ++ clause ++
      q.groupByText ++ q.orderByText ++ q.limitText,q.whereParameters⟩
  update : ∀ row s, q.toUpdate row = .ok s ↔ row.isEmpty = false ∧ ∃ name, q.Names name ∧
    s = ⟨.update,"UPDATE " ++ name ++ " SET " ++
      ", ".intercalate (row.columns.map (· ++ " = ?")) ++ clause,row.values ++ q.whereParameters⟩
  delete : ∀ s, q.toDelete = .ok s ↔ ∃ name, q.Names name ∧
    s = ⟨.delete,"DELETE FROM " ++ name ++ clause,q.whereParameters⟩

theorem Pending.hasClause_whereText (q : Pending) : q.HasClause q.whereText where
  select _ := toSelect_ok_iff
  update _ _ := toUpdate_ok_iff
  delete _ := toDelete_ok_iff

/-- The clause of a statement says what was asked for, whatever is true of the atoms. -/
theorem whereText_reads (calls : List Clause)
    {conditions alternatives : List (Phrase α .disjunction)}
    (readConditions : List.Forall₂ Asked.ReadAs (Draft.ofClauses calls).conjuncts conditions)
    (readAlternatives :
      List.Forall₂ Asked.ReadAs (Draft.ofClauses calls).disjuncts alternatives) :
    (Pending.ofClauses calls).HasClause (Pending.ofClauses calls).whereText ∧
    ((Pending.ofClauses calls).whereText = "" ↔ (Draft.ofClauses calls).conditionCount = 0) ∧
    (0 < (Draft.ofClauses calls).conditionCount →
      ∃ p : Phrase α .disjunction,
        (Pending.ofClauses calls).whereText = " WHERE " ++ p.text ∧
        p.atoms = (conditions ++ alternatives).flatMap Phrase.atoms ∧
        (∀ f rest, Reads .disjunction (p.words.map Word.sign) f rest →
          f = p.formula ∧ rest = []) ∧
        ∀ truth, p.eval truth = Phrase.asked truth conditions alternatives) := by
  have placed := (Pending.ofClauses calls).hasClause_whereText
  refine ⟨placed,?_⟩
  rw [(Draft.matches_ofClauses calls).whereText_eq]
  refine ⟨Draft.sql_whereLayout_eq_empty_iff _,fun some => ?_⟩
  obtain ⟨p,text,atoms,eval⟩ := Draft.whereLayout_reads readConditions readAlternatives some
  exact ⟨p,text,atoms,fun f rest => p.reads_unique,eval⟩

theorem whereText_reads_mixed :
    ∃ p : Phrase Nat .disjunction, ∃ s,
      (Pending.ofClauses [.raw "banned = false OR vip",.alternative "role" "=" (.text "admin"),
        .table "users",.condition "age" ">" (.int 18)]).toDelete = .ok s ∧
      s.sql = "DELETE FROM users WHERE " ++ p.text ∧
      p.text = "((banned = false OR vip) AND age > ?) OR role = ?" ∧
      ∀ truth, p.eval truth = ((truth 0 || truth 1) && truth 2 || truth 3) := by
  let atom (n : Nat) (text : String) (shown : Text.allBlank text.toList = false) :
      Phrase Nat .conjunction := .alone .and (.ofAtom n ⟨.atom n,text,rfl,shown⟩ rfl)
  let banned := atom 0 "banned = false" rfl
  let vip := atom 1 "vip" rfl
  let age := atom 2 "age > ?" rfl
  let role := atom 3 "role = ?" rfl
  have raw : (Asked.raw "banned = false OR vip").ReadAs (.link .or banned (.alone .or vip)) :=
    ⟨by decide,by simp [Asked.isRaw]⟩
  have older : (Asked.comparison "age" ">" (.int 18)).ReadAs (.alone .or age) :=
    ⟨by decide,fun _ => ⟨_,_,rfl,rfl⟩⟩
  have admin : (Asked.comparison "role" "=" (.text "admin")).ReadAs (.alone .or role) :=
    ⟨by decide,fun _ => ⟨_,_,rfl,rfl⟩⟩
  obtain ⟨placed,_,reads⟩ := whereText_reads [.raw "banned = false OR vip",
    .alternative "role" "=" (.text "admin"),.table "users",.condition "age" ">" (.int 18)]
    (.cons raw (.cons older .nil)) (.cons admin .nil)
  obtain ⟨p,text,_,_,eval⟩ := reads (by decide)
  rw [text] at placed
  have named : (Pending.ofClauses [.raw "banned = false OR vip",
      .alternative "role" "=" (.text "admin"),.table "users",
      .condition "age" ">" (.int 18)]).Names "users" := ⟨rfl,'u',by decide,rfl⟩
  refine ⟨p,_,(placed.delete _).mpr ⟨"users",named,rfl⟩,?_,?_,fun truth => ?_⟩
  · have head : "DELETE FROM " ++ "users" ++ " WHERE " = "DELETE FROM users WHERE " := by decide
    rw [← String.append_assoc,head]
  · have whole : " WHERE " ++ p.text =
        " WHERE " ++ "((banned = false OR vip) AND age > ?) OR role = ?" := by
      rw [← text]
      decide
    exact (String.append_right_inj _).mp whole
  · rw [eval]
    simp [Phrase.asked,Phrase.eval,Phrase.link,Phrase.alone,Phrase.ofAtom,Connective.formula,
      Formula.eval,atom,banned,vip,age,role]

end FluentSql

import FluentSql.Proofs.Row.Lookup
import Mathlib.Data.Rat.Defs

/-! Documents over any kind of numbers. An object lists its members as they are mentioned, so a name
may come twice; a document that is kept as a whole has no such object. -/
namespace FluentSql

section Fields

variable {α β : Type}

theorem put_map (name : String) (value : α) (f : α → β) (fields : List (String × α)) :
    (put name value fields).map (fun field => (field.1,f field.2)) =
      put name (f value) (fields.map fun field => (field.1,f field.2)) := by
  induction fields with
  | nil => rfl
  | cons field rest ih =>
    simp only [put,List.map_cons]
    split
    · rfl
    · rw [List.map_cons,ih]

theorem putAll_map (f : α → β) (assignments : List (String × α)) :
    (putAll assignments).map (fun field => (field.1,f field.2)) =
      putAll (assignments.map fun field => (field.1,f field.2)) := by
  induction assignments using List.reverseRecOn with
  | nil => rfl
  | append_singleton assignments assignment ih =>
    rw [List.map_append,putAll,putAll,List.foldl_append,List.foldl_append]
    exact (put_map _ _ f (putAll assignments)).trans (congrArg (put assignment.1 _) ih)

theorem put_of_notMem {name : String} (value : α) {fields : List (String × α)}
    (fresh : name ∉ fields.map (·.1)) : put name value fields = fields ++ [(name,value)] := by
  induction fields with
  | nil => rfl
  | cons field rest ih =>
    rw [List.map_cons,List.mem_cons,not_or] at fresh
    rw [put,if_neg (Ne.symm fresh.1),ih fresh.2,List.cons_append]

theorem putAll_of_nodup {fields : List (String × α)} (once : (fields.map (·.1)).Nodup) :
    putAll fields = fields := by
  induction fields using List.reverseRecOn with
  | nil => rfl
  | append_singleton fields field ih =>
    rw [List.map_append] at once
    obtain ⟨front,-,apart⟩ := List.nodup_append.mp once
    have fresh : field.1 ∉ fields.map (·.1) := fun member =>
      apart _ member _ (List.mem_singleton_self _) rfl
    rw [putAll,List.foldl_append]
    change put field.1 field.2 (putAll fields) = _
    rw [ih front,put_of_notMem _ fresh]

end Fields

namespace Json

inductive Tree (ν : Type)
  | null
  | bool (b : Bool)
  | number (n : ν)
  | string (s : String)
  | array (items : List (Tree ν))
  | object (members : List (String × Tree ν))

/-- A document whose numbers count by their exact values. -/
abbrev Document := Tree ℚ

namespace Tree

variable {ν μ : Type}

theorem sizeOf_item_lt {items : List (Tree ν)} {t : Tree ν} (member : t ∈ items) :
    sizeOf t < sizeOf (Tree.array items) := by
  rw [array.sizeOf_spec]
  exact Nat.lt_add_left 1 (List.sizeOf_lt_of_mem member)

theorem sizeOf_member_lt {members : List (String × Tree ν)} {m : String × Tree ν}
    (member : m ∈ members) : sizeOf m.2 < sizeOf (Tree.object members) := by
  have inside := List.sizeOf_lt_of_mem member
  obtain ⟨name,t⟩ := m
  rw [Prod.mk.sizeOf_spec] at inside
  rw [object.sizeOf_spec]
  change sizeOf t < _
  omega

/-- Another document with numbers and members replaced, from the inside out. -/
def translate (f : ν → μ) (g : List (String × Tree μ) → List (String × Tree μ)) : Tree ν → Tree μ
  | .null => .null
  | .bool b => .bool b
  | .number n => .number (f n)
  | .string s => .string s
  | .array items => .array (items.map fun t => t.translate f g)
  | .object members => .object (g (members.map fun m => (m.1,m.2.translate f g)))
decreasing_by
  · exact sizeOf_item_lt ‹_›
  · exact sizeOf_member_lt ‹_›

@[elab_as_elim]
theorem induction {P : Tree ν → Prop} (null : P .null) (bool : ∀ b, P (.bool b))
    (number : ∀ n, P (.number n)) (string : ∀ s, P (.string s))
    (array : ∀ items, (∀ t ∈ items, P t) → P (.array items))
    (object : ∀ members, (∀ m ∈ members, P m.2) → P (.object members)) (t : Tree ν) : P t :=
  @Tree.rec ν P (fun items => ∀ t ∈ items, P t) (fun members => ∀ m ∈ members, P m.2)
    (fun m => P m.2) null bool number string array object nofun
    (fun _ _ head tail => List.forall_mem_cons.mpr ⟨head,tail⟩) nofun
    (fun _ _ head tail => List.forall_mem_cons.mpr ⟨head,tail⟩) (fun _ _ value => value) t

/-- No object names a member twice, and all numbers are kept. -/
inductive Keeps (kept : ν → Prop) : Tree ν → Prop
  | null : Keeps kept .null
  | bool (b : Bool) : Keeps kept (.bool b)
  | number {n : ν} (same : kept n) : Keeps kept (.number n)
  | string (s : String) : Keeps kept (.string s)
  | array {items : List (Tree ν)} (all : ∀ t ∈ items, Keeps kept t) : Keeps kept (.array items)
  | object {members : List (String × Tree ν)} (once : (members.map (·.1)).Nodup)
    (all : ∀ m ∈ members, Keeps kept m.2) : Keeps kept (.object members)

theorem names_eq {f : Tree ν → μ} (members : List (String × Tree ν)) :
    (members.map fun m => (m.1,f m.2)).map (·.1) = members.map (·.1) := by
  rw [List.map_map]
  rfl

/-- A document stays the same exactly if nothing in it is lost: no member and no number. -/
theorem translate_putAll_eq_iff (held written : ν → μ) (t : Tree ν) :
    t.translate held putAll = t.translate written id ↔ t.Keeps fun n => held n = written n := by
  induction t using Tree.induction with
  | null => simp only [translate,Keeps.null]
  | bool b => simp only [translate,Keeps.bool]
  | string s => simp only [translate,Keeps.string]
  | number n =>
    rw [translate,translate,Tree.number.injEq]
    exact ⟨fun same => .number same,fun | .number same => same⟩
  | array items ih =>
    rw [translate,translate,Tree.array.injEq,List.map_inj_left]
    constructor
    · exact fun same => .array fun t member => (ih t member).mp (same t member)
    · rintro (_ | _ | _ | _ | all) t member
      exact (ih t member).mpr (all t member)
  | object members ih =>
    rw [translate,translate,Tree.object.injEq]
    have alike : (∀ m ∈ members,
        (m.1,m.2.translate held putAll) = (m.1,m.2.translate written id)) ↔
        ∀ m ∈ members, m.2.Keeps fun n => held n = written n := by
      refine forall₂_congr fun m member => ?_
      rw [← ih m member,Prod.mk.injEq,eq_self,true_and]
    have unmerged (once : (members.map (·.1)).Nodup) :
        putAll (members.map fun m => (m.1,m.2.translate held putAll)) =
          members.map fun m => (m.1,m.2.translate held putAll) :=
      putAll_of_nodup (names_eq (f := fun t => t.translate held putAll) members ▸ once)
    constructor
    · intro same
      have once : (members.map (·.1)).Nodup := by
        have names := congrArg (List.map (·.1)) same
        rw [id,names_eq] at names
        exact names ▸ nodup_putAll _
      rw [unmerged once] at same
      exact .object once (alike.mp (List.map_inj_left.mp same))
    · rintro (_ | _ | _ | _ | _ | ⟨once,all⟩)
      rw [unmerged once]
      exact List.map_inj_left.mpr (alike.mpr all)

theorem translate_id (t : Tree ν) : t.translate id id = t := by
  induction t using Tree.induction with
  | null => rw [translate]
  | bool b => rw [translate]
  | number n => rw [translate,id]
  | string s => rw [translate]
  | array items ih =>
    rw [translate]
    exact congrArg Tree.array ((List.map_congr_left ih).trans (List.map_id' items))
  | object members ih =>
    have same : ∀ m ∈ members, (m.1,m.2.translate id id) = m := fun m member =>
      Prod.ext rfl (ih m member)
    rw [translate]
    exact congrArg Tree.object ((List.map_congr_left same).trans (List.map_id' members))

theorem translate_translate {κ : Type} (f : ν → μ) (g : μ → κ) (t : Tree ν) :
    (t.translate f id).translate g id = t.translate (g ∘ f) id := by
  induction t using Tree.induction with
  | null => simp only [translate]
  | bool b => simp only [translate]
  | number n => simp only [translate,Function.comp]
  | string s => simp only [translate]
  | array items ih =>
    simp only [translate,List.map_map]
    exact congrArg Tree.array (List.map_congr_left ih)
  | object members ih =>
    simp only [translate,id,List.map_map]
    exact congrArg Tree.object (List.map_congr_left fun m member => Prod.ext rfl (ih m member))

theorem translate_injective {f : ν → μ} {g : μ → ν} (inverse : Function.LeftInverse g f) :
    Function.Injective fun t : Tree ν => t.translate f id := by
  have back : Function.LeftInverse (fun t : Tree μ => t.translate g id) fun t => t.translate f id := by
    intro t
    change (t.translate f id).translate g id = t
    rw [translate_translate,inverse.comp_eq_id,translate_id]
  exact back.injective

theorem Keeps.mono {kept other : ν → Prop} (weaker : ∀ n, kept n → other n) {t : Tree ν}
    (keeps : t.Keeps kept) : t.Keeps other := by
  induction keeps with
  | null => exact .null
  | bool b => exact .bool b
  | number same => exact .number (weaker _ same)
  | string s => exact .string s
  | array _ ih => exact .array ih
  | object once _ ih => exact .object once ih

end Tree
end Json
end FluentSql

import FluentSql.Text.Blank
import FluentSql.Uuid

/-! Identifiers read back from their text. The text is 36 ASCII characters without blanks, so
it is read as five groups and trimming leaves it as it is. -/
namespace FluentSql

namespace Text

theorem skipBlanks_of_forall {cs : List Char} (solid : ∀ c ∈ cs, isBlank c = false) :
    skipBlanks cs = cs := by
  cases cs with
  | nil => rfl
  | cons c rest => exact skipBlanks_cons_of_not_blank rest (solid c List.mem_cons_self)

theorem trim_of_forall {cs : List Char} (solid : ∀ c ∈ cs, isBlank c = false) :
    trim cs = cs := by
  rw [trim,skipBlanks_of_forall solid,skipBlanks_of_forall,List.reverse_reverse]
  intro c member
  exact solid c (List.mem_reverse.mp member)

end Text

namespace Hex

theorem value?_digitChar : ∀ digit < 16, value? (Nat.digitChar digit) = some digit := by decide

@[simp] theorem length_render (bytes : List UInt8) : (render bytes).length = 2 * bytes.length := by
  induction bytes with
  | nil => rfl
  | cons b rest ih =>
    rw [render,List.flatMap_cons,List.length_append,← render,ih,List.length_cons,pair]
    simp only [List.length_cons,List.length_nil]
    omega

theorem render_append (a b : List UInt8) : render (a ++ b) = render a ++ render b :=
  List.flatMap_append

theorem readPairs_render (bytes : List UInt8) : readPairs (render bytes) = bytes := by
  induction bytes with
  | nil => rfl
  | cons b rest ih =>
    have below := b.toNat_lt
    have high := value?_digitChar (b.toNat / 16) (by omega)
    have low := value?_digitChar (b.toNat % 16) (by omega)
    change UInt8.ofNat _ :: readPairs (render rest) = _
    rw [ih,high,low,Option.getD_some,Option.getD_some,Nat.div_add_mod',UInt8.ofNat_toNat]

/-- What holds of the sixteen digits holds of every character that is written. -/
theorem forall_mem_render {P : Char → Prop} (digits : ∀ digit < 16, P (Nat.digitChar digit))
    (bytes : List UInt8) : ∀ c ∈ render bytes, P c := by
  intro c member
  obtain ⟨b,-,inPair⟩ := List.mem_flatMap.mp member
  have below := b.toNat_lt
  simp only [pair,List.mem_cons,List.not_mem_nil,or_false] at inPair
  rcases inPair with rfl | rfl
  · exact digits _ (by omega)
  · exact digits _ (by omega)

theorem hyphen_notMem_render (bytes : List UInt8) : '-' ∉ render bytes := fun member =>
  forall_mem_render (P := (· ≠ '-')) (by decide) bytes '-' member rfl

end Hex

namespace Uuid

theorem of?_bytes (u : Uuid) : of? u.bytes = some u := dif_pos u.size_eq

/-- What holds of the hyphen and of the sixteen digits holds of every character of the text. -/
theorem forall_mem_render {P : Char → Prop} (hyphen : P '-')
    (digits : ∀ digit < 16, P (Nat.digitChar digit)) (u : Uuid) : ∀ c ∈ u.render, P c := by
  have group := fun bytes => Hex.forall_mem_render digits bytes
  intro c member
  simp only [render,List.mem_append,List.mem_cons] at member
  rcases member with (((inA | rfl | inB) | rfl | inC) | rfl | inD) | rfl | inE
  all_goals first | exact hyphen | exact group _ c ‹_›

theorem length_render (u : Uuid) : u.render.length = 36 := by
  have := u.size_eq
  simp only [render,List.length_append,List.length_cons,Hex.length_render,List.length_take,
    List.length_drop]
  omega

theorem byteLength_of_ascii {cs : List Char} (ascii : ∀ c ∈ cs, c.utf8Size = 1) :
    byteLength cs = cs.length := by
  induction cs with
  | nil => rfl
  | cons c rest ih =>
    have first := ascii c List.mem_cons_self
    have others := ih fun d member => ascii d (List.mem_cons_of_mem c member)
    rw [byteLength] at others ⊢
    rw [List.foldr_cons,others,first,List.length_cons,Nat.add_comm]

theorem firstStray_eq_none {cs : List Char} (offset : Nat)
    (known : ∀ c ∈ cs, c = '-' ∨ (Hex.value? c).isSome) : firstStray offset cs = none := by
  induction cs generalizing offset with
  | nil => rfl
  | cons c rest ih =>
    rw [firstStray,if_pos (known c List.mem_cons_self)]
    exact ih _ fun d member => known d (List.mem_cons_of_mem c member)

theorem splitOn_render (u : Uuid) : Text.splitOn '-' u.render =
    [Hex.render (u.bytes.take 4),Hex.render ((u.bytes.drop 4).take 2),
      Hex.render ((u.bytes.drop 6).take 2),Hex.render ((u.bytes.drop 8).take 2),
      Hex.render (u.bytes.drop 10)] := by
  simp only [render,List.append_assoc,List.cons_append,
    Text.splitOn_append_cons (Hex.hyphen_notMem_render _),
    Text.splitOn_of_notMem (Hex.hyphen_notMem_render _)]

private theorem take_append_drop_add (bytes : List UInt8) (start count : Nat) :
    (bytes.drop start).take count ++ bytes.drop (start + count) = bytes.drop start := by
  rw [← List.drop_drop,List.take_append_drop]

private theorem groups_append (bytes : List UInt8) :
    bytes.take 4 ++ ((bytes.drop 4).take 2 ++ ((bytes.drop 6).take 2 ++
      ((bytes.drop 8).take 2 ++ bytes.drop 10))) = bytes := by
  rw [take_append_drop_add bytes 8 2,take_append_drop_add bytes 6 2,
    take_append_drop_add bytes 4 2,List.take_append_drop]

theorem ofDigits_render (u : Uuid) : ofDigits (Hex.render u.bytes) = .ok u := by
  rw [ofDigits,Hex.readPairs_render,of?_bytes]

theorem readGroups_render (length offset : Nat) (u : Uuid) :
    readGroups length offset u.render = .ok u := by
  have known := firstStray_eq_none offset
    (forall_mem_render (P := fun c => c = '-' ∨ (Hex.value? c).isSome) (by decide) (by decide) u)
  have size := u.size_eq
  rw [readGroups,known]
  simp only [splitOn_render,groupError?,Hex.length_render,List.length_take,List.length_drop,size]
  simp [← Hex.render_append,groups_append,ofDigits_render]

theorem read_render (u : Uuid) : read u.render = .ok u := by
  have ascii := byteLength_of_ascii
    (forall_mem_render (P := fun c => c.utf8Size = 1) (by decide) (by decide) u)
  rw [length_render] at ascii
  rw [read,ascii]
  split
  rw [if_pos rfl,readGroups_render]

theorem trim_render (u : Uuid) : Text.trim u.render = u.render :=
  Text.trim_of_forall
    (forall_mem_render (P := fun c => Text.isBlank c = false) (by decide) (by decide) u)

end Uuid
end FluentSql

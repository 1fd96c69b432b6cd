import FluentSql.Proofs.Json.Kept
import FluentSql.Proofs.Traversal
import FluentSql.Proofs.Wire.Bytes
import FluentSql.Wire.Decode
import FluentSql.Wire.Encode

/-! Documents in JSON columns. The text of a document is read and written out again both on its way
to a column and on its way from one. -/
namespace FluentSql.Wire
open Json

/-- The text of a JSON cell. That of JSONB has the version in front. -/
def ColumnType.jsonText? : ColumnType → Bytes → Option String
  | .json, bytes => toText? bytes
  | .jsonb, b :: rest => if b = 1 then toText? rest else none
  | _, _ => none

/-- What a text becomes: text of the same document exactly if no object in it repeats a name and all
its numbers are kept. Integers of 64 bits and short decimals are, and what is kept is writable. -/
def Rewrites (s out : String) : Prop := ∃ t : Json.Tree Literal, IsText t s.toList ∧
  (Denotes out.toList t.document ↔ t.Keeps Literal.Kept) ∧
  (t.Keeps (fun lit => lit.IsWord ∨ lit.IsShort) → Denotes out.toList t.document) ∧
  (Denotes out.toList t.document → t.Keeps fun lit => IsWritable lit.value)

variable {s : String} {ty : ColumnType} {bytes : Bytes}

theorem rewrites_of_read {j : Json} (read : Json.read s.toList = some j) : Rewrites s j.render := by
  obtain ⟨t,text,same⟩ := denotes_render_iff read
  refine ⟨t,text,same,fun small => same.mpr (small.mono ?_),fun denotes => (same.mp denotes).mono ?_⟩
  · rintro lit (word | short)
    · exact word.kept
    · exact short.kept
  · exact fun lit kept => kept.isWritable

theorem decodeJson?_eq_some {v : Value} (found : decodeJson? bytes = some v) :
    ∃ s out, toText? bytes = some s ∧ v = .text out ∧ Rewrites s out := by
  simp only [decodeJson?,Option.bind_eq_bind,Option.bind_eq_some_iff] at found
  obtain ⟨s,text,j,read,same⟩ := found
  cases same
  exact ⟨s,_,text,rfl,rewrites_of_read read⟩

theorem bind_json (json : ty ∈ [ColumnType.json,.jsonb])
    (sent : bind (.text s) ty = .ok (some bytes)) :
    ∃ out, ty.jsonText? bytes = some out ∧ Rewrites s out := by
  have sent : bindText s ty = .ok bytes := (Traversal.map_some_ok_iff ..).mp sent
  simp only [List.mem_cons,List.not_mem_nil,or_false] at json
  rcases json with rfl | rfl
  · simp only [bindText,ColumnType.integerType?] at sent
    split at sent
    next j read =>
      cases sent
      exact ⟨_,toText?_ofText _,rewrites_of_read read⟩
    next => cases sent
  · simp only [bindText,ColumnType.integerType?] at sent
    split at sent
    next j read =>
      cases sent
      exact ⟨_,toText?_ofText _,rewrites_of_read read⟩
    next => cases sent

theorem decodeBytes?_of_decode {v : Value} (found : decode ty (some bytes) = .ok v) :
    decodeBytes? bytes ty = some v := by
  rw [decode] at found
  split at found
  · cases found
  · split at found
    next value =>
      cases found
      exact value
    next => cases found

theorem decode_json {v : Value} (json : ty ∈ [ColumnType.json,.jsonb])
    (found : decode ty (some bytes) = .ok v) :
    ∃ s out, ty.jsonText? bytes = some s ∧ v = .text out ∧ Rewrites s out := by
  have found := decodeBytes?_of_decode found
  simp only [List.mem_cons,List.not_mem_nil,or_false] at json
  rcases json with rfl | rfl
  · exact decodeJson?_eq_some found
  · cases bytes with
    | nil => cases found
    | cons b rest =>
      simp only [decodeBytes?] at found
      split at found
      next version =>
        obtain ⟨s,out,text,same,rewrites⟩ := decodeJson?_eq_some found
        exact ⟨s,out,(if_pos version).trans text,same,rewrites⟩
      next => cases found

/-- The same law holds for what is sent to a JSON column, for what is read from one, and for what is
sent back of that. -/
theorem json_rewrites (json : ty ∈ [ColumnType.json,.jsonb]) :
    (∀ s bytes, bind (.text s) ty = .ok (some bytes) →
      ∃ out, ty.jsonText? bytes = some out ∧ Rewrites s out) ∧
    ∀ bytes v, decode ty (some bytes) = .ok v →
      ∃ s out, ty.jsonText? bytes = some s ∧ v = .text out ∧ Rewrites s out ∧
        ∀ back, bind v ty = .ok (some back) →
          ∃ again, ty.jsonText? back = some again ∧ Rewrites out again := by
  refine ⟨fun s bytes => bind_json json,fun bytes v found => ?_⟩
  obtain ⟨s,out,cell,rfl,rewrites⟩ := decode_json json found
  exact ⟨s,out,cell,rfl,rewrites,fun back => bind_json json⟩

theorem not_isWritable_two_pow : ¬ IsWritable (2 ^ 64) := by
  rintro (⟨n,-,small,same⟩ | ⟨negative,c,e,short,same⟩)
  · have : (2 ^ 64 : ℤ) = n := by exact_mod_cast same
    omega
  · have power : (0 : ℚ) ≤ c * 10 ^ e := by positivity
    have value : (2 ^ 64 : ℚ) = c * 10 ^ e := by
      cases negative with
      | false => exact same
      | true =>
        rw [withSign,if_pos rfl] at same
        linarith
    rcases Int.lt_or_le 0 e with up | down
    · obtain ⟨k,rfl⟩ : ∃ k : ℕ, e = k + 1 := ⟨(e - 1).toNat,by omega⟩
      have value : 18446744073709551616 = c * 10 ^ k * 10 := by
        rw [mul_assoc,← Nat.pow_succ]
        exact_mod_cast value
      omega
    · have small : (c : ℚ) * 10 ^ e ≤ c := mul_le_of_le_one_right (Nat.cast_nonneg c)
        (zpow_le_one_of_nonpos₀ (by norm_num) down)
      have : (c : ℚ) < (10 ^ 17 : ℕ) := Nat.cast_lt.mpr short
      push_cast at this
      linarith

/-- The least integer beyond 64 bits is sent as another number. -/
theorem json_rewrites_beyond : ColumnType.json ∈ [ColumnType.json,.jsonb] ∧
    bind (.text "18446744073709551616") .json = .ok (some (ofText "1.8446744073709552e+19")) ∧
    Denotes "18446744073709551616".toList (.number (2 ^ 64)) ∧
    ¬ Denotes "1.8446744073709552e+19".toList (.number (2 ^ 64)) := by
  have sent : bind (.text "18446744073709551616") .json =
      .ok (some (ofText "1.8446744073709552e+19")) := by
    have read : Json.read "18446744073709551616".toList =
        some (.number (.real ⟨0x43f0000000000000⟩)) := read_of_number (by decide +kernel)
    have text : (Json.number (.real ⟨0x43f0000000000000⟩)).render = "1.8446744073709552e+19" := by
      rw [render]
      decide +kernel
    simp only [bind,bindText,ColumnType.integerType?,read,text]
    rfl
  obtain ⟨lit,chars,value⟩ : IsNumber "18446744073709551616".toList (2 ^ 64) := by
    have digits : Numeral.renderInt (2 ^ 64) = "18446744073709551616".toList := by decide +kernel
    have number := isNumber_renderInt (2 ^ 64)
    rw [digits] at number
    exact_mod_cast number
  have document := document_number lit
  rw [value] at document
  obtain ⟨out,cell,t,text,-,-,writable⟩ := (json_rewrites (by decide)).1 _ _ sent
  obtain rfl := Option.some.inj ((toText?_ofText _).symm.trans cell)
  obtain rfl := text.unique (chars ▸ isText_number lit)
  refine ⟨by decide,sent,⟨_,text,document⟩,fun denotes => ?_⟩
  cases writable (document ▸ denotes) with
  | number kept => exact not_isWritable_two_pow (value ▸ kept)

end FluentSql.Wire

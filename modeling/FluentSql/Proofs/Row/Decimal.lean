import FluentSql.Proofs.Row.Travel
import FluentSql.Proofs.Wire.Number

/-! Integers and decimals in columns of decimals. Each of them comes back as a decimal of the same
number, and a decimal other than zero as it was, with its sign and its scale. -/
namespace FluentSql
open Wire

/-- What is sent for a number, and the decimal that comes back. -/
structure TravelsAs (v : Value) (bytes : Bytes) (d : Decimal) : Prop where
  sent : bind v .numeric = .ok (some bytes)
  /-- On the wire stands the number of the value, -/
  held : ColumnType.number? .numeric bytes = v.number?
  received : decode .numeric (some bytes) = .ok (.decimal d)
  /-- which is that of the decimal, -/
  same : v.number? = some d.number
  /-- and access gives the decimal as it came. -/
  read : ∀ (before after : List (String × Value)) (column : String), column ∉ before.map (·.1) →
    (Row.ofFields (before ++ (column,.decimal d) :: after)).getAs Decimal column = .ok d

theorem exists_travelsAs {v : Value} {e : Decimal} (number : v.number? = some e.number)
    (sent : bind v .numeric = .ok (some (Numeric.encode e))) :
    ∃ d, TravelsAs v (Numeric.encode e) d ∧ (e.isZero = false → d = e) := by
  obtain ⟨d,decoded,same,kept⟩ := Numeric.exists_decode?_number e
  have cell : decodeBytes? (Numeric.encode e) .numeric = some (.decimal d) := by
    rw [decodeBytes?,decoded,Option.map_some]
  refine ⟨d,⟨sent,?_,decode_of_decodeBytes? cell,?_,?_⟩,kept⟩
  · rw [number,ColumnType.number?,Numeric.number?_encode]
  · rw [number,same]
  · intro before after column first
    exact Row.getAs_ofFields rfl first after

/-- Every 64-bit integer and every decimal travels by a column of decimals. -/
theorem travels_numeric :
    (∀ n : Int64, ∃ bytes d, TravelsAs (.int n) bytes d) ∧
    ∀ e : Decimal, ∃ bytes d, TravelsAs (.decimal e) bytes d ∧ (e.isZero = false → d = e) := by
  constructor
  · intro n
    have number : (Value.int n).number? = some (Decimal.ofInt64 n).number :=
      congrArg some (Decimal.number_ofInt64 n).symm
    obtain ⟨d,travels,_⟩ := exists_travelsAs number rfl
    exact ⟨_,d,travels⟩
  · intro e
    obtain ⟨d,travels,kept⟩ := exists_travelsAs (v := .decimal e) rfl rfl
    exact ⟨_,d,travels,kept⟩

/-- A negative decimal of the greatest scale, whose last four digits are zeros. -/
theorem travels_numeric_least :
    let e : Decimal := ⟨true,10000,28,by decide,by decide⟩
    e.isZero = false ∧ ∃ bytes, TravelsAs (.decimal e) bytes e := by
  intro e
  have nonzero : e.isZero = false := rfl
  obtain ⟨bytes,d,travels,kept⟩ := travels_numeric.2 e
  obtain rfl := kept nonzero
  exact ⟨nonzero,bytes,travels⟩

end FluentSql

import FluentSql.Failure

/-! Rows of a result: column names and as many values. A name may occur more than once. -/
namespace FluentSql

structure Row where
  columns : List String
  values : List Value
  aligned : columns.length = values.length
  deriving DecidableEq

namespace Row

def of? (columns : List String) (values : List Value) : Except Failure Row :=
  if h : columns.length = values.length then .ok ⟨columns,values,h⟩
  else .error (.unexpectedResult
    ("row has " ++ toString columns.length ++ " columns but " ++ toString values.length ++
      " values"))

def ofFields (fields : List (String × Value)) : Row :=
  ⟨fields.map (·.1),fields.map (·.2),by simp⟩

def fields (r : Row) : List (String × Value) := r.columns.zip r.values

def size (r : Row) : Nat := r.values.length
def isEmpty (r : Row) : Bool := r.values.isEmpty

def get? (r : Row) (column : String) : Option Value :=
  (r.fields.find? (·.1 = column)).map (·.2)

def getAt? (r : Row) (index : Nat) : Option Value := r.values[index]?

/-- An object in the order of the columns; of a name that occurs more than once, the last
value stands in the first place. -/
def toJson (r : Row) : Json := Json.ofAssignments (r.fields.map fun (c,v) => (c,v.toJson))

@[simp] theorem columns_ofFields (fields : List (String × Value)) :
    (ofFields fields).columns = fields.map (·.1) := rfl

@[simp] theorem values_ofFields (fields : List (String × Value)) :
    (ofFields fields).values = fields.map (·.2) := rfl

theorem map_fst_fields (r : Row) : r.fields.map (·.1) = r.columns := by
  rw [fields]
  exact List.map_fst_zip (Nat.le_of_eq r.aligned)

end Row
end FluentSql

/-!
# Documents

The values that problems, options and results are exchanged in. Whole numbers and doubles are told
apart, and the fields of an object keep their order.
-/

namespace SimplexMethod.Document

/-- A document. -/
inductive Value where
  | null
  | bool (value : Bool)
  | int (value : Int)
  | float (value : Float)
  | string (value : String)
  | list (items : List Value)
  | object (fields : List (String × Value))
deriving Inhabited

namespace Value

/-- The value of the first field of that name; nothing if the document is no object. -/
def field? (value : Value) (name : String) : Option Value :=
  match value with
  | object fields => fields.lookup name
  | _ => none

/-- The value of a field, null if it is missing. -/
def fieldD (value : Value) (name : String) : Value :=
  (value.field? name).getD null

end Value

end SimplexMethod.Document

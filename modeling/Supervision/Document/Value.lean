/-!
# Values to be written as documents

What is exported is built as a `Value` first: nothing, truth values, whole numbers, texts, lists,
and objects with their fields in order.
-/

namespace Supervision.Document

/-- A value to be written. -/
inductive Value where
  | null
  | bool (b : Bool)
  | int (n : Int)
  | text (s : String)
  | list (items : List Value)
  | object (fields : List (String × Value))
deriving Inhabited

namespace Value

/-- A text that may be missing. -/
def text? : Option String → Value
  | some s => text s
  | none => null

end Value

end Supervision.Document

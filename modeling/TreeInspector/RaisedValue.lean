import TreeInspector.Number.Text

/-!
# Raised values

A value of any kind can be raised in place of an error. It is then described by its text.
-/

set_option autoImplicit false

namespace TreeInspector

/-- A value that is raised in place of an error. -/
inductive RaisedValue where
  | absent
  | null
  | truth (value : Bool)
  | number (value : Number)
  | text (value : String)
  | list (items : List RaisedValue)
  | record

namespace RaisedValue

/-- The value is missing. -/
def isMissing : RaisedValue → Bool
  | .absent | .null => true
  | _ => false

mutual

/-- The text of a value. A missing item leaves its place in a list empty. -/
def describe : RaisedValue → String
  | .absent => "undefined"
  | .null => "null"
  | .truth value => if value then "true" else "false"
  | .number value => value.text
  | .text value => value
  | .list items => ",".intercalate (describeAll items)
  | .record => "[object Object]"

/-- The texts of the items of a list. -/
def describeAll : List RaisedValue → List String
  | [] => []
  | item :: rest => (if item.isMissing then "" else item.describe) :: describeAll rest

end

end RaisedValue

end TreeInspector

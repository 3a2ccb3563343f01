import QueryForest.Data.NameMap
import QueryForest.Numeric.Binary

namespace QueryForest

/-!
# JSON values

* `Json` is a JSON value; numbers are integers or binary floating-point numbers, and the members of
  an object stand in the order of their names, each name once;
* `Json.ofMembers` builds an object from members of which the last of a name counts;
* `Json.ofBinary` is the value for a floating-point number.
-/

/-- A JSON value. -/
inductive Json
  | null
  | bool (value : Bool)
  | int (value : Int)
  | float (value : Binary64)
  | string (value : String)
  | array (items : List Json)
  | object (members : List (String × Json))

namespace Json

/-- An object; of members with one name the last counts. -/
def ofMembers (members : List (String × Json)) : Json :=
  object (NameMap.ofList members).toList

/-- A floating-point number; those that JSON cannot write become null. -/
def ofBinary (x : Binary64) : Json := if x.isFinite then float x else null

end Json

end QueryForest

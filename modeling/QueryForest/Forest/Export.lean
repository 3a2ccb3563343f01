import QueryForest.Forest.Record
import QueryForest.Json.Basic
import QueryForest.Text.Base64

namespace QueryForest

/-!
# Exporting records

A record becomes a JSON object with its values under the names of the fields and its slots, as
arrays, under their names; a slot wins over a field of the same name.
-/

/-- The JSON of a value: NULL and numbers that are not finite become null, bytes become base64. -/
def Scalar.toJson : Scalar → Json
  | boolean (some b) => .bool b
  | int32 (some n) => .int n.toInt
  | int64 (some n) => .int n.toInt
  | uint32 (some n) => .int n.toNat
  | uint64 (some n) => .int n.toNat
  | float (some x) => .ofBinary (x.convert .double)
  | double (some x) => .ofBinary x
  | text (some s) | date (some s) | time (some s) | timestamp (some s) => .string s
  | binary (some bytes) => .string (String.ofList (Base64.encode bytes))
  | _ => .null

namespace Record

mutual

/-- The JSON object of a record. -/
def toJson : Record → Json
  | ⟨_, values, slots⟩ => .ofMembers (values.map (fun e => (e.1, e.2.toJson)) ++ slotsJson slots)

/-- The members for the slots of a record. -/
def slotsJson : List (String × List Record) → List (String × Json)
  | [] => []
  | (name, records) :: rest => (name, .array (forestJson records)) :: slotsJson rest

/-- The items for a list of records. -/
def forestJson : List Record → List Json
  | [] => []
  | r :: rest => r.toJson :: forestJson rest

end

end Record

/-- The JSON array of a forest. -/
def exportForest (forest : List Record) : Json := .array (Record.forestJson forest)

end QueryForest

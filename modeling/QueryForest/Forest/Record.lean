import QueryForest.Data.Assoc
import QueryForest.Model.Basic
import QueryForest.Value.Scalar

namespace QueryForest

/-!
# Records

A `Record` is an instance of a model: values of declared fields, in the order of their declaration,
and one slot of records for each relation that was asked for, under the related table's name.

* `RecordBuilder` collects values and `RecordBuilder.build` makes the record;
* `Record.get?` and `Record.primaryKey?` read a value, `Record.related?` a slot;
* `Record.ensureSlot` opens a slot.
-/

/-- An instance of a model with its related records. -/
structure Record where
  model : Model
  values : List (String × Scalar)
  slots : List (String × List Record)

namespace Record

/-- The value of a field. -/
def get? (r : Record) (field : String) : Option Scalar := Assoc.get? field r.values

/-- The value of the primary key. -/
def primaryKey? (r : Record) : Option Scalar := r.get? r.model.primaryKey

/-- The records of a slot. -/
def related? (r : Record) (slot : String) : Option (List Record) := Assoc.get? slot r.slots

/-- Opens an empty slot behind the others, unless it is open. -/
def ensureSlot (r : Record) (slot : String) : Record :=
  match r.related? slot with
  | some _ => r
  | none => { r with slots := r.slots ++ [(slot, [])] }

/-- Replaces the records of a slot. -/
def setSlot (r : Record) (slot : String) (records : List Record) : Record :=
  { r with slots := Assoc.set slot records r.slots }

/-- Whether the primary key is there and equal to a value. -/
def hasKey (key : Scalar) (r : Record) : Bool :=
  match r.primaryKey? with
  | some own => own.same key
  | none => false

end Record

/-- A record under construction: values of declared fields in the order of first setting. -/
structure RecordBuilder where
  model : Model
  values : List (String × Scalar)

namespace RecordBuilder

/-- Nothing set. -/
def ofModel (model : Model) : RecordBuilder := ⟨model, []⟩

/-- Sets a field, over an earlier value; fields that the model does not declare are ignored. -/
def set (b : RecordBuilder) (field : String) (value : Scalar) : RecordBuilder :=
  if b.model.declares field then { b with values := Assoc.set field value b.values } else b

/-- Sets the fields of a list in order. -/
def setAll (b : RecordBuilder) (entries : List (String × Scalar)) : RecordBuilder :=
  entries.foldl (fun b e => b.set e.1 e.2) b

/-- The record, its values in the order of their first declaration, without slots. -/
def build (b : RecordBuilder) : Record :=
  let place (name : String) : Nat := b.model.fields.idxOf name
  ⟨b.model, b.values.mergeSort fun x y => place x.1 ≤ place y.1, []⟩

end RecordBuilder

end QueryForest

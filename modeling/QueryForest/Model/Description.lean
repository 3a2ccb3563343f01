import QueryForest.Model.Basic
import QueryForest.Text.Quoted

namespace QueryForest

/-!
# Relations in messages

A relation is shown with the table of its target and its foreign key.
-/

/-- A relation to the model with a given table, as messages show it. -/
def Relation.description (table : String) (r : Relation) : List Char :=
  "Relation \x7b table: ".toList ++ Quoted.text table ++ ", foreign_key: ".toList ++
    Quoted.text r.foreignKey ++ " \x7d".toList

end QueryForest

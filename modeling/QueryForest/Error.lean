namespace QueryForest

/-!
# Errors

* `ConfigurationError` is a mistake in how a statement was put together;
* `ResolutionError` is a relation or a joined value that cannot be found;
* `Error` is either of them, a failure reported by the database, a condition whose operator holds a
  placeholder of its own, or an insertion whose columns and values do not match.
-/

/-- A statement was put together wrongly. -/
inductive ConfigurationError
  /-- A condition given in parts has neither two nor three of them. -/
  | conditionArity (length : Nat)
  /-- A part of a condition that names something is not a text. -/
  | conditionPart (position : Nat) (found : String)
  /-- An insertion or an update without fields. -/
  | emptyFieldList (statement table : String)
  /-- A word that is no direction of an ordering. -/
  | unsupportedOrdering (field keyword : String)
  /-- A bind value without a database value. -/
  | unsupportedValue (value : String)
  deriving DecidableEq

/-- A relation or a joined value was not found. -/
inductive ResolutionError
  /-- A model was asked for a relation it does not have. -/
  | unknownRelation (model relation : String)
  /-- A column occurs in a row less often than the layout of the tables needs. -/
  | missingOccurrence (column table : String) (index occurrences : Nat)
  /-- A table takes part in a query twice. -/
  | ambiguousJoin (table : String)
  deriving DecidableEq

/-- What can go wrong from building a statement to assembling its rows. -/
inductive Error
  | configuration (cause : ConfigurationError)
  | resolution (cause : ResolutionError)
  /-- The database reported a failure. -/
  | execution (report : String)
  /-- A condition holds more placeholders than values. -/
  | unboundPlaceholder
  /-- An insertion has a different number of columns and values. -/
  | valueCount (columns values : Nat)
  deriving DecidableEq

/-- The text of a configuration error. -/
def ConfigurationError.message : ConfigurationError → String
  | conditionArity length =>
    "condition must have 2 or 3 parts (field, [operator,] value), got " ++ toString length
  | conditionPart position found =>
    "condition part " ++ toString position ++ " must be a string, got " ++ found
  | emptyFieldList statement table =>
    "no fields given for " ++ statement ++ " on `" ++ table ++ "`"
  | unsupportedOrdering field keyword =>
    "order by keyword `" ++ keyword ++ "` not supported for `" ++ field ++ "`"
  | unsupportedValue value =>
    "unsupported value `" ++ value ++ "`: convert it explicitly before building the query"

/-- The text of a resolution error. -/
def ResolutionError.message : ResolutionError → String
  | unknownRelation model relation =>
    "`" ++ relation ++ "` is not related to `" ++ model ++ "` by has_many, has_one or belongs_to"
  | missingOccurrence column table index occurrences =>
    "column `" ++ column ++ "` of `" ++ table ++ "` expects occurrence " ++ toString index ++
      ", row only has " ++ toString occurrences
  | ambiguousJoin table => "`" ++ table ++ "` is already part of the query; join it once"

/-- The text of an error. -/
def Error.message : Error → String
  | configuration cause => "configuration error: " ++ cause.message
  | resolution cause => "resolution error: " ++ cause.message
  | execution report => report
  | unboundPlaceholder => "a condition holds more placeholders than values"
  | valueCount columns values =>
    "Columns and values length mismatch: " ++ toString columns ++ " != " ++ toString values

end QueryForest

import QueryForest.Row
import QueryForest.Sql.Fragment

namespace QueryForest

/-!
# Connections

A `Connection σ` runs queries against a database whose state is a `σ`; it may fail with a report.
-/

/-- What a statement that returns no rows reports. -/
structure Outcome where
  rowsAffected : UInt64
  lastInsertId : Scalar
  deriving DecidableEq

/-- A database that is asked for rows by `query` and made to change by `exec`. -/
structure Connection (σ : Type) where
  query : Query → σ → Except String (List Row) × σ
  exec : Query → σ → Except String Outcome × σ

end QueryForest

import QueryForest.Connection.Basic

namespace QueryForest

/-!
# Scripted connections

A connection that gives prepared replies one after the other, whatever it is asked, and writes down
the calls it gets.
-/

/-- A prepared reply. -/
inductive Reply
  | fail (report : String)
  | rows (rows : List Row)
  | outcome (outcome : Outcome)

/-- A call that a connection got. -/
inductive Call
  | query (query : Query)
  | exec (query : Query)
  deriving DecidableEq

/-- The replies still to give and the calls so far, in order. -/
structure Script where
  replies : List Reply
  calls : List Call

namespace Script

/-- A script from which no call has been answered. -/
def ofReplies (replies : List Reply) : Script := ⟨replies, []⟩

/-- Takes the reply for a call; a script that is used up fails. -/
def answer {α : Type} (call : Call) (read : Reply → Except String α) (s : Script) :
    Except String α × Script :=
  let calls := s.calls ++ [call]
  match s.replies with
  | [] => (.error "script exhausted", ⟨[], calls⟩)
  | .fail report :: rest => (.error report, ⟨rest, calls⟩)
  | reply :: rest => (read reply, ⟨rest, calls⟩)

/-- The rows of a reply. -/
def readRows : Reply → Except String (List Row)
  | .rows rows => .ok rows
  | .fail report => .error report
  | .outcome _ => .error "no rows in the reply"

/-- The outcome of a reply. -/
def readOutcome : Reply → Except String Outcome
  | .outcome outcome => .ok outcome
  | .fail report => .error report
  | .rows _ => .error "no outcome in the reply"

/-- The connection that answers from a script. -/
def connection : Connection Script where
  query q := answer (.query q) readRows
  exec q := answer (.exec q) readOutcome

end Script

end QueryForest

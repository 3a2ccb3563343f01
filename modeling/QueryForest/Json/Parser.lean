import QueryForest.Json.Token

namespace QueryForest.Json

/-!
# Reading JSON

`Json.read?` reads a JSON text, token by token, with a stack of the arrays and objects that are
open. At most 127 of them may be open at once, and of members with one name the last counts.
-/

/-- An array or an object that is open, with what it holds so far, the last first. An object also
has the name of the member that comes next. -/
inductive Frame
  | array (items : List Json)
  | object (members : List (String × Json)) (name : String)

/-- What may come next. -/
inductive Expectation
  | value
  /-- The first item of an array, or its end. -/
  | firstItem
  /-- The name of the first member of an object, or its end. -/
  | firstName
  | name
  | colon
  /-- A comma, or the end of what is open. -/
  | separator
  /-- Nothing more. -/
  | done (result : Json)

/-- Where the reading of a JSON text stands. -/
structure ReadState where
  frames : List Frame
  expectation : Expectation

namespace ReadState

/-- The largest number of arrays and objects that are open at once. -/
def maxDepth : Nat := 127

/-- Opens an array or an object. -/
def push (s : ReadState) (frame : Frame) (expectation : Expectation) : Option ReadState :=
  if s.frames.length < maxDepth then some ⟨frame :: s.frames, expectation⟩ else none

/-- Enters a value into what is open, or ends with it. -/
def complete (value : Json) : List Frame → ReadState
  | [] => ⟨[], .done value⟩
  | .array items :: rest => ⟨.array (value :: items) :: rest, .separator⟩
  | .object members name :: rest => ⟨.object ((name, value) :: members) name :: rest, .separator⟩

/-- Closes the innermost array. -/
def closeArray (s : ReadState) : Option ReadState :=
  match s.frames with
  | .array items :: rest => some (complete (.array items.reverse) rest)
  | _ => none

/-- Closes the innermost object. -/
def closeObject (s : ReadState) : Option ReadState :=
  match s.frames with
  | .object members _ :: rest => some (complete (.ofMembers members.reverse) rest)
  | _ => none

/-- Takes the name of the next member. -/
def takeName (s : ReadState) (name : String) : Option ReadState :=
  match s.frames with
  | .object members _ :: rest => some ⟨.object members name :: rest, .colon⟩
  | _ => none

/-- Takes a token where a value may start. -/
def takeValue (s : ReadState) : Token → Option ReadState
  | .openArray => s.push (.array []) .firstItem
  | .openObject => s.push (.object [] "") .firstName
  | .string text => some (complete (.string text) s.frames)
  | .value v => some (complete v s.frames)
  | _ => none

/-- Takes the comma behind an item or a member. -/
def takeComma (s : ReadState) : Option ReadState :=
  match s.frames with
  | .array _ :: _ => some ⟨s.frames, .value⟩
  | .object .. :: _ => some ⟨s.frames, .name⟩
  | [] => none

/-- Takes the next token. -/
def step (s : ReadState) (t : Token) : Option ReadState :=
  match s.expectation, t with
  | .value, t => s.takeValue t
  | .firstItem, .closeArray => s.closeArray
  | .firstItem, t => s.takeValue t
  | .firstName, .closeObject => s.closeObject
  | .firstName, .string name => s.takeName name
  | .name, .string name => s.takeName name
  | .colon, .colon => some ⟨s.frames, .value⟩
  | .separator, .comma => s.takeComma
  | .separator, .closeArray => s.closeArray
  | .separator, .closeObject => s.closeObject
  | _, _ => none

end ReadState

/-- Reads a JSON text. -/
def read? (cs : List Char) : Option Json := do
  let tokens ← Token.scan? cs
  let final ← tokens.foldlM ReadState.step ⟨[], .value⟩
  match final.expectation with
  | .done result => some result
  | _ => none

end QueryForest.Json

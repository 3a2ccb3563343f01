import QueryForest.Json.Numeral

namespace QueryForest.Json

/-!
# JSON tokens

* `Token` is a bracket, a separator, a text or another value without parts;
* `Token.scan?` cuts a text into tokens, leaving out the blanks between them.
-/

/-- The smallest piece of a JSON text. -/
inductive Token
  | openArray
  | closeArray
  | openObject
  | closeObject
  | colon
  | comma
  | string (value : String)
  | value (value : Json)

namespace Token

/-- The number that a hexadecimal digit stands for. -/
def hexDigit? (c : Char) : Option Nat :=
  if c.isDigit then some (c.toNat - 48)
  else if 'a' ≤ c ∧ c ≤ 'f' then some (c.toNat - 87)
  else if 'A' ≤ c ∧ c ≤ 'F' then some (c.toNat - 55)
  else none

/-- The number that four hexadecimal digits stand for. -/
def hex4? (a b c d : Char) : Option Nat := do
  let a ← hexDigit? a
  let b ← hexDigit? b
  let c ← hexDigit? c
  let d ← hexDigit? d
  some (((a * 16 + b) * 16 + c) * 16 + d)

/-- The character that stands behind a backslash for another one. -/
def escaped? (c : Char) : Option Char :=
  if c = '"' ∨ c = '\\' ∨ c = '/' then some c
  else if c = 'b' then some '\x08'
  else if c = 'f' then some '\x0c'
  else if c = 'n' then some '\n'
  else if c = 'r' then some '\r'
  else if c = 't' then some '\t'
  else none

/-- A character of a text, or a number that stands for one or for half of one. -/
inductive TextUnit
  | char (c : Char)
  | code (n : Nat)

/-- Reads a text up to its closing quote. Controls stand only in escaped form. -/
def units? : List Char → Option (List TextUnit × List Char)
  | [] => none
  | '"' :: rest => some ([], rest)
  | '\\' :: 'u' :: a :: b :: c :: d :: rest =>
    (hex4? a b c d).bind fun n => (units? rest).map fun r => (.code n :: r.1, r.2)
  | '\\' :: e :: rest =>
    (escaped? e).bind fun c => (units? rest).map fun r => (.char c :: r.1, r.2)
  | c :: rest =>
    if c.toNat < 0x20 ∨ c = '\\' then none
    else (units? rest).map fun r => (.char c :: r.1, r.2)

/-- Reading a text uses up at least its closing quote. -/
theorem units?_length {cs rest : List Char} {units : List TextUnit}
    (h : units? cs = some (units, rest)) : rest.length < cs.length := by
  fun_induction units? cs generalizing units rest with
  | case1 => simp at h
  | case2 => simp at h; simp [h.2]
  | case3 a b c d tail ih =>
    obtain ⟨n, -, h⟩ := Option.bind_eq_some_iff.1 h
    obtain ⟨⟨u, r⟩, hr, he⟩ := Option.map_eq_some_iff.1 h
    obtain ⟨-, rfl⟩ := Prod.mk.inj he
    have := ih hr
    simp only [List.length_cons]
    omega
  | case4 e tail _ ih =>
    obtain ⟨c, -, h⟩ := Option.bind_eq_some_iff.1 h
    obtain ⟨⟨u, r⟩, hr, he⟩ := Option.map_eq_some_iff.1 h
    obtain ⟨-, rfl⟩ := Prod.mk.inj he
    have := ih hr
    simp only [List.length_cons]
    omega
  | case5 => simp at h
  | case6 c tail _ _ _ _ ih =>
    obtain ⟨⟨u, r⟩, hr, he⟩ := Option.map_eq_some_iff.1 h
    obtain ⟨-, rfl⟩ := Prod.mk.inj he
    have := ih hr
    simp only [List.length_cons]
    omega

/-- The characters of a text. A number between U+D800 and U+DBFF is the first half of a character,
and the number of its second half, between U+DC00 and U+DFFF, must follow. -/
def joinUnits? : List TextUnit → Option (List Char)
  | [] => some []
  | .char c :: rest => (joinUnits? rest).map (c :: ·)
  | .code high :: .code low :: rest =>
    if 0xD800 ≤ high ∧ high < 0xDC00 then
      if 0xDC00 ≤ low ∧ low < 0xE000 then
        (joinUnits? rest).map
          (Char.ofNat (0x10000 + (high - 0xD800) * 1024 + (low - 0xDC00)) :: ·)
      else none
    else if 0xDC00 ≤ high ∧ high < 0xE000 then none
    else (joinUnits? (.code low :: rest)).map (Char.ofNat high :: ·)
  | .code n :: rest =>
    if 0xD800 ≤ n ∧ n < 0xE000 then none
    else (joinUnits? rest).map (Char.ofNat n :: ·)

/-- Reads a text up to its closing quote. -/
def text? (cs : List Char) : Option (String × List Char) :=
  (units? cs).bind fun r => (joinUnits? r.1).map fun text => (String.ofList text, r.2)

/-- A text in quotes is consumed. -/
theorem text?_length {cs rest : List Char} {text : String} (h : text? cs = some (text, rest)) :
    rest.length < cs.length := by
  obtain ⟨⟨u, r⟩, hr, h⟩ := Option.bind_eq_some_iff.1 h
  obtain ⟨t, -, he⟩ := Option.map_eq_some_iff.1 h
  simp only [Prod.mk.injEq] at he
  exact he.2 ▸ units?_length hr

/-- Reads the rest of a word. -/
def word? (word : List Char) (value : Json) (cs : List Char) : Option (Token × List Char) :=
  if word.isPrefixOf cs then some (.value value, cs.drop word.length) else none

/-- The token that is a single character. -/
def symbol? (c : Char) : Option Token :=
  if c = '[' then some openArray
  else if c = ']' then some closeArray
  else if c = '\x7b' then some openObject
  else if c = '\x7d' then some closeObject
  else if c = ':' then some colon
  else if c = ',' then some comma
  else none

/-- Reads a number. -/
def number? (cs : List Char) : Option (Token × List Char) :=
  (Numeral.read? cs).bind fun r => r.1.value?.map fun number => (value number, r.2)

/-- Reads the token that starts with `c`. -/
def next? (c : Char) (rest : List Char) : Option (Token × List Char) :=
  match symbol? c with
  | some symbol => some (symbol, rest)
  | none =>
    if c = '"' then (text? rest).map fun r => (string r.1, r.2)
    else if c = 'n' then word? "ull".toList .null rest
    else if c = 't' then word? "rue".toList (.bool true) rest
    else if c = 'f' then word? "alse".toList (.bool false) rest
    else number? (c :: rest)

/-- Reading a word leaves no more than there was. -/
theorem word?_length {word cs rest : List Char} {value : Json} {t : Token}
    (h : word? word value cs = some (t, rest)) : rest.length ≤ cs.length := by
  unfold word? at h
  split at h
  · simp only [Option.some.injEq, Prod.mk.injEq] at h
    simp [← h.2]
  · simp at h

/-- A number is consumed. -/
theorem number?_length {cs rest : List Char} {t : Token} (h : number? cs = some (t, rest)) :
    rest.length < cs.length := by
  obtain ⟨⟨n, r⟩, hr, h⟩ := Option.bind_eq_some_iff.1 h
  obtain ⟨v, -, he⟩ := Option.map_eq_some_iff.1 h
  obtain ⟨-, rfl⟩ := Prod.mk.inj he
  exact Numeral.read?_length hr

/-- Reading a token uses up at least its first character. -/
theorem next?_length {c : Char} {cs rest : List Char} {t : Token}
    (h : next? c cs = some (t, rest)) : rest.length ≤ cs.length := by
  unfold next? at h
  split at h
  · obtain ⟨-, rfl⟩ := Prod.mk.inj (Option.some.inj h)
    exact Nat.le_refl _
  · split at h
    · obtain ⟨⟨s, r⟩, hr, he⟩ := Option.map_eq_some_iff.1 h
      obtain ⟨-, rfl⟩ := Prod.mk.inj he
      exact Nat.le_of_lt (text?_length hr)
    · split at h
      · exact word?_length h
      · split at h
        · exact word?_length h
        · split at h
          · exact word?_length h
          · exact Nat.le_of_lt_succ (number?_length h)

/-- Whether a character may stand between tokens. -/
def isSpace (c : Char) : Bool := c = ' ' || c = '\n' || c = '\t' || c = '\r'

/-- The tokens of a text. -/
def scan? (cs : List Char) : Option (List Token) :=
  match cs with
  | [] => some []
  | c :: rest =>
    if isSpace c then scan? rest
    else
      match h : next? c rest with
      | none => none
      | some (token, rest') =>
        have : rest'.length ≤ rest.length := next?_length h
        (scan? rest').map (token :: ·)
termination_by cs.length

end Token

end QueryForest.Json

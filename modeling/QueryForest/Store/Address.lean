import QueryForest.Text.Digits

namespace QueryForest

/-!
# Addresses of databases

A database is named by a path or by an address, `file:` with a path, parameters behind `?` and a
fragment behind `#` that does not count.

* `Address` is a path with parameters; `Address.ofName?` takes a name apart;
* `Address.decode` replaces `%` and two hexadecimal digits by the byte that they spell.

All texts are sequences of bytes. A zero byte, which only an escape can spell, ends the part that
it stands in.
-/

/-- The path of a database, and parameters with their values. -/
structure Address where
  path : List UInt8
  parameters : List (List UInt8 × List UInt8)
  deriving DecidableEq

namespace Address

/-- The bytes of a text. -/
def bytes (s : String) : List UInt8 := s.toUTF8.data.toList

/-- The byte of an ASCII character. -/
def byte (c : Char) : UInt8 := c.toUInt8

/-- The value of a hexadecimal digit. -/
def hexDigit? (b : UInt8) : Option Nat :=
  let c := Char.ofNat b.toNat
  if c.isDigit then some (c.toNat - 48)
  else if 'a' ≤ c ∧ c ≤ 'f' then some (c.toNat - 87)
  else if 'A' ≤ c ∧ c ≤ 'F' then some (c.toNat - 55)
  else none

/-- Replaces escapes, up to the first zero byte. -/
def decode : List UInt8 → List UInt8
  | [] => []
  | b :: h :: l :: rest =>
    if b = byte '%' then
      match hexDigit? h, hexDigit? l with
      | some high, some low =>
        if 16 * high + low = 0 then [] else UInt8.ofNat (16 * high + low) :: decode rest
      | _, _ => b :: decode (h :: l :: rest)
    else b :: decode (h :: l :: rest)
  | b :: rest => b :: decode rest

/-- The parts of a text between the occurrences of a byte. -/
def split (separator : UInt8) : List UInt8 → List (List UInt8)
  | [] => [[]]
  | b :: rest =>
    match split separator rest with
    | [] => [[b]]
    | part :: parts => if b = separator then [] :: part :: parts else (b :: part) :: parts

/-- The text in front of the first occurrence of a byte, and the one behind it. -/
def cut (separator : UInt8) (bs : List UInt8) : List UInt8 × List UInt8 :=
  (bs.takeWhile (· ≠ separator), (bs.dropWhile (· ≠ separator)).drop 1)

/-- A parameter; one without a name does not count. -/
def parameter? (bs : List UInt8) : Option (List UInt8 × List UInt8) :=
  let (name, value) := cut (byte '=') bs
  if (decode name).isEmpty then none else some (decode name, decode value)

/-- The path and the parameters behind the authority. -/
def ofPath (bs : List UInt8) : Address :=
  let (path, query) := cut (byte '?') (cut (byte '#') bs).1
  ⟨decode path, (split (byte '&') query).filterMap parameter?⟩

/-- Takes the name of a database apart. The authority of an address, between two slashes and the
next one, has to be empty or the local machine. -/
def ofName? (name : List UInt8) : Option Address :=
  if (bytes "file://").isPrefixOf name then
    let authority := (name.drop 7).takeWhile (· ≠ byte '/')
    if authority = [] ∨ authority = bytes "localhost" then
      some (ofPath (name.drop (7 + authority.length)))
    else none
  else if (bytes "file:").isPrefixOf name then some (ofPath (name.drop 5))
  else some ⟨name, []⟩

end Address

end QueryForest

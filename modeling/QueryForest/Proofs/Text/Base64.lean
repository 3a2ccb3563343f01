import Mathlib.Data.List.Basic
import QueryForest.Text.Base64

namespace QueryForest.Base64

/-!
# Base64 text that is read back

* `decode` — the bytes of a base64 text: four characters stand for 24 bits, and at the end two or
  three characters with padding for one or two bytes, whose spare bits have to be zero;
* `decode_encode` — the text that is written for bytes is read back as these bytes.
-/

/-- The six-bit number that a character stands for. -/
def value? (c : Char) : Option Nat :=
  if 'A' ≤ c ∧ c ≤ 'Z' then some (c.toNat - 65)
  else if 'a' ≤ c ∧ c ≤ 'z' then some (c.toNat - 71)
  else if '0' ≤ c ∧ c ≤ '9' then some (c.toNat + 4)
  else if c = '+' then some 62
  else if c = '/' then some 63
  else none

/-- The bytes of a base64 text. -/
def decode : List Char → Option (List UInt8)
  | [] => some []
  | a :: b :: c :: d :: rest =>
    match value? a, value? b, value? c, value? d with
    | some w, some x, some y, some z =>
      let n := ((w * 64 + x) * 64 + y) * 64 + z
      (decode rest).map fun bytes =>
        .ofNat (n / 65536) :: .ofNat (n / 256 % 256) :: .ofNat (n % 256) :: bytes
    | some w, some x, some y, none =>
      let n := (w * 64 + x) * 64 + y
      if d = '=' ∧ rest = [] ∧ n % 4 = 0 then
        some [.ofNat (n / 1024), .ofNat (n / 4 % 256)]
      else none
    | some w, some x, none, none =>
      let n := w * 64 + x
      if c = '=' ∧ d = '=' ∧ rest = [] ∧ n % 16 = 0 then some [.ofNat (n / 16)] else none
    | _, _, _, _ => none
  | _ => none

/-- A character stands for the number it was written for. -/
theorem value?_char {n : Nat} (h : n < 64) : value? (char n) = some n := by
  have hall : ∀ n < 64, value? (char n) = some n := by decide
  exact hall n h

/-- **Base64 text is read back** as the bytes it was written for. -/
theorem decode_encode (bytes : List UInt8) : decode (encode bytes) = some bytes := by
  have hpad : value? '=' = none := by decide
  fun_induction encode bytes with
  | case1 a b c rest n ih =>
    have hb := b.toNat_lt
    have hc := c.toNat_lt
    have hn : n < 16777216 := by
      have ha := a.toNat_lt
      omega
    -- four groups of six bits make up three bytes
    have hgroups : ((n / 262144 * 64 + n / 4096 % 64) * 64 + n / 64 % 64) * 64 + n % 64 = n := by
      omega
    have hfirst : n / 65536 = a.toNat := by omega
    have hsecond : n / 256 % 256 = b.toNat := by omega
    have hthird : n % 256 = c.toNat := by omega
    rw [decode, value?_char (by omega), value?_char (by omega), value?_char (by omega),
      value?_char (by omega)]
    simp only [hgroups, hfirst, hsecond, hthird, ih, UInt8.ofNat_toNat, Option.map_some]
  | case2 a b n =>
    have hb := b.toNat_lt
    have hn : n < 262144 := by
      have ha := a.toNat_lt
      omega
    have hgroups : (n / 4096 * 64 + n / 64 % 64) * 64 + n % 64 = n := by omega
    have hfirst : n / 1024 = a.toNat := by omega
    have hsecond : n / 4 % 256 = b.toNat := by omega
    have hspare : n % 4 = 0 := by omega
    rw [decode, value?_char (by omega), value?_char (by omega), value?_char (by omega), hpad]
    simp only [hgroups, hfirst, hsecond, hspare, UInt8.ofNat_toNat, and_self, if_true]
  | case3 a n =>
    have hn : n < 4096 := by
      have ha := a.toNat_lt
      omega
    have hgroups : n / 64 * 64 + n % 64 = n := by omega
    have hfirst : n / 16 = a.toNat := by omega
    have hspare : n % 16 = 0 := by omega
    rw [decode, value?_char (by omega), value?_char (by omega), hpad]
    simp only [hgroups, hfirst, hspare, UInt8.ofNat_toNat, and_self, if_true]
  | case4 => rfl

end QueryForest.Base64

import QueryForest.Json.Basic
import QueryForest.Numeric.Arithmetic
import QueryForest.Text.Digits

namespace QueryForest.Json

/-!
# JSON numbers

* `Numeral` is the text of a number, taken apart; `Numeral.read?` reads one;
* `Numeral.value?` is the number it stands for.

An integer that fits into 64 bits, signed or unsigned, is that integer; negative zero is not an
integer. Any other number is a floating-point number: the leading digits that fit into 64 bits,
rounded, times or divided by the power of ten that is left over, rounded. A number beyond the
largest finite one has no value.
-/

/-- The parts of a number: sign, digits before and behind the point, sign and digits of the power
of ten. -/
structure Numeral where
  negative : Bool
  whole : List Char
  fraction : Option (List Char)
  power : Option (Bool × List Char)

/-- Digits in front of a text, at least one, and the rest. -/
def digits? (cs : List Char) : Option (List Char × List Char) :=
  if (cs.takeWhile Char.isDigit).isEmpty then none
  else some (cs.takeWhile Char.isDigit, cs.dropWhile Char.isDigit)

/-- Digits are consumed where they are read. -/
theorem digits?_length {cs ds rest : List Char} (h : digits? cs = some (ds, rest)) :
    rest.length < cs.length := by
  unfold digits? at h
  split at h
  · simp at h
  · next hne =>
    simp only [Option.some.injEq, Prod.mk.injEq] at h
    have happ := congrArg List.length
      (List.takeWhile_append_dropWhile (p := Char.isDigit) (l := cs))
    have hpos : 0 < (cs.takeWhile Char.isDigit).length :=
      List.length_pos_iff.2 (by simpa using hne)
    rw [List.length_append] at happ
    rw [← h.2]
    omega

namespace Numeral

/-- Reads the sign. -/
def readSign : List Char → Bool × List Char
  | '-' :: rest => (true, rest)
  | cs => (false, cs)

/-- Reads the fraction, if there is a point. -/
def readFraction? : List Char → Option (Option (List Char) × List Char)
  | '.' :: rest => (digits? rest).map fun (ds, rest) => (some ds, rest)
  | cs => some (none, cs)

/-- Reads the sign of the power of ten. -/
def readPowerSign : List Char → Bool × List Char
  | '-' :: rest => (true, rest)
  | '+' :: rest => (false, rest)
  | cs => (false, cs)

/-- Reads the power of ten, if there is one. -/
def readPower? : List Char → Option (Option (Bool × List Char) × List Char)
  | c :: rest =>
    if c = 'e' ∨ c = 'E' then
      let sign := readPowerSign rest
      (digits? sign.2).map fun (ds, rest) => (some (sign.1, ds), rest)
    else some (none, c :: rest)
  | [] => some (none, [])

/-- Reads a number; a zero in front of other digits is no number. -/
def read? (cs : List Char) : Option (Numeral × List Char) := do
  let (negative, cs) := readSign cs
  let (whole, cs) ← digits? cs
  if whole.head? = some '0' ∧ whole.length ≠ 1 then none
  else
    let (fraction, cs) ← readFraction? cs
    let (power, cs) ← readPower? cs
    some (⟨negative, whole, fraction, power⟩, cs)

/-- Reading a sign leaves no more than there was. -/
theorem readSign_length (cs : List Char) : (readSign cs).2.length ≤ cs.length := by
  unfold readSign
  split <;> simp

/-- Reading the sign of a power leaves no more than there was. -/
theorem readPowerSign_length (cs : List Char) : (readPowerSign cs).2.length ≤ cs.length := by
  unfold readPowerSign
  split <;> simp

/-- Reading a fraction, or none, leaves no more than there was. -/
theorem readFraction?_length {cs rest : List Char} {fraction : Option (List Char)}
    (h : readFraction? cs = some (fraction, rest)) : rest.length ≤ cs.length := by
  unfold readFraction? at h
  split at h
  · obtain ⟨⟨ds, r⟩, hd, he⟩ := Option.map_eq_some_iff.1 h
    simp only [Prod.mk.injEq] at he
    have := digits?_length hd
    simp only [List.length_cons, ← he.2]
    omega
  · simp only [Option.some.injEq, Prod.mk.injEq] at h
    simp [h.2]

/-- Reading a power, or none, leaves no more than there was. -/
theorem readPower?_length {cs rest : List Char} {power : Option (Bool × List Char)}
    (h : readPower? cs = some (power, rest)) : rest.length ≤ cs.length := by
  unfold readPower? at h
  split at h
  · next c tail =>
    split at h
    · obtain ⟨⟨ds, r⟩, hd, he⟩ := Option.map_eq_some_iff.1 h
      simp only [Prod.mk.injEq] at he
      have h1 := digits?_length hd
      have h2 := readPowerSign_length tail
      simp only [List.length_cons, ← he.2]
      omega
    · simp only [Option.some.injEq, Prod.mk.injEq] at h
      simp [← h.2]
  · simp only [Option.some.injEq, Prod.mk.injEq] at h
    simp [← h.2]

/-- Reading a number uses up at least one character. -/
theorem read?_length {cs rest : List Char} {n : Numeral} (h : read? cs = some (n, rest)) :
    rest.length < cs.length := by
  unfold read? at h
  simp only [Option.bind_eq_bind, Option.bind_eq_some_iff, Prod.exists] at h
  obtain ⟨whole, c1, h1, h⟩ := h
  split at h
  · simp at h
  · simp only [Option.bind_eq_some_iff, Prod.exists, Option.some.injEq, Prod.mk.injEq] at h
    obtain ⟨fraction, c2, h2, power, c3, h3, -, rfl⟩ := h
    have := readSign_length cs
    have := digits?_length h1
    have := readFraction?_length h2
    have := readPower?_length h3
    omega

/-- The largest number that the digits of a number are gathered into. -/
def largest : Nat := Nat.pow 2 64 - 1

/-- Gathers digits behind the number `n` as long as it stays within 64 bits, and counts the digits
that are left out. -/
def gather (n : Nat) : List Char → Nat × Nat
  | [] => (n, 0)
  | d :: ds =>
    let next := 10 * n + (d.toNat - 48)
    if next ≤ largest then gather next ds else (n, ds.length + 1)

/-- A power of ten as a floating-point number. -/
def tenTo (k : Nat) : Binary64 := .ofRatio false (Nat.pow 10 k) 1

/-- A number divided by `10 ^ k`, in steps of at most 308 places. -/
def scaleDown (x : Binary64) (k : Nat) : Binary64 :=
  if k ≤ 308 then x.div (tenTo k)
  else if x.magnitude = 0 then x
  else scaleDown (x.div (tenTo 308)) (k - 308)
termination_by k

/-- The floating-point number for `significand * 10 ^ exponent`, if it is finite. -/
def scaled? (significand : Nat) (exponent : Int) : Option Binary64 :=
  let x : Binary64 := .ofRatio false significand 1
  if exponent < 0 then some (scaleDown x exponent.natAbs)
  else if exponent ≤ 308 then
    let y := x.mul (tenTo exponent.natAbs)
    if y.isFinite then some y else none
  else if x.magnitude = 0 then some x
  else none

/-- The value of a number, if it has one. -/
def value? (n : Numeral) : Option Json :=
  let (whole, leftOut) := gather 0 n.whole
  let float (significand : Nat) (exponent : Int) : Option Json :=
    (scaled? significand exponent).map fun x => .float (if n.negative then x.neg else x)
  match n.fraction, n.power with
  | none, none =>
    -- each digit that was left out of an integer counts as a power of ten
    if leftOut ≠ 0 then float whole leftOut
    else if !n.negative then some (.int whole)
    else if whole = 0 ∨ Nat.pow 2 63 < whole then float whole 0
    else some (.int (-whole))
  | fraction, power =>
    let ds := fraction.getD []
    let (significand, unread) := gather whole ds
    let exponent : Int := leftOut - (ds.length - unread : Nat)
    match power with
    | none => float significand exponent
    | some (negative, es) =>
      let e := Digits.value es
      if e ≤ Nat.pow 2 31 - 1 then
        float significand (if negative then exponent - e else exponent + e)
      else if significand = 0 ∨ negative then float 0 0
      else none

end Numeral

end QueryForest.Json

import Mathlib.Algebra.Ring.Int.Defs
import QueryForest.Entity.Fetch
import QueryForest.Proofs.Data.Step
import QueryForest.Store.Session
import QueryForest.Value.Conversion

namespace QueryForest

/-!
# What is stored is read back

A value takes five steps from a caller into a column of the embedded store and back: it becomes a
database value, is bound, stored, read again, and fetched as the type it had. The store has one kind
of integers, signed ones of 64 bits, and all others are taken to it as they wrap around.

* `BindValue.stored?` — what a bind value is stored as, and `BindValue.integer?` the integer that it
  is; `BindValue.stored?_of_integer` says that the first is the second modulo `2 ^ 64`;
* `StoredAs` — what is read from a table into which a bind value was inserted;
* `PlainValue` — values of the types that a store takes without any text for them;
* `PlainValue.readsBack_iff` — these are read back exactly when they fit;
* `stored_readsBack` — the same with the NULLs of all kinds, and which integers are told apart.
-/

/-! ### Stored integers -/

namespace BindValue

/-- The integer that a bind value is, of any width. -/
def integer? : BindValue → Option Int
  | tinyInt v => v.map Int8.toInt
  | smallInt v => v.map Int16.toInt
  | int v => v.map Int32.toInt
  | bigInt v => v.map Int64.toInt
  | tinyUnsigned v => v.map fun n => n.toNat
  | smallUnsigned v => v.map fun n => n.toNat
  | unsigned v => v.map fun n => n.toNat
  | bigUnsigned v => v.map fun n => n.toNat
  | _ => none

/-- What a bind value is stored as, if it has a database value. -/
def stored? (b : BindValue) : Option StoredValue := b.toScalar?.map fun sent => sent.toStored.bound

/-- Wrapping a number of 64 bits is reading its bits as a signed one. -/
theorem ofInt_toNat (n : UInt64) : Int64.ofInt n.toNat = n.toInt64 := by
  rw [← Int64.toBitVec_inj, Int64.toBitVec_ofInt, BitVec.ofInt_natCast]
  exact BitVec.ofNat_toNat 64 n.toBitVec

/-- **Integers wrap around**: they are stored as the signed integers of 64 bits with the same
residue. -/
theorem stored?_of_integer {b : BindValue} {n : Int} (h : b.integer? = some n) :
    b.stored? = some (.integer (Int64.ofInt n)) := by
  -- signed integers are extended by their sign, unsigned ones by zeros, and both keep their value
  have hstored : ∀ k : Int64, b.stored? = some (.integer k) → Int64.ofInt n = k →
      b.stored? = some (.integer (Int64.ofInt n)) := by
    rintro k hk rfl
    exact hk
  cases b <;> simp only [integer?, Option.map_eq_some_iff, reduceCtorEq] at h <;>
    obtain ⟨x, rfl, rfl⟩ := h
  case tinyInt => exact hstored _ rfl (by rw [← Int8.toInt_toInt32, Int64.ofInt_int32ToInt])
  case smallInt => exact hstored _ rfl (by rw [← Int16.toInt_toInt32, Int64.ofInt_int32ToInt])
  case int => exact hstored _ rfl (Int64.ofInt_int32ToInt x)
  case bigInt => exact hstored _ rfl (Int64.ofInt_toInt x)
  case tinyUnsigned =>
    exact hstored _ rfl (by rw [← ofInt_toNat, UInt32.toNat_toUInt64, UInt8.toNat_toUInt32])
  case smallUnsigned =>
    exact hstored _ rfl (by rw [← ofInt_toNat, UInt32.toNat_toUInt64, UInt16.toNat_toUInt32])
  case unsigned => exact hstored _ rfl (by rw [← ofInt_toNat, UInt32.toNat_toUInt64])
  case bigUnsigned => exact hstored _ rfl (ofInt_toNat x)

/-- Two integers are stored alike when they differ by a multiple of `2 ^ 64`. -/
theorem stored?_eq_iff {a b : BindValue} {m n : Int} (hm : a.integer? = some m)
    (hn : b.integer? = some n) : a.stored? = b.stored? ↔ m % 2 ^ 64 = n % 2 ^ 64 := by
  rw [stored?_of_integer hm, stored?_of_integer hn, Option.some_inj, StoredValue.integer.injEq,
    ← Int64.toInt_inj, Int64.toInt_ofInt, Int64.toInt_ofInt]
  have hsize : (2 ^ 64 : Int) = (Int64.size : Nat) := rfl
  rw [hsize]
  constructor
  · intro h
    rw [← Int.bmod_emod, h, Int.bmod_emod]
  · intro h
    rw [← Int.emod_bmod, h, Int.emod_bmod]

end BindValue

/-! ### Reading a table -/

/-- Whether a bind value that is inserted into an empty table is read from it as a given value. -/
def StoredAs (b : BindValue) (found : Scalar) : Prop :=
  ∃ sent reply s, b.toScalar? = some sent ∧ Session.empty.run .insert [sent] = (.ok reply, s) ∧
    (s.run .all []).1 = .ok (.rows [⟨[("id", .int64 (some 1)), ("v", found)]⟩])

/-- A table with one row is read by reading the value of that row. -/
theorem Session.all_singleton (id lastInsertId : Int64) (value : StoredValue) :
    ((⟨[(id, value)], lastInsertId⟩ : Session).run .all []).1 =
      value.toScalar.map fun v => .rows [⟨[("id", .int64 (some id)), ("v", v)]⟩] := by
  show readRows [[("id", .integer id), ("v", value)]] = _
  unfold readRows readRow
  simp only [List.mapM_cons, List.mapM_nil]
  cases value.toScalar <;> rfl

/-- The value that is read is the one that is stored, as the reader of its storage class has it. -/
theorem storedAs_iff {b : BindValue} {found : Scalar} :
    StoredAs b found ↔ ∃ stored, b.stored? = some stored ∧ stored.toScalar = .ok found := by
  have hinsert : ∀ sent, Session.empty.run .insert [sent] =
      (.ok (.outcome ⟨1, .int64 (some 1)⟩), ⟨[(1, sent.toStored.bound)], 1⟩) := fun _ => rfl
  constructor
  · rintro ⟨sent, reply, s, hsent, hrun, hrows⟩
    rw [hinsert] at hrun
    cases hrun
    rw [Session.all_singleton] at hrows
    obtain ⟨v, hread, hrows⟩ := map_eq_ok.1 hrows
    cases hrows
    exact ⟨_, by rw [BindValue.stored?, hsent]; rfl, hread⟩
  · rintro ⟨stored, hstored, hread⟩
    obtain ⟨sent, hsent, rfl⟩ := Option.map_eq_some_iff.1 hstored
    refine ⟨sent, _, _, hsent, hinsert sent, ?_⟩
    rw [Session.all_singleton, hread]
    rfl

/-- A text is read from the store as it was stored. -/
theorem StoredValue.toScalar_text (s : String) :
    (StoredValue.text s.toUTF8.data.toList).toScalar = .ok (.text (some s)) := by
  have hutf8 : String.fromUTF8? s.toUTF8 = some s := by
    simp only [String.fromUTF8?, String.toUTF8_eq_toByteArray, dif_pos s.isValidUTF8]
    rfl
  have hbytes : (⟨s.toUTF8.data.toList.toArray⟩ : ByteArray) = s.toUTF8 := by
    rw [Array.toArray_toList]
  simp only [StoredValue.toScalar, hbytes, hutf8]

/-- What is stored as a text is read from a table as that text. -/
theorem storedAs_text_iff {b : BindValue} {sent found : Scalar} {s : String}
    (hsent : b.toScalar? = some sent) (hstored : sent.toStored = .text s.toUTF8.data.toList) :
    StoredAs b found ↔ found = .text (some s) := by
  have hbound : b.stored? = some (.text s.toUTF8.data.toList) := by
    rw [BindValue.stored?, hsent, Option.map_some, hstored]
    rfl
  rw [storedAs_iff, hbound]
  constructor
  · rintro ⟨stored, hstored, hread⟩
    cases hstored
    rw [StoredValue.toScalar_text] at hread
    exact (Except.ok.inj hread).symm
  · rintro rfl
    exact ⟨_, rfl, StoredValue.toScalar_text s⟩

/-- Any field can hold any value. -/
theorem Record.exists_get? (field : String) (value : Scalar) :
    ∃ record : Record, record.get? field = some value :=
  ⟨⟨⟨0, "", "", [field], [], [], []⟩, [(field, value)], []⟩, by simp [Record.get?, Assoc.get?]⟩

/-! ### Values of plain types -/

/-- A value of a type that a store takes without a text for it. -/
inductive PlainValue
  | bool (value : Bool)
  | int32 (value : Int32)
  | int64 (value : Int64)
  | uint32 (value : UInt32)
  | uint64 (value : UInt64)
  | text (value : String)
  | bytes (value : List UInt8)

namespace PlainValue

/-- The value as it is bound. -/
def bind : PlainValue → BindValue
  | bool b => .bool (some b)
  | int32 n => .int (some n)
  | int64 n => .bigInt (some n)
  | uint32 n => .unsigned (some n)
  | uint64 n => .bigUnsigned (some n)
  | text s => .string (some s)
  | bytes b => .bytes (some b)

/-- The type as which the value is fetched. -/
def type : PlainValue → FieldType
  | bool _ => .bool
  | int32 _ => .int32
  | int64 _ => .int64
  | uint32 _ => .uint32
  | uint64 _ => .uint64
  | text _ => .text
  | bytes _ => .bytes

/-- The value as it is fetched. -/
def fetched : PlainValue → FieldValue
  | bool b => .bool b
  | int32 n => .int32 n
  | int64 n => .int64 n
  | uint32 n => .uint32 n
  | uint64 n => .uint64 n
  | text s => .text s
  | bytes b => .bytes b

/-- Whether the value comes back: from a record with what the table has for it, it is fetched as its
own type, and as the optional one. -/
def ReadsBack (v : PlainValue) : Prop :=
  ∃ found, StoredAs v.bind found ∧ ∀ (record : Record) field, record.get? field = some found →
    v.type.fetch record field = .ok v.fetched ∧
      (FieldType.optional v.type).fetch record field = .ok (.present v.fetched)

/-- Whether an integer is one of the store. -/
def Fits (v : PlainValue) : Prop := ∀ n, v.bind.integer? = some n → -2 ^ 63 ≤ n ∧ n < 2 ^ 63

end PlainValue

/-- A field that is there is read as its type says. -/
theorem FieldType.fetch_of_get? {record : Record} {field : String} {found : Scalar}
    (h : record.get? field = some found) (type : FieldType) :
    type.fetch record field = type.read field found := by
  unfold fetch
  rw [h]

/-- A value that is not NULL is read as an optional type when it is read as the type. -/
theorem FieldType.read_optional {field : String} {found : Scalar} (h : found.isNull = false)
    (type : FieldType) :
    (optional type).read field found = (type.read field found).map .present := by
  rw [read, h]
  rfl

namespace PlainValue

/-- A value comes back when what is stored for it can be read as its type. -/
theorem readsBack_iff_read {v : PlainValue} {stored : StoredValue} {found : Scalar}
    (hstored : v.bind.stored? = some stored) (hfound : stored.toScalar = .ok found)
    (hnull : found.isNull = false) :
    v.ReadsBack ↔ ∀ field, v.type.read field found = .ok v.fetched := by
  constructor
  · rintro ⟨other, hother, hfetch⟩ field
    -- only one value can be found, the one that is stored
    obtain ⟨stored', hstored', hread⟩ := storedAs_iff.1 hother
    rw [hstored] at hstored'
    cases hstored'
    rw [hfound] at hread
    cases hread
    obtain ⟨record, hget⟩ := Record.exists_get? field found
    rw [← FieldType.fetch_of_get? hget]
    exact (hfetch record field hget).1
  · intro hread
    refine ⟨found, storedAs_iff.2 ⟨stored, hstored, hfound⟩, fun record field hget => ?_⟩
    rw [FieldType.fetch_of_get? hget, FieldType.fetch_of_get? hget, FieldType.read_optional hnull,
      hread field]
    exact ⟨rfl, rfl⟩

/-- **Reading an integer.** Between its bounds an integer is read as a value that stands for it
alone; so a stored integer is read as such a value when it is the same number. -/
theorem read_bounded (make : Int → FieldValue) {low high n : Int} (hn : low ≤ n ∧ n ≤ high)
    (hmake : ∀ m, low ≤ m → m ≤ high → make m = make n → m = n) (field type : String) (k : Int64) :
    ((Scalar.int64 (some k)).readBounded field type low high).map make = .ok (make n) ↔
      k.toInt = n := by
  -- the number is checked before it is converted
  have hread : (Scalar.int64 (some k)).readBounded field type low high =
      if low ≤ k.toInt ∧ k.toInt ≤ high then .ok k.toInt
      else .error (.outOfRange field k.toInt type) := rfl
  rw [hread]
  split
  · next h =>
    constructor
    · intro heq
      exact hmake _ h.1 h.2 (Except.ok.inj heq)
    · intro heq
      rw [heq]
      rfl
  · next h =>
    refine ⟨fun heq => (by cases heq), fun heq => absurd ?_ h⟩
    rw [heq]
    exact hn

/-- An integer is read as one of 32 bits exactly if it is that number. -/
theorem read_int32 (n : Int32) (field : String) (k : Int64) :
    FieldType.int32.read field (.int64 (some k)) = .ok (.int32 n) ↔ k.toInt = n.toInt := by
  have hlow := n.le_toInt
  have hhigh := n.toInt_lt
  conv_lhs => rw [← n.ofInt_toInt]
  refine read_bounded (.int32 ∘ Int32.ofInt) ⟨by omega, by omega⟩ (fun m hm hm' h => ?_)
    field "i32" k
  have hof : Int32.ofInt m = Int32.ofInt n.toInt := FieldValue.int32.inj h
  rw [n.ofInt_toInt] at hof
  rw [← hof, Int32.toInt_ofInt_of_le (by omega) (by omega)]

/-- An integer is read as one of 64 bits exactly if it is that number. -/
theorem read_int64 (n : Int64) (field : String) (k : Int64) :
    FieldType.int64.read field (.int64 (some k)) = .ok (.int64 n) ↔ k.toInt = n.toInt := by
  have hlow := n.le_toInt
  have hhigh := n.toInt_lt
  conv_lhs => rw [← n.ofInt_toInt]
  refine read_bounded (.int64 ∘ Int64.ofInt) ⟨by omega, by omega⟩ (fun m hm hm' h => ?_)
    field "i64" k
  have hof : Int64.ofInt m = Int64.ofInt n.toInt := FieldValue.int64.inj h
  rw [n.ofInt_toInt] at hof
  rw [← hof, Int64.toInt_ofInt_of_le (by omega) (by omega)]

/-- An integer is read as one of 32 bits without a sign exactly if it is that number. -/
theorem read_uint32 (n : UInt32) (field : String) (k : Int64) :
    FieldType.uint32.read field (.int64 (some k)) = .ok (.uint32 n) ↔ k.toInt = n.toNat := by
  have hhigh := n.toNat_lt
  conv_lhs => rw [← n.ofNat_toNat]
  refine read_bounded (n := (n.toNat : Int)) (fun m => .uint32 (UInt32.ofNat m.toNat))
    ⟨by omega, by omega⟩ (fun m hm hm' h => ?_) field "u32" k
  have hof : UInt32.ofNat m.toNat = UInt32.ofNat n.toNat := FieldValue.uint32.inj h
  have hnat := UInt32.toNat_ofNat_of_lt' (show m.toNat < 2 ^ 32 by omega)
  rw [hof, UInt32.ofNat_toNat] at hnat
  omega

/-- An integer is read as one of 64 bits without a sign exactly if it is that number. -/
theorem read_uint64 (n : UInt64) (field : String) (k : Int64) :
    FieldType.uint64.read field (.int64 (some k)) = .ok (.uint64 n) ↔ k.toInt = n.toNat := by
  have hhigh := n.toNat_lt
  conv_lhs => rw [← n.ofNat_toNat]
  refine read_bounded (n := (n.toNat : Int)) (fun m => .uint64 (UInt64.ofNat m.toNat))
    ⟨by omega, by omega⟩ (fun m hm hm' h => ?_) field "u64" k
  have hof : UInt64.ofNat m.toNat = UInt64.ofNat n.toNat := FieldValue.uint64.inj h
  have hnat := UInt64.toNat_ofNat_of_lt' (show m.toNat < 2 ^ 64 by omega)
  rw [hof, UInt64.ofNat_toNat] at hnat
  omega

/-- A number that is wrapped around stays the same when it is one of the store. -/
theorem toInt_ofInt_eq_iff {n : Int} : (Int64.ofInt n).toInt = n ↔ -2 ^ 63 ≤ n ∧ n < 2 ^ 63 := by
  constructor
  · intro h
    rw [← h]
    exact ⟨Int64.le_toInt _, Int64.toInt_lt _⟩
  · rintro ⟨hlow, hhigh⟩
    exact Int64.toInt_ofInt_of_le hlow hhigh

/-- An integer comes back when it is one of the store, if it is read from the same number. -/
theorem readsBack_iff_of_integer {v : PlainValue} {n : Int} (h : v.bind.integer? = some n)
    (hread : ∀ field (k : Int64),
      v.type.read field (.int64 (some k)) = .ok v.fetched ↔ k.toInt = n) :
    v.ReadsBack ↔ v.Fits := by
  rw [readsBack_iff_read (BindValue.stored?_of_integer h) rfl rfl]
  simp only [hread, forall_const, toInt_ofInt_eq_iff, Fits, h, Option.some.injEq, forall_eq']

/-- A value that is no integer comes back if it is read from what is stored for it. -/
theorem readsBack_iff_of_other {v : PlainValue} {stored : StoredValue} {found : Scalar}
    (h : v.bind.integer? = none) (hstored : v.bind.stored? = some stored)
    (hfound : stored.toScalar = .ok found) (hnull : found.isNull = false)
    (hread : ∀ field, v.type.read field found = .ok v.fetched) : v.ReadsBack ↔ v.Fits := by
  refine iff_of_true ((readsBack_iff_read hstored hfound hnull).2 hread) fun n hn => ?_
  rw [h] at hn
  cases hn

/-- **What comes back.** Exactly the values come back that are no integers, or integers that the
store has. -/
theorem readsBack_iff (v : PlainValue) : v.ReadsBack ↔ v.Fits := by
  cases v with
  | bool b => cases b <;> exact readsBack_iff_of_other rfl rfl rfl rfl fun _ => rfl
  | int32 n => exact readsBack_iff_of_integer rfl (read_int32 n)
  | int64 n => exact readsBack_iff_of_integer rfl (read_int64 n)
  | uint32 n => exact readsBack_iff_of_integer rfl (read_uint32 n)
  | uint64 n => exact readsBack_iff_of_integer rfl (read_uint64 n)
  | text s =>
    exact readsBack_iff_of_other rfl rfl (StoredValue.toScalar_text s) rfl fun _ => rfl
  | bytes b => exact readsBack_iff_of_other rfl rfl rfl rfl fun _ => rfl

end PlainValue

/-- **NULLs come back as missing values**, whatever their kind and whatever they are fetched as. -/
theorem readsBack_null {b : BindValue} {sent : Scalar} (hsent : b.toScalar? = some sent)
    (hnull : sent.isNull = true) : ∃ found, StoredAs b found ∧
      ∀ (type : FieldType) (record : Record) field, record.get? field = some found →
        (FieldType.optional type).fetch record field = .ok .absent := by
  have hstored : sent.toStored = .null := by
    unfold Scalar.isNull at hnull
    split at hnull
    all_goals first | rfl | cases hnull
  refine ⟨.text none, storedAs_iff.2 ⟨.null, ?_, rfl⟩, fun type record field hget => ?_⟩
  · unfold BindValue.stored?
    rw [hsent, Option.map_some, hstored]
    rfl
  · rw [FieldType.fetch_of_get? hget]
    rfl

/-- **What is stored is read back.** A truth value, an integer, a text or bytes come back from the
store exactly if they are no integer beyond the signed ones of 64 bits, and a NULL always comes back
as a missing value. Two integers of any widths are stored alike exactly if they differ by a multiple
of `2 ^ 64`. -/
theorem stored_readsBack (v : PlainValue) (a b : BindValue) :
    (v.ReadsBack ↔ v.Fits) ∧
    (∀ sent, b.toScalar? = some sent → sent.isNull = true → ∃ found, StoredAs b found ∧
      ∀ (type : FieldType) (record : Record) field, record.get? field = some found →
        (FieldType.optional type).fetch record field = .ok .absent) ∧
    (∀ m n, a.integer? = some m → b.integer? = some n →
      (a.stored? = b.stored? ↔ m % 2 ^ 64 = n % 2 ^ 64)) :=
  ⟨v.readsBack_iff, fun _ => readsBack_null, fun _ _ => BindValue.stored?_eq_iff⟩

/-- The largest integer of the store comes back as an unsigned one, a NULL of its kind as a missing
value, and the same number of two widths is stored alike, but not its negative. -/
theorem stored_readsBack_largest :
    (PlainValue.uint64 9223372036854775807).ReadsBack ∧
    (∃ found, StoredAs (.bigUnsigned none) found ∧
      ∀ (type : FieldType) (record : Record) field, record.get? field = some found →
        (FieldType.optional type).fetch record field = .ok .absent) ∧
    BindValue.stored? (.tinyInt (some 5)) = BindValue.stored? (.bigUnsigned (some 5)) ∧
    BindValue.stored? (.tinyInt (some (-5))) ≠ BindValue.stored? (.bigUnsigned (some 5)) := by
  have hback (a b : BindValue) := stored_readsBack (.uint64 9223372036854775807) a b
  refine ⟨(hback (.bool none) (.bool none)).1.2 fun n hn => ?_,
    (hback (.bool none) (.bigUnsigned none)).2.1 (.uint64 none) rfl rfl,
    ((hback _ _).2.2 5 5 rfl rfl).2 rfl, mt ((hback _ _).2.2 (-5) 5 rfl rfl).1 (by decide)⟩
  have hvalue : n = 9223372036854775807 := (Option.some.inj hn).symm
  rw [hvalue]
  decide

/-- The largest unsigned integer of 64 bits does not come back: it is stored as minus one. -/
theorem not_readsBack_wrapped :
    ¬ (PlainValue.uint64 18446744073709551615).ReadsBack ∧
      BindValue.stored? (.bigUnsigned (some 18446744073709551615)) =
        BindValue.stored? (.bigInt (some (-1))) := by
  refine ⟨fun hback => ?_, rfl⟩
  have hfits := (PlainValue.readsBack_iff _).1 hback 18446744073709551615 rfl
  exact absurd hfits (by decide)

end QueryForest

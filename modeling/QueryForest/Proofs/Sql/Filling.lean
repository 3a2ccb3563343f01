import QueryForest.Proofs.Data.Runs
import QueryForest.Proofs.Sql.Marks

namespace QueryForest.Sql

/-!
# How many values the marks of a text take

Two marks in a row stand for a question mark, so that of every run of marks at most one takes a
value. Which text is sent, how many values it takes and whether they suffice depends on the marks
alone.

* `fill_eq` — filling takes as many values as marks are left over in pairs, and fails if there are
  fewer;
* `Counts s text n t` — read from `s`, `n` marks of `text` take a value, and the reading goes on in
  `t`; `Fills s text n sent t` says also what is sent;
* `Counts.append` and `Fills.append` — one text behind another;
* `Fills.bound` — what becomes of a whole fragment;
* `marksAlong` — the marks of texts that are read one after the other;
* `fills_unquoted` — a word without quotes takes one value for each odd run of its marks.
-/

/-- The character that is sent. -/
def Token.sent : Token → Char
  | mark => '?'
  | char c => c

/-- **Filling.** The marks that are left over in pairs take the first values. -/
theorem fill_eq {α : Type} (tokens : List Token) (values : List α) :
    fill tokens values =
      if unpaired .mark tokens ≤ values.length then
        some ((halved .mark tokens).map Token.sent, values.take (unpaired .mark tokens))
      else none := by
  -- the cases of the induction are those in which filling looks at one or two tokens
  induction tokens using pairs_induction Token.mark generalizing values with
  | nil => rfl
  | pair rest ih =>
    rw [unpaired_cons_cons_self, halved_cons_cons_self, fill, ih]
    split <;> rfl
  | lone rest hrest ih =>
    have hnext : ∀ others, rest ≠ .mark :: others := by
      rintro others rfl
      exact hrest rfl
    rw [unpaired_cons_self hrest, halved_cons_self hrest]
    cases values with
    | nil =>
      rw [if_neg (by simp), fill]
      exact hnext
    | cons value values =>
      rw [fill, ih]
      · simp only [List.length_cons, Nat.add_le_add_iff_right, List.take_succ_cons]
        split <;> rfl
      · exact hnext
  | other token rest htoken ih =>
    obtain ⟨c, rfl⟩ : ∃ c, token = .char c := by
      cases token with
      | mark => exact absurd rfl htoken
      | char c => exact ⟨c, rfl⟩
    rw [unpaired_cons_of_ne htoken, halved_cons_of_ne htoken, fill, ih]
    split <;> rfl

/-- Without question marks in the text there is no mark, from whatever state it is read. -/
theorem mark_not_mem_scan {text : List Char} (h : '?' ∉ text) (s : Scan) :
    Token.mark ∉ scan s text := by
  induction text generalizing s with
  | nil => exact List.not_mem_nil
  | cons c text ih =>
    rw [List.mem_cons, not_or] at h
    have hc : ¬ (c = '?' ∧ s.inside = false) := fun heq => h.1 heq.1.symm
    rw [scan, if_neg hc, List.mem_cons, not_or]
    exact ⟨by simp, ih h.2 _⟩

/-! ### Texts whose marks are counted -/

/-- Read from `s`, a text has `n` marks that take a value, and the reading goes on in `t`. -/
structure Counts (s : Scan) (text : List Char) (n : Nat) (t : Scan) : Prop where
  run : s.run text = t
  /-- The text does not start with a mark, so that no pair lies across its start. -/
  first : (scan s text).head? ≠ some .mark
  marks : unpaired .mark (scan s text) = n

/-- The same, and what is sent. -/
structure Fills (s : Scan) (text : List Char) (n : Nat) (sent : List Char) (t : Scan) : Prop
    extends Counts s text n t where
  sends : (halved .mark (scan s text)).map Token.sent = sent

section Texts

variable {s t u : Scan} {a b x y : List Char} {m n : Nat}

/-- The marks of two texts add up. -/
theorem Counts.append (ha : Counts s a m t) (hb : Counts t b n u) :
    Counts s (a ++ b) (m + n) u where
  run := by rw [Scan.run_append, ha.run, hb.run]
  first := by
    rw [scan_append, ha.run]
    exact head?_append_ne_mark ha.first hb.first
  marks := by rw [scan_append, ha.run, unpaired_append hb.first, ha.marks, hb.marks]

/-- What is sent for two texts is sent one behind the other. -/
theorem Fills.append (ha : Fills s a m x t) (hb : Fills t b n y u) :
    Fills s (a ++ b) (m + n) (x ++ y) u where
  toCounts := ha.toCounts.append hb.toCounts
  sends := by
    rw [scan_append, ha.run, halved_append hb.first, List.map_append, ha.sends, hb.sends]

/-- A text that is sent as it is, and whose marks take certain values, takes as many. -/
theorem Takes.fills {α : Type} {values : List α} (h : Takes s a values t) :
    Fills s a values.length a t := by
  -- with just these values filling succeeds, so that the marks take no more of them, nor fewer
  have hfill := h.filled [] [] (by simp)
  rw [List.append_nil, List.append_nil, fill_eq] at hfill
  simp only [fill, Option.map_some, List.append_nil] at hfill
  by_cases hle : unpaired .mark (scan s a) ≤ values.length
  · rw [if_pos hle, Option.some_inj, Prod.mk.injEq] at hfill
    have hlength := congrArg List.length hfill.2
    rw [List.length_take, Nat.min_eq_left hle] at hlength
    exact ⟨⟨h.run, h.first, hlength⟩, hfill.1⟩
  · rw [if_neg hle] at hfill
    cases hfill

/-- A fragment can be filled if there are enough values; those left over are dropped. -/
theorem Fills.bound (h : Fills .plain a n x t) (values : List BindValue) :
    Fragment.bound ⟨a, values⟩ = if n ≤ values.length then .ok ⟨x, values.take n⟩
      else .error .unboundPlaceholder := by
  unfold Fragment.bound fillMarks
  rw [fill_eq, h.marks, h.sends]
  by_cases hle : n ≤ values.length
  · simp only [if_pos hle]
  · simp only [if_neg hle]

/-- The same for the values alone. -/
theorem Counts.bound (h : Counts .plain a n t) (values : List BindValue) : ∃ sent,
    Fragment.bound ⟨a, values⟩ = if n ≤ values.length then .ok ⟨sent, values.take n⟩
      else .error .unboundPlaceholder :=
  ⟨_, Fills.bound ⟨h, rfl⟩ values⟩

end Texts

/-! ### Texts one after the other -/

/-- How many values the marks of texts take that are read one after the other. -/
def marksAlong (s : Scan) : List (List Char) → Nat
  | [] => 0
  | text :: rest => unpaired .mark (scan s text) + marksAlong (s.run text) rest

/-- The marks of two lists of texts add up, the second list being read where the first one leads. -/
theorem marksAlong_append (s : Scan) (x y : List (List Char)) :
    marksAlong s (x ++ y) = marksAlong s x + marksAlong (s.run x.flatten) y := by
  induction x generalizing s with
  | nil =>
    show marksAlong s y = 0 + marksAlong s y
    omega
  | cons text x ih =>
    rw [List.cons_append, marksAlong, marksAlong, ih, List.flatten_cons, Scan.run_append]
    omega

/-- There is nothing to count in texts without question marks. -/
theorem marksAlong_eq_zero {texts : List (List Char)} (h : ∀ text ∈ texts, '?' ∉ text) (s : Scan) :
    marksAlong s texts = 0 := by
  induction texts generalizing s with
  | nil => rfl
  | cons text rest ih =>
    have htext := mark_not_mem_scan (h text List.mem_cons_self) s
    have hrest := ih (fun t ht => h t (List.mem_cons_of_mem text ht)) (s.run text)
    rw [marksAlong, hrest, unpaired_eq_zero_of_not_mem htext]

/-! ### Words with marks -/

/-- No character that starts a quoted run; there may be marks. -/
def Unquoted (text : List Char) : Prop := ∀ c ∈ text, closing? c = none

instance : DecidablePred Unquoted := List.decidableBAll fun c => closing? c = none

/-- A character outside of quoted runs. -/
def Token.ofChar (c : Char) : Token := if c = '?' then .mark else .char c

theorem Token.sent_ofChar (c : Char) : (ofChar c).sent = c := by
  unfold ofChar
  split
  · next h => exact h.symm
  · rfl

theorem Token.eq_of_ofChar {c : Char} (h : ofChar c = ofChar '?') : c = '?' := by
  unfold ofChar at h
  split at h
  · next hc => exact hc
  · cases h

/-- A text that starts no quoted run is read outside of one to its end. -/
theorem run_unquoted {text : List Char} (h : Unquoted text) : Scan.plain.run text = .plain := by
  induction text with
  | nil => rfl
  | cons c text ih =>
    have hc : Scan.plain.step c = .plain := Scan.Outside.step (.inl rfl) (h c List.mem_cons_self)
    show (Scan.plain.step c).run text = .plain
    rw [hc]
    exact ih fun d hd => h d (List.mem_cons_of_mem c hd)

/-- A text that starts no quoted run is scanned character by character. -/
theorem scan_unquoted {text : List Char} (h : Unquoted text) :
    scan .plain text = text.map Token.ofChar := by
  induction text with
  | nil => rfl
  | cons c text ih =>
    have hc : Scan.plain.step c = .plain := Scan.Outside.step (.inl rfl) (h c List.mem_cons_self)
    have htoken : (if c = '?' ∧ Scan.plain.inside = false then Token.mark else .char c) =
        Token.ofChar c := by simp [Token.ofChar, Scan.inside]
    rw [scan, hc, htoken, List.map_cons, ih fun d hd => h d (List.mem_cons_of_mem c hd)]

/-- A word behind a space takes one value for each odd run of question marks, and half of the marks
are sent. -/
theorem fills_unquoted {s : Scan} (hs : s.Outside) {text : List Char} (h : Unquoted text) :
    Fills s (' ' :: text) (unpaired '?' text) (' ' :: halved '?' text) .plain := by
  have hspace : s.step ' ' = .plain := hs.step (by decide)
  have hscan : scan s (' ' :: text) = .char ' ' :: text.map Token.ofChar := by
    rw [scan, hspace, scan_unquoted h]
    rfl
  have hmark : Token.mark = Token.ofChar '?' := rfl
  refine ⟨⟨?_, by simp [hscan], ?_⟩, ?_⟩
  · show (s.step ' ').run text = .plain
    rw [hspace, run_unquoted h]
  · rw [hscan, unpaired_cons_of_ne (by simp), hmark, unpaired_map fun c => Token.eq_of_ofChar]
  · rw [hscan, halved_cons_of_ne (by simp), hmark, halved_map fun c => Token.eq_of_ofChar,
      List.map_cons, List.map_map]
    have hsent : Token.sent ∘ Token.ofChar = id := funext Token.sent_ofChar
    rw [hsent, List.map_id]
    rfl

end QueryForest.Sql

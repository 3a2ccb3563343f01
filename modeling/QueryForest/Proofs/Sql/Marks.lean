import QueryForest.Predicate
import QueryForest.Proofs.Data.Runs

namespace QueryForest.Sql

/-!
# Text whose marks take values

A condition is written as text, and the text is read again to fill its marks. What a piece of text
does then depends on where the reading stands in front of it and on nothing behind it, as long as
no two marks meet.

* `Takes s text values t` — read from `s`, the marks of `text` take `values`, no character changes,
  and the reading goes on in `t`;
* `Takes.append` — one text behind another;
* `takes_bare` — a word without marks and quotes is read as it stands;
* `Settled` — an identifier in which no backslash takes the meaning from a quote;
* `takes_quotePath` — a quoted path of settled identifiers hides all that is in it;
* `bound_of_takes` — a whole text whose marks take its values is sent as it is.
-/

/-! ### Where the reading stands -/

/-- Where the reading stands behind a text. -/
def Scan.run (s : Scan) (text : List Char) : Scan := text.foldl (fun t c => t.step c) s

theorem Scan.run_append (s : Scan) (a b : List Char) : s.run (a ++ b) = (s.run a).run b :=
  List.foldl_append

theorem scan_append (s : Scan) (a b : List Char) :
    scan s (a ++ b) = scan s a ++ scan (s.run a) b := by
  induction a generalizing s with
  | nil => rfl
  | cons c a ih =>
    show _ :: scan (s.step c) (a ++ b) = _ :: (scan (s.step c) a ++ _)
    rw [ih]
    rfl

/-- Outside a quoted run, be it behind an identifier. -/
def Scan.Outside (s : Scan) : Prop := s = .plain ∨ s = .closed '"'

/-- A character that starts no quoted run leaves the reading outside. -/
theorem Scan.Outside.step {s : Scan} (h : s.Outside) {c : Char} (hc : closing? c = none) :
    s.step c = .plain := by
  have henter : Scan.enter c = .plain := by rw [enter, hc]
  rcases h with rfl | rfl
  · exact henter
  · have hquote : c ≠ '"' := by
      rintro rfl
      cases hc
    show (if c = '"' then _ else Scan.enter c) = _
    rw [if_neg hquote, henter]

/-! ### Texts that take values -/

/-- Read from `s`, the marks of a text take the values in order, its characters stay, and the
reading goes on in `t`. -/
structure Takes {α : Type} (s : Scan) (text : List Char) (values : List α) (t : Scan) : Prop where
  run : s.run text = t
  /-- The text does not start with a mark, so that a mark in front of it keeps its value. -/
  first : (scan s text).head? ≠ some .mark
  filled : ∀ tokens more, tokens.head? ≠ some .mark →
    fill (scan s text ++ tokens) (values ++ more) =
      (fill tokens more).map fun (rest, others) => (text ++ rest, values ++ others)

/-- Two texts do not start with a mark if neither of them does. -/
theorem head?_append_ne_mark {a b : List Token} (ha : a.head? ≠ some .mark)
    (hb : b.head? ≠ some .mark) : (a ++ b).head? ≠ some .mark := by
  cases a with
  | nil => exact hb
  | cons token rest => exact ha

section Takes

variable {α : Type} {s t u : Scan}

theorem takes_nil (s : Scan) : Takes s [] ([] : List α) s where
  run := rfl
  first := by simp [scan]
  filled := by
    intro tokens more _
    show fill tokens more = _
    cases fill tokens more <;> rfl

/-- The values of two texts, one behind the other. -/
theorem Takes.append {a b : List Char} {x y : List α} (ha : Takes s a x t) (hb : Takes t b y u) :
    Takes s (a ++ b) (x ++ y) u where
  run := by rw [Scan.run_append, ha.run, hb.run]
  first := by
    rw [scan_append, ha.run]
    exact head?_append_ne_mark ha.first hb.first
  filled := by
    intro tokens more htokens
    -- the marks of `a` are filled with those of `b` behind them, so `b` must not start with one
    have hnext : (scan t b ++ tokens).head? ≠ some .mark := head?_append_ne_mark hb.first htokens
    rw [scan_append, ha.run, List.append_assoc, List.append_assoc, ha.filled _ _ hnext,
      hb.filled _ _ htokens]
    cases fill tokens more with
    | none => rfl
    | some filled => simp

/-- A character that is no mark. -/
theorem takes_char (s : Scan) {c : Char} (h : c ≠ '?' ∨ s.inside = true) :
    Takes s [c] ([] : List α) (s.step c) := by
  have hscan : scan s [c] = [.char c] := by
    rcases h with h | h
    · simp [scan, h]
    · simp [scan, h]
  refine ⟨rfl, by simp [hscan], ?_⟩
  intro tokens more _
  rw [hscan]
  rfl

/-- A mark with a space in front of it. -/
theorem takes_mark (value : α) : Takes .plain [' ', '?'] [value] .plain where
  run := by decide
  first := by decide
  filled := by
    intro tokens more htokens
    show fill (.char ' ' :: .mark :: tokens) (value :: more) = _
    -- one more mark behind this one would make it a question mark without a value
    match tokens with
    | [] => rfl
    | .mark :: _ => exact absurd rfl htokens
    | .char c :: rest =>
      simp only [fill, Option.map_map]
      rfl

end Takes

/-! ### Words and quoted paths -/

/-- No question mark, and no character that starts a quoted run. -/
def Bare (text : List Char) : Prop := ∀ c ∈ text, c ≠ '?' ∧ closing? c = none

instance : DecidablePred Bare := List.decidableBAll fun c => c ≠ '?' ∧ closing? c = none

/-- No character that means anything inside a quoted run or outside of one. -/
def Neutral (text : List Char) : Prop :=
  ∀ c ∈ text, c ≠ '?' ∧ closing? c = none ∧ c ≠ ']' ∧ c ≠ '\\'

instance : DecidablePred Neutral :=
  List.decidableBAll fun c => c ≠ '?' ∧ closing? c = none ∧ c ≠ ']' ∧ c ≠ '\\'

theorem Neutral.bare {text : List Char} (h : Neutral text) : Bare text :=
  fun c hc => ⟨(h c hc).1, (h c hc).2.1⟩

/-- An identifier in which no odd run of backslashes stands in front of a double quote or at the
end. -/
def Settled (name : List Char) : Prop :=
  ∀ after, OddRun '\\' name after → after ≠ [] ∧ after.head? ≠ some '"'

/-- A path whose pieces between the dots are settled. -/
def SettledPath (path : List Char) : Prop := ∀ piece ∈ path.splitOn '.', Settled piece

/-- A name without backslashes is settled. -/
theorem settled_of_not_mem {name : List Char} (h : '\\' ∉ name) : Settled name := by
  rintro after ⟨before, n, rfl, hodd, -, -⟩
  exact absurd (by simp; omega) h

/-- Backslashes alone are settled exactly if their number is even. -/
theorem settled_replicate {n : Nat} :
    Settled (List.replicate n '\\') ↔ (n % 2 == 1) = false := by
  unfold Settled
  simp only [oddRun_replicate]
  constructor
  · intro h
    simpa using fun hodd => (h [] ⟨hodd, rfl⟩).1 rfl
  · rintro h after ⟨hodd, -⟩
    simp [hodd] at h

/-- Whether a name is settled is decided run by run: an odd run of backslashes stands in front of
anything but a double quote. -/
theorem settled_append_cons {n : Nat} {c : Char} {rest : List Char} (hc : c ≠ '\\') :
    Settled (List.replicate n '\\' ++ c :: rest) ↔ (n % 2 = 1 → c ≠ '"') ∧ Settled rest := by
  unfold Settled
  simp only [oddRun_append_cons hc]
  constructor
  · intro h
    refine ⟨fun hodd hquote => (h _ (.inl ⟨hodd, rfl⟩)).2 (by rw [hquote]; rfl), fun after ha => ?_⟩
    exact h after (.inr ha)
  · rintro ⟨hquote, hrest⟩ after (⟨hodd, rfl⟩ | ha)
    · exact ⟨by simp, by simpa using hquote hodd⟩
    · exact hrest after ha

section Texts

variable {α : Type}

/-- A bare text takes no values. -/
theorem takes_bare {text : List Char} (h : Bare text) : Takes .plain text ([] : List α) .plain := by
  induction text with
  | nil => exact takes_nil _
  | cons c text ih =>
    obtain ⟨hmark, hclosing⟩ := h c List.mem_cons_self
    have hc := takes_char (α := α) .plain (.inl hmark)
    rw [Scan.Outside.step (.inl rfl) hclosing] at hc
    exact hc.append (ih fun d hd => h d (List.mem_cons_of_mem c hd))

/-- Inside an identifier, a backslash takes the meaning from the one behind it. -/
theorem takes_backslashes (n : Nat) :
    Takes (.quoted '"' false) (doubleQuotes (List.replicate n '\\')) ([] : List α)
      (.quoted '"' (n % 2 == 1)) := by
  induction n with
  | zero => exact takes_nil _
  | succ n ih =>
    have hstep : Scan.step '\\' (.quoted '"' (n % 2 == 1)) = .quoted '"' ((n + 1) % 2 == 1) := by
      rcases Nat.mod_two_eq_zero_or_one n with h | h <;> simp [Scan.step, Nat.add_mod, h]
    have hlast := takes_char (α := α) (c := '\\') (.quoted '"' (n % 2 == 1)) (.inr rfl)
    rw [hstep] at hlast
    rw [List.replicate_succ', doubleQuotes, List.flatMap_append]
    exact ih.append hlast

/-- Inside an identifier: a quote is written twice and goes on with the run, unless a backslash
takes the meaning from the first of the two. -/
theorem takes_doubleQuotes {name : List Char} (h : Settled name) :
    Takes (.quoted '"' false) (doubleQuotes name) ([] : List α) (.quoted '"' false) := by
  induction name using runs_induction '\\' with
  | run n =>
    have hrun := takes_backslashes (α := α) n
    rw [settled_replicate.1 h] at hrun
    exact hrun
  | next n c rest hc ih =>
    obtain ⟨hquote, hrest⟩ := (settled_append_cons hc).1 h
    have hother : Takes (.quoted '"' (n % 2 == 1)) (if c = '"' then ['"', '"'] else [c])
        ([] : List α) (.quoted '"' false) := by
      by_cases hcq : c = '"'
      · subst hcq
        -- the first quote closes the run and the second one goes on with it
        have heven : (n % 2 == 1) = false := by
          simpa using mt hquote (not_not_intro rfl)
        rw [heven]
        have hfirst : Takes (.quoted '"' false) ['"'] ([] : List α) (.closed '"') :=
          takes_char _ (.inr rfl)
        have hsecond : Takes (.closed '"') ['"'] ([] : List α) (.quoted '"' false) :=
          takes_char _ (.inl (by decide))
        exact hfirst.append hsecond
      · have hstep : Scan.step c (.quoted '"' (n % 2 == 1)) = .quoted '"' false := by
          simp [Scan.step, hcq, hc]
        have hchar := takes_char (α := α) (c := c) (.quoted '"' (n % 2 == 1)) (.inr rfl)
        rw [hstep] at hchar
        rw [if_neg hcq]
        exact hchar
    rw [doubleQuotes, List.flatMap_append, List.flatMap_cons]
    exact (takes_backslashes n).append (hother.append (ih hrest))

/-- A settled name in quotes takes no values, and the reading is behind it. -/
theorem takes_quoteName {name : List Char} (h : Settled name) :
    Takes .plain (quoteName name) ([] : List α) (.closed '"') := by
  have hopen : Takes .plain ['"'] ([] : List α) (.quoted '"' false) :=
    takes_char _ (.inl (by decide))
  have hclose : Takes (.quoted '"' false) ['"'] ([] : List α) (.closed '"') :=
    takes_char _ (.inr rfl)
  exact (hopen.append (takes_doubleQuotes h)).append hclose

/-- A settled piece takes no values, and the reading is outside of quoted runs behind it. -/
theorem takes_quotePiece {piece : List Char} (h : Settled piece) :
    ∃ t : Scan, t.Outside ∧ Takes .plain (quotePiece piece) ([] : List α) t := by
  unfold quotePiece
  split
  · exact ⟨.plain, .inl rfl, takes_bare (by decide)⟩
  · exact ⟨.closed '"', .inr rfl, takes_quoteName h⟩

/-- The same for settled pieces with dots between them. -/
theorem takes_quotePieces {pieces : List (List Char)} (h : ∀ piece ∈ pieces, Settled piece) :
    ∃ t : Scan, t.Outside ∧
      Takes .plain (List.intercalate ['.'] (pieces.map quotePiece)) ([] : List α) t := by
  induction pieces with
  | nil => exact ⟨.plain, .inl rfl, takes_nil _⟩
  | cons piece rest ih =>
    obtain ⟨t, ht, hpiece⟩ := takes_quotePiece (α := α) (h piece List.mem_cons_self)
    obtain ⟨u, hu, hrest⟩ := ih fun p hp => h p (List.mem_cons_of_mem piece hp)
    cases rest with
    | nil => exact ⟨t, ht, by simpa using hpiece⟩
    | cons next rest =>
      have hdot := takes_char (α := α) t (c := '.') (.inl (by decide))
      rw [ht.step (by decide)] at hdot
      refine ⟨u, hu, ?_⟩
      rw [List.map_cons, List.map_cons, List.intercalate_cons_cons]
      exact (hpiece.append hdot).append hrest

/-- The characters of a text occur in the texts with separators between them. -/
theorem mem_intercalate {c : Char} {piece : List Char} (sep : List Char) (hc : c ∈ piece)
    {pieces : List (List Char)} (h : piece ∈ pieces) : c ∈ List.intercalate sep pieces := by
  induction pieces with
  | nil => cases h
  | cons first rest ih =>
    cases rest with
    | nil =>
      rw [List.mem_singleton] at h
      rw [List.intercalate_singleton, ← h]
      exact hc
    | cons next rest =>
      rw [List.intercalate_cons_cons, List.mem_append]
      rcases List.mem_cons.mp h with rfl | hrest
      · exact .inl (List.mem_append_left sep hc)
      · exact .inr (ih hrest)

/-- A character of texts with separators between them is one of the separator or of a text. -/
theorem mem_of_mem_intercalate {c : Char} {sep : List Char} {texts : List (List Char)}
    (h : c ∈ List.intercalate sep texts) : c ∈ sep ∨ ∃ text ∈ texts, c ∈ text := by
  induction texts with
  | nil => cases h
  | cons text rest ih =>
    cases rest with
    | nil => exact .inr ⟨text, List.mem_singleton_self text, by simpa using h⟩
    | cons next rest =>
      rw [List.intercalate_cons_cons, List.mem_append, List.mem_append] at h
      rcases h with (htext | hsep) | hrest
      · exact .inr ⟨text, List.mem_cons_self, htext⟩
      · exact .inl hsep
      · refine (ih hrest).imp_right ?_
        rintro ⟨other, hother, hc⟩
        exact ⟨other, List.mem_cons_of_mem text hother, hc⟩

/-- A path without backslashes has settled pieces. -/
theorem settledPath_of_not_mem {path : List Char} (h : '\\' ∉ path) : SettledPath path :=
  fun piece hpiece => settled_of_not_mem fun hc => by
    have hpath := mem_intercalate ['.'] hc hpiece
    rw [List.intercalate_splitOn] at hpath
    exact h hpath

/-- A quoted path of settled identifiers hides all that is in it. -/
theorem takes_quotePath {path : List Char} (h : SettledPath path) :
    ∃ t : Scan, t.Outside ∧ Takes .plain (quotePath path) ([] : List α) t :=
  takes_quotePieces h

end Texts

/-- A fragment whose marks take all its values is sent as it is. -/
theorem bound_of_takes {a : Fragment} {t : Scan} (h : Takes .plain a.text a.values t) :
    a.bound = .ok a := by
  have hfill := h.filled [] [] (by simp)
  rw [List.append_nil, List.append_nil] at hfill
  have hmarks : fillMarks a.text a.values = some (a.text, a.values) := by
    unfold fillMarks
    rw [hfill]
    simp [fill]
  unfold Fragment.bound
  rw [hmarks]

end QueryForest.Sql

import QueryForest.Proofs.Sql.Filling

namespace QueryForest.Sql

/-!
# Identifiers that are not closed

An identifier that is not settled is read in another sense than it was written: a backslash takes
the meaning from a quote of it, and from there on what was written inside is read outside and the
other way round. It never comes right again: behind such an identifier the reading stands inside a
quoted run, and so it does behind every identifier that follows.

* `Scan.Within` — inside a quoted run, with no backslash in force;
* `Scan.Astray` — between the characters of an identifier, but not inside its own quoted run;
* `Scan.Within.quotePath` — a path that is read within a quoted run ends within one;
* `within_of_not_settledPath` — a path that is not settled ends within a quoted run;
* `settled_iff` — the settled identifiers are those whose own quote closes them.
-/

namespace Scan

/-- A character that closes quoted runs. -/
def IsClosing (c : Char) : Prop := c = '"' ∨ c = '\'' ∨ c = '\x60' ∨ c = ']'

/-- Inside a quoted run, with no backslash in force. -/
def Within (s : Scan) : Prop := ∃ close, IsClosing close ∧ s = quoted close false

/-- Outside of quoted runs, or in a quoted run that no double quote closes. -/
def Astray : Scan → Prop
  | plain => True
  | quoted close _ => IsClosing close ∧ close ≠ '"'
  | closed close => IsClosing close

variable {s : Scan}

/-! ### One character -/

/-- What a character opens, if it is not a double quote. -/
theorem astray_enter {c : Char} (hc : c ≠ '"') : (enter c).Astray := by
  unfold enter closing?
  rw [if_neg hc]
  by_cases hsingle : c = '\''
  · simp [hsingle, Astray, IsClosing]
  by_cases hback : c = '\x60'
  · simp [hback, Astray, IsClosing]
  by_cases hbracket : c = '['
  · simp [hbracket, Astray, IsClosing]
  · simp [hsingle, hback, hbracket, Astray]

/-- A character of an identifier that is not a double quote. -/
theorem Astray.step (h : s.Astray) {c : Char} (hc : c ≠ '"') : (s.step c).Astray := by
  cases s with
  | plain => exact astray_enter hc
  | quoted close escaped =>
    show (if c = close ∧ escaped = false then if c = ']' then plain else closed close
      else quoted close (!escaped && c = '\\')).Astray
    split
    · split
      · trivial
      · exact h.1
    · exact h
  | closed close =>
    show (if c = close then quoted close false else enter c).Astray
    split
    · next heq => exact ⟨h, heq ▸ hc⟩
    · exact astray_enter hc

/-- The quote at the end of an identifier that was read astray opens a run, or stands in one. -/
theorem Astray.step_quote (h : s.Astray) : (s.step '"').Within := by
  have hopened : (enter '"').Within := ⟨'"', .inl rfl, rfl⟩
  cases s with
  | plain => exact hopened
  | quoted close escaped =>
    refine ⟨close, h.1, ?_⟩
    show (if '"' = close ∧ escaped = false then _ else quoted close (!escaped && '"' = '\\')) = _
    rw [if_neg fun heq => h.2 heq.1.symm]
    simp
  | closed close =>
    show (if '"' = close then quoted close false else enter '"').Within
    split
    · next heq => exact ⟨close, heq ▸ .inl rfl, rfl⟩
    · exact hopened

/-- The quote at the start of an identifier closes the run, or stands in one of another kind. -/
theorem Within.step_quote (h : s.Within) : (s.step '"').Astray := by
  obtain ⟨close, hclose, rfl⟩ := h
  by_cases hquote : close = '"'
  · subst hquote
    exact .inl rfl
  · have hstep : (quoted close false).step '"' = quoted close false := by
      simp [Scan.step, Ne.symm hquote]
    rw [hstep]
    exact ⟨hclose, hquote⟩

/-- A double quote inside an identifier is written twice. -/
theorem Astray.run_quotes (h : s.Astray) : (s.run ['"', '"']).Astray := h.step_quote.step_quote

/-- A character that closes nothing and is no backslash does not lead out of a quoted run. -/
theorem Within.step (h : s.Within) {c : Char} (hclosing : ¬ IsClosing c) (hc : c ≠ '\\') :
    s.step c = s := by
  obtain ⟨close, hclose, rfl⟩ := h
  have hne : c ≠ close := fun heq => hclosing (heq ▸ hclose)
  simp [Scan.step, hne, hc]

/-- What neither closes a run nor is a backslash is hidden within a run, marks included. -/
theorem Within.counts (h : s.Within) {text : List Char}
    (htext : ∀ c ∈ text, ¬ IsClosing c ∧ c ≠ '\\') : Counts s text 0 s := by
  have hinside : s.inside = true := by
    obtain ⟨close, -, rfl⟩ := h
    rfl
  -- no character leads out of the run, and none of them is read as a mark
  have hread : s.run text = s ∧ scan s text = text.map Token.char := by
    induction text with
    | nil => exact ⟨rfl, rfl⟩
    | cons c text ih =>
      obtain ⟨hrun, hscan⟩ := ih fun d hd => htext d (List.mem_cons_of_mem c hd)
      obtain ⟨hclosing, hc⟩ := htext c List.mem_cons_self
      have hstep := h.step hclosing hc
      constructor
      · show (s.step c).run text = s
        rw [hstep, hrun]
      · rw [scan, hstep, hscan, hinside]
        simp
  refine ⟨hread.1, ?_, ?_⟩
  · rw [hread.2]
    cases text <;> simp
  · rw [hread.2]
    exact unpaired_eq_zero_of_not_mem (by simp)

end Scan

/-- A neutral text has neither closing characters nor backslashes. -/
theorem Neutral.not_isClosing {text : List Char} (h : Neutral text) :
    ∀ c ∈ text, ¬ Scan.IsClosing c ∧ c ≠ '\\' := by
  intro c hc
  obtain ⟨-, hopens, hbracket, hbackslash⟩ := h c hc
  refine ⟨?_, hbackslash⟩
  rintro (rfl | rfl | rfl | rfl)
  · exact absurd hopens (by decide)
  · exact absurd hopens (by decide)
  · exact absurd hopens (by decide)
  · exact hbracket rfl

namespace Scan

variable {s : Scan}

/-! ### Identifiers and paths -/

/-- Doubled quotes do not end a quoted run that no double quote closes. -/
theorem Astray.run_doubleQuotes (h : s.Astray) (name : List Char) :
    (s.run (doubleQuotes name)).Astray := by
  induction name generalizing s with
  | nil => exact h
  | cons c name ih =>
    show (s.run ((if c = '"' then ['"', '"'] else [c]) ++ doubleQuotes name)).Astray
    rw [run_append]
    refine ih ?_
    split
    · exact h.run_quotes
    · next hc => exact h.step hc

/-- Behind an identifier that is read within a quoted run, the reading is within one. -/
theorem Within.quoteName (h : s.Within) (name : List Char) : (s.run (quoteName name)).Within := by
  show (s.run (['"'] ++ doubleQuotes name ++ ['"'])).Within
  rw [run_append, run_append]
  exact (h.step_quote.run_doubleQuotes name).step_quote

/-- The reading that is inside a quoted run in front of a quoted piece is inside one behind it. -/
theorem Within.quotePiece (h : s.Within) (piece : List Char) :
    (s.run (quotePiece piece)).Within := by
  unfold Sql.quotePiece
  split
  · have hstar : s.run ['*'] = s := h.step (by unfold IsClosing; decide) (by decide)
    rw [hstar]
    exact h
  · exact h.quoteName piece

theorem Within.run_dot (h : s.Within) : s.run ['.'] = s :=
  h.step (by unfold IsClosing; decide) (by decide)

/-- The same for pieces with dots between them. -/
theorem Within.quotePieces (h : s.Within) (pieces : List (List Char)) :
    (s.run (List.intercalate ['.'] (pieces.map Sql.quotePiece))).Within := by
  induction pieces generalizing s with
  | nil => exact h
  | cons piece rest ih =>
    cases rest with
    | nil =>
      rw [List.map_singleton, List.intercalate_singleton]
      exact h.quotePiece piece
    | cons next rest =>
      rw [List.map_cons, List.map_cons, List.intercalate_cons_cons, run_append, run_append,
        (h.quotePiece piece).run_dot]
      exact ih (h.quotePiece piece)

/-- **Within a quoted run.** No path that is read within a quoted run ends outside of one. -/
theorem Within.quotePath (h : s.Within) (path : List Char) : (s.run (quotePath path)).Within :=
  h.quotePieces _

end Scan

open Scan

/-! ### Identifiers that are not settled -/

/-- An identifier that is not settled goes astray at a quote behind an odd run of backslashes. -/
theorem within_of_not_settled {name : List Char} (h : ¬ Settled name) :
    (Scan.plain.run (quoteName name)).Within := by
  show ((Scan.quoted '"' false).run (doubleQuotes name ++ ['"'])).Within
  induction name using runs_induction '\\' with
  | run n =>
    -- an odd run at the end: the closing quote has no meaning
    have hodd : (n % 2 == 1) = true := by simpa using mt settled_replicate.2 h
    rw [run_append, (takes_backslashes (α := Char) n).run, hodd]
    exact ⟨'"', .inl rfl, rfl⟩
  | next n c rest hc ih =>
    rw [settled_append_cons hc] at h
    -- the run, the character behind it with its quote doubled, and the rest
    have hsplit : doubleQuotes (List.replicate n '\\' ++ c :: rest) ++ ['"'] =
        doubleQuotes (List.replicate n '\\') ++
          ((if c = '"' then ['"', '"'] else [c]) ++ (doubleQuotes rest ++ ['"'])) := by
      simp [doubleQuotes, List.flatMap_append]
    rw [hsplit, run_append, run_append, (takes_backslashes (α := Char) n).run]
    by_cases hquote : c = '"'
    · subst hquote
      rw [if_pos rfl]
      by_cases hodd : n % 2 = 1
      · -- the first of the two quotes has no meaning, and the second one closes the run
        have hescaped : (n % 2 == 1) = true := by simpa using hodd
        have hclosed : (Scan.quoted '"' true).run ['"', '"'] = .closed '"' := rfl
        rw [hescaped, hclosed, run_append]
        have hastray : (Scan.closed '"').Astray := .inl rfl
        exact (hastray.run_doubleQuotes rest).step_quote
      · have hescaped : (n % 2 == 1) = false := by simpa using hodd
        have hopen : (Scan.quoted '"' false).run ['"', '"'] = .quoted '"' false := rfl
        rw [hescaped, hopen]
        exact ih fun hrest => h ⟨fun hodd' => absurd hodd' hodd, hrest⟩
    · have hstep : (Scan.quoted '"' (n % 2 == 1)).run [c] = .quoted '"' false := by
        show Scan.step c (.quoted '"' (n % 2 == 1)) = _
        simp [Scan.step, hquote, hc]
      rw [if_neg hquote, hstep]
      exact ih fun hrest => h ⟨fun _ => hquote, hrest⟩

/-- **Settled identifiers** are those that their own quote closes. -/
theorem settled_iff (name : List Char) :
    Settled name ↔ Scan.plain.run (quoteName name) = .closed '"' := by
  constructor
  · intro h
    exact (takes_quoteName (α := Char) h).run
  · intro hclosed
    by_contra h
    obtain ⟨close, -, hwithin⟩ := within_of_not_settled h
    rw [hclosed] at hwithin
    cases hwithin

instance : DecidablePred Settled := fun name => decidable_of_iff _ (settled_iff name).symm

instance : DecidablePred SettledPath := fun path =>
  inferInstanceAs (Decidable (∀ piece ∈ path.splitOn '.', Settled piece))

/-- If some piece is not settled, the reading is inside a quoted run behind the whole path. -/
theorem within_of_not_settled_piece {pieces : List (List Char)}
    (h : ∃ piece ∈ pieces, ¬ Settled piece) :
    (Scan.plain.run (List.intercalate ['.'] (pieces.map quotePiece))).Within := by
  induction pieces with
  | nil =>
    obtain ⟨piece, hpiece, -⟩ := h
    cases hpiece
  | cons piece rest ih =>
    by_cases hpiece : Settled piece
    · -- behind a settled piece and a dot the reading is as at the start
      obtain ⟨other, hother, hunsettled⟩ := h
      have hmem : other ∈ rest := by
        rcases List.mem_cons.1 hother with rfl | hmem
        · exact absurd hpiece hunsettled
        · exact hmem
      obtain ⟨t, ht, htakes⟩ := takes_quotePiece (α := Char) hpiece
      cases rest with
      | nil => cases hmem
      | cons next rest =>
        have hdot : t.run ['.'] = .plain := ht.step (by decide)
        rw [List.map_cons, List.map_cons, List.intercalate_cons_cons, run_append, run_append,
          htakes.run, hdot]
        exact ih ⟨other, hmem, hunsettled⟩
    · -- a star is written without quotes, but a star is settled
      have hstar : piece ≠ ['*'] := by
        rintro rfl
        exact hpiece (settled_of_not_mem (by decide))
      have hwithin : (Scan.plain.run (quotePiece piece)).Within := by
        unfold quotePiece
        rw [if_neg hstar]
        exact within_of_not_settled hpiece
      cases rest with
      | nil =>
        rw [List.map_singleton, List.intercalate_singleton]
        exact hwithin
      | cons next rest =>
        -- no dot and no further piece leads out of the run again
        rw [List.map_cons, List.map_cons, List.intercalate_cons_cons, run_append, run_append,
          hwithin.run_dot]
        exact hwithin.quotePieces (next :: rest)

/-- **Paths that are not settled** end within a quoted run. -/
theorem within_of_not_settledPath {path : List Char} (h : ¬ SettledPath path) :
    (Scan.plain.run (quotePath path)).Within := by
  refine within_of_not_settled_piece ?_
  simpa only [SettledPath, not_forall, exists_prop] using h

/-! ### Question marks of a path -/

/-- A path starts with a quote or is a star, so that it does not start with a mark. -/
theorem head?_scan_quotePath (s : Scan) (path : List Char) :
    (scan s (quotePath path)).head? ≠ some .mark := by
  have hpiece : ∀ piece, (scan s (quotePiece piece)).head? ≠ some .mark := by
    intro piece
    unfold quotePiece
    split <;> simp [quoteName, scan]
  unfold quotePath
  cases path.splitOn '.' with
  | nil => simp [scan]
  | cons piece rest =>
    cases rest with
    | nil => simpa using hpiece piece
    | cons next rest =>
      rw [List.map_cons, List.map_cons, List.intercalate_cons_cons, List.append_assoc, scan_append]
      refine head?_append_ne_mark (hpiece piece) ?_
      simp [scan]

/-- No question mark is written that is not in the path. -/
theorem mark_not_mem_quotePath {path : List Char} (h : '?' ∉ path) :
    '?' ∉ quotePath path := by
  intro hmark
  rcases mem_of_mem_intercalate hmark with hdot | ⟨text, htext, hmark⟩
  · exact absurd hdot (by decide)
  · obtain ⟨piece, hpiece, rfl⟩ := List.mem_map.1 htext
    -- a question mark of a piece is one of the path
    have hpath : '?' ∉ piece := fun hmem => by
      have hjoined := mem_intercalate ['.'] hmem hpiece
      rw [List.intercalate_splitOn] at hjoined
      exact h hjoined
    unfold quotePiece at hmark
    split at hmark
    · exact absurd hmark (by decide)
    · simp only [quoteName, doubleQuotes, List.cons_append, List.mem_cons, List.mem_append,
        List.mem_flatMap, List.not_mem_nil, or_false] at hmark
      rcases hmark with hquote | ⟨c, hc, hwritten⟩ | hquote
      · exact absurd hquote (by decide)
      · split at hwritten
        · exact absurd hwritten (by decide)
        · rw [List.mem_singleton] at hwritten
          exact hpath (hwritten ▸ hc)
      · exact absurd hquote (by decide)

end QueryForest.Sql

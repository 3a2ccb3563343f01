import QueryForest.Proofs.Predicate
import QueryForest.Proofs.Sql.Formula

namespace QueryForest

/-!
# The meaning of a predicate

The text of a predicate has parentheses only around segments with several conditions, and only
where there are several segments; a connective stands behind each segment but the last. A database
that reads this text, with `AND` before `OR`, finds what the segments say.

* `Condition.Inert` — an operator that is no part of the structure of a condition;
* `Writes text first rest` — a text that is a row of operands;
* `Predicate.formula?` — the formula of a predicate, and `Predicate.parse_compiled`: its text is
  read as that formula;
* `Segment.value` and `meaning` — the truth of a segment and of a list of segments, by the truth
  of their conditions;
* `Predicate.compile_means` — the text of every predicate is read as a formula with its conditions
  and its meaning.
-/

open Sql (Lexeme Formula Level Lexes ReadsOperand ReadsChain)

/-! ### Conditions -/

namespace Condition

/-- An operator without quotes, parentheses and connectives. -/
def Inert (c : Condition) : Prop :=
  (∀ x ∈ c.operator.toList, Sql.isQuote x = false) ∧
    ∀ l ∈ Sql.lexemes c.operator.toList, l.role = .plain

instance : DecidablePred Inert := fun _ =>
  @instDecidableAnd _ _ (List.decidableBAll _ _) (List.decidableBAll _ _)

/-- The lexemes of a condition. -/
def lexemes (c : Condition) : List Lexeme :=
  Sql.pathLexemes c.field.toList ++ Sql.lexemes c.operator.toList ++ [.sign '?']

/-- The text of an inert condition is cut into the lexemes of its field, its operator and its mark.
-/
theorem lexes_text {c : Condition} (h : c.Inert) : Lexes .between c.text c.lexemes .between := by
  have hmark : Lexes .between ['?'] [.sign '?'] .between := Sql.lexes_char _ _
  have hall := ((Sql.lexes_quotePath c.field.toList).append (Sql.lexes_unquoted h.1)).append hmark
  have htext : c.text = Sql.quotePath c.field.toList ++ [' '] ++ (c.operator.toList ++ [' ']) ++
      ['?'] := by
    unfold text
    simp
  rw [htext]
  exact hall

/-- The lexemes of the text of an inert condition, read on its own. -/
theorem lexemes_text {c : Condition} (h : c.Inert) : Sql.lexemes c.text = c.lexemes :=
  (lexes_text h).lex_eq

/-- Names and the dots between them belong to an operand. -/
theorem role_pathLexemes {path : List Char} {l : Lexeme} (h : l ∈ Sql.pathLexemes path) :
    l.role = .plain := by
  rcases Sql.mem_pathLexemes h with rfl | ⟨piece, rfl⟩
  · rfl
  · unfold Sql.pieceLexeme
    split <;> rfl

/-- The formula of a condition: an atom. -/
def formula (c : Condition) : Formula := .atom c.lexemes

/-- The lexemes of an inert condition are one operand. -/
theorem readsOperand {c : Condition} (h : c.Inert) : ReadsOperand c.lexemes c.formula := by
  refine Sql.readsOperand_atom (by unfold lexemes; simp) fun l hl => ?_
  unfold lexemes at hl
  rcases List.mem_append.1 hl with hl | hl
  · rcases List.mem_append.1 hl with hl | hl
    · exact role_pathLexemes hl
    · exact h.2 l hl
  · rw [List.mem_singleton.1 hl]
    rfl

end Condition

/-! ### Texts that are rows of operands -/

/-- A text that is one operand. -/
def WritesOperand (text : List Char) (f : Formula) : Prop :=
  ∃ ls, Lexes .between text ls .between ∧ ReadsOperand ls f

/-- A text that is a row of operands with connectives between them. -/
def Writes (text : List Char) (first : Connective × Formula)
    (rest : List (Connective × Formula)) : Prop :=
  ∃ ls, Lexes .between text ls .between ∧ ReadsChain ls first rest

/-- An inert condition is written as one operand. -/
theorem Condition.writesOperand {c : Condition} (h : c.Inert) : WritesOperand c.text c.formula :=
  ⟨c.lexemes, lexes_text h, readsOperand h⟩

/-- One operand is a row of operands that nothing follows; the connective behind it is free. -/
theorem WritesOperand.last {text : List Char} {f : Formula} (h : WritesOperand text f)
    (c : Connective) : Writes text (c, f) [] := by
  obtain ⟨ls, hlexes, hreads⟩ := h
  exact ⟨ls, hlexes, .last c hreads⟩

/-- A separator is one lexeme, the word of its connective. -/
theorem Segment.lexes_separator (s : Segment) :
    ∃ l, Lexes .between s.separator [l] .between ∧ l.role = .joint s.connective := by
  unfold separator
  cases s.connective with
  | and => exact ⟨.word ['A', 'N', 'D'], fun _ => rfl, by decide⟩
  | or => exact ⟨.word ['O', 'R'], fun _ => rfl, by decide⟩

/-- An operand, the separator of its segment and a row of operands are a longer row. -/
theorem WritesOperand.join {text more : List Char} {f : Formula} (h : WritesOperand text f)
    (s : Segment) {next : Connective × Formula} {rest : List (Connective × Formula)}
    (hmore : Writes more next rest) :
    Writes (text ++ s.separator ++ more) (s.connective, f) (next :: rest) := by
  obtain ⟨ls, hlexes, hreads⟩ := h
  obtain ⟨ms, hlexes', hreads'⟩ := hmore
  obtain ⟨l, hseparator, hrole⟩ := s.lexes_separator
  have hall := (hlexes.append hseparator).append hlexes'
  rw [List.append_assoc ls, List.singleton_append] at hall
  exact ⟨_, hall, .join hreads hrole hreads'⟩

/-- A row in parentheses is one operand. -/
theorem Writes.operand {text : List Char} {first : Connective × Formula}
    {rest : List (Connective × Formula)} (h : Writes text first rest) :
    WritesOperand ('(' :: text ++ [')']) (Level.empty.chain first rest) := by
  obtain ⟨ls, hlexes, hreads⟩ := h
  have hopen : Lexes .between ['('] [.sign '('] .between := Sql.lexes_char _ _
  have hclose : Lexes .between [')'] [.sign ')'] .between := Sql.lexes_char _ _
  exact ⟨_, (hopen.append hlexes).append hclose, hreads.operand⟩

/-- A row of operands is parsed as the chain of its operands. -/
theorem Writes.parse? {text : List Char} {first : Connective × Formula}
    {rest : List (Connective × Formula)} (h : Writes text first rest) :
    Sql.parse? text = some (Level.empty.chain first rest) := by
  obtain ⟨ls, hlexes, hreads⟩ := h
  unfold Sql.parse? Sql.lexemes
  rw [hlexes.lex_eq]
  exact hreads.read?

/-! ### Segments -/

namespace Segment

/-- The formula of a segment: its conditions joined by its connective. -/
def formula (s : Segment) : Formula :=
  match s.conditions with
  | [] => .atom []
  | c :: rest =>
    Level.empty.chain (s.connective, c.formula) (rest.map fun d => (s.connective, d.formula))

/-- The conditions of a segment are a row. -/
theorem writes_conditions (s : Segment) {c : Condition} {rest : List Condition}
    (h : ∀ d ∈ c :: rest, d.Inert) :
    Writes (List.intercalate s.separator ((c :: rest).map Condition.text))
      (s.connective, c.formula) (rest.map fun d => (s.connective, d.formula)) := by
  induction rest generalizing c with
  | nil =>
    rw [List.map_singleton, List.intercalate_singleton]
    exact (Condition.writesOperand (h c List.mem_cons_self)).last s.connective
  | cons next rest ih =>
    have hc := Condition.writesOperand (h c List.mem_cons_self)
    rw [List.map_cons, List.map_cons, List.intercalate_cons_cons]
    exact hc.join s (ih fun d hd => h d (List.mem_cons_of_mem c hd))

/-- In a group of segments, each is one operand. -/
theorem writesOperand_text {s : Segment} (hne : s.conditions ≠ [])
    (h : ∀ d ∈ s.conditions, d.Inert) : WritesOperand (s.text true) s.formula := by
  obtain ⟨connective, conditions⟩ := s
  obtain ⟨c, rest, rfl⟩ := List.exists_cons_of_ne_nil hne
  have hrow := writes_conditions ⟨connective, c :: rest⟩ h
  cases rest with
  | nil =>
    -- a single condition is an operand as it stands
    have htext : text true ⟨connective, [c]⟩ = c.text := by
      unfold text
      rw [if_neg (by simp), List.map_singleton, List.intercalate_singleton]
    rw [htext]
    exact Condition.writesOperand (h c List.mem_cons_self)
  | cons next rest =>
    have htext : text true ⟨connective, c :: next :: rest⟩ =
        '(' :: List.intercalate (separator ⟨connective, c :: next :: rest⟩)
          ((c :: next :: rest).map Condition.text) ++ [')'] := by
      unfold text
      rw [if_pos (by simp)]
    rw [htext]
    exact hrow.operand

end Segment

/-! ### Predicates -/

namespace Predicate

variable {p : Predicate}

/-- The formula of a predicate: its segments, each joined to the next by its connective. -/
def formula? (p : Predicate) : Option Formula :=
  match p.segments with
  | [] => none
  | s :: rest => some (Level.empty.chain (s.connective, s.formula)
      (rest.map fun t => (t.connective, t.formula)))

/-- A group of segments is a row. -/
theorem writes_segmentsText {s : Segment} {rest : List Segment}
    (hne : ∀ t ∈ s :: rest, t.conditions ≠ []) (h : ∀ t ∈ s :: rest, ∀ c ∈ t.conditions, c.Inert) :
    Writes (segmentsText true (s :: rest)) (s.connective, s.formula)
      (rest.map fun t => (t.connective, t.formula)) := by
  induction rest generalizing s with
  | nil =>
    have hs := Segment.writesOperand_text (hne s List.mem_cons_self) (h s List.mem_cons_self)
    exact hs.last s.connective
  | cons next rest ih =>
    have hs := Segment.writesOperand_text (hne s List.mem_cons_self) (h s List.mem_cons_self)
    exact hs.join s (ih (fun t ht => hne t (List.mem_cons_of_mem s ht))
      fun t ht => h t (List.mem_cons_of_mem s ht))

/-- **The text of a predicate is read as its formula.** -/
theorem parse_compiled (hne : ∀ s ∈ p.segments, s.conditions ≠ []) (h : ∀ c ∈ p.conditions, c.Inert)
    {compiled : Sql.Fragment} (hcompile : p.compile? = some compiled) :
    ∃ f, p.formula? = some f ∧ Sql.parse? compiled.text = some f := by
  have hinert : ∀ s ∈ p.segments, ∀ c ∈ s.conditions, c.Inert := fun s hs c hc =>
    h c (List.mem_flatMap.2 ⟨s, hs, hc⟩)
  obtain ⟨segments⟩ := p
  cases segments with
  | nil => cases hcompile
  | cons s rest =>
    cases hcompile
    cases rest with
    | nil =>
      -- a single segment has no parentheses, whether it has one condition or more
      obtain ⟨connective, conditions⟩ := s
      obtain ⟨c, rest, rfl⟩ := List.exists_cons_of_ne_nil (hne _ List.mem_cons_self)
      have hrow := Segment.writes_conditions ⟨connective, c :: rest⟩ (hinert _ List.mem_cons_self)
      exact ⟨_, rfl, hrow.parse?⟩
    | cons next rest =>
      have hgrouped : decide (1 < (s :: next :: rest).length) = true := by simp
      refine ⟨_, rfl, ?_⟩
      show Sql.parse? (segmentsText (decide (1 < (s :: next :: rest).length)) _) = _
      rw [hgrouped]
      exact (writes_segmentsText hne hinert).parse?

end Predicate

/-! ### Truth -/

/-- The truth of a segment whose conditions are numbered from `n` on: all of them hold, or one
does. -/
def Segment.value (v : Nat → Bool) (n : Nat) (s : Segment) : Bool :=
  match s.connective with
  | .and => (List.range' n s.conditions.length).all v
  | .or => (List.range' n s.conditions.length).any v

/-- The connectives and truth values of segments whose conditions are numbered from `n` on. -/
def segmentValues (v : Nat → Bool) (n : Nat) : List Segment → List (Connective × Bool)
  | [] => []
  | s :: rest => (s.connective, s.value v n) :: segmentValues v (n + s.conditions.length) rest

/-- The meaning of a list of segments, where `v` tells the truth of their conditions, numbered from
left to right: the segments are cut behind each `OR` segment but the last, and all segments of some
run hold. -/
def meaning (v : Nat → Bool) (segments : List Segment) : Bool :=
  Sql.someRun (segmentValues v 0 segments)

namespace Segment

variable (v : Nat → Bool)

/-- The conditions of a segment have the truth values under their numbers. -/
theorem truths_conditions (connective : Connective) (n : Nat) (conditions : List Condition) :
    Sql.truths v n (conditions.map fun d => (connective, d.formula)) =
      (List.range' n conditions.length).map fun i => (connective, v i) := by
  induction conditions generalizing n with
  | nil => rfl
  | cons c rest ih =>
    rw [List.map_cons, Sql.truths, List.length_cons, List.range'_succ, List.map_cons]
    exact congrArg _ (ih (n + 1))

/-- Joined by `AND`, values are one run, which holds if all of them do. -/
theorem someRun_and {numbers : List Nat} (hne : numbers ≠ []) :
    Sql.someRun (numbers.map fun i => (.and, v i)) = numbers.all v := by
  obtain ⟨front, last, rfl⟩ := List.eq_nil_or_concat numbers |>.resolve_left hne
  rw [List.concat_eq_append, List.map_append, List.map_singleton, Sql.someRun_concat]
  · simp [Function.comp_def]
  · intro a ha
    obtain ⟨i, -, rfl⟩ := List.mem_map.1 ha
    rfl

/-- Joined by `OR`, each value is a run of its own, and one of them has to hold. -/
theorem someRun_or (numbers : List Nat) :
    Sql.someRun (numbers.map fun i => (.or, v i)) = numbers.any v := by
  induction numbers with
  | nil => rfl
  | cons i rest ih =>
    have hcut := @Sql.someRun_or [] (by simp) (v i) (rest.map fun i => (.or, v i))
    rw [List.nil_append, ih] at hcut
    rw [List.map_cons, hcut, List.any_cons]
    rfl

/-- The atoms of the formula of a segment are its conditions, in order. -/
theorem atoms_formula {s : Segment} (hne : s.conditions ≠ []) :
    s.formula.atoms = s.conditions.map Condition.lexemes := by
  obtain ⟨connective, conditions⟩ := s
  obtain ⟨c, rest, rfl⟩ := List.exists_cons_of_ne_nil hne
  exact (Level.row_eq (fun _ => false) 0 (fun d => (connective, d.formula)) c rest).1.trans
    (List.flatMap_pure_eq_map _ _)

/-- The formula of a segment has one number for each condition. -/
theorem size_formula {s : Segment} (hne : s.conditions ≠ []) :
    s.formula.size = s.conditions.length := by
  rw [← Formula.length_atoms, atoms_formula hne, List.length_map]

/-- The formula of a segment has its truth. -/
theorem holds_formula {s : Segment} (hne : s.conditions ≠ []) (n : Nat) :
    s.formula.holds v n = s.value v n := by
  obtain ⟨connective, conditions⟩ := s
  obtain ⟨c, rest, rfl⟩ := List.exists_cons_of_ne_nil hne
  have hrow := (Level.row_eq v n (fun d => (connective, d.formula)) c rest).2
  rw [truths_conditions] at hrow
  refine hrow.trans ?_
  cases connective with
  | and => exact someRun_and v (by simp)
  | or => exact someRun_or v _

end Segment

namespace Predicate

variable {p : Predicate}

/-- The operands of a predicate have the truth values of its segments. -/
theorem truths_segments (v : Nat → Bool) (n : Nat) {segments : List Segment}
    (hne : ∀ s ∈ segments, s.conditions ≠ []) :
    Sql.truths v n (segments.map fun s => (s.connective, s.formula)) =
      segmentValues v n segments := by
  induction segments generalizing n with
  | nil => rfl
  | cons s rest ih =>
    have hs := hne s List.mem_cons_self
    rw [List.map_cons, Sql.truths, segmentValues, Segment.holds_formula v hs,
      Segment.size_formula hs, ih _ fun t ht => hne t (List.mem_cons_of_mem s ht)]

/-- The formula of a predicate has its conditions as atoms, and its meaning. -/
theorem holds_formula? (hne : ∀ s ∈ p.segments, s.conditions ≠ []) {f : Formula}
    (h : p.formula? = some f) :
    f.atoms = p.conditions.map Condition.lexemes ∧
      ∀ v, f.holds v 0 = meaning v p.segments := by
  obtain ⟨segments⟩ := p
  cases segments with
  | nil => cases h
  | cons s rest =>
    cases h
    refine ⟨?_, fun v => ?_⟩
    · have hrow := (Level.row_eq (fun _ => false) 0 (fun t : Segment => (t.connective, t.formula))
        s rest).1
      rw [hrow, conditions, List.map_flatMap]
      exact List.flatMap_congr fun t ht => Segment.atoms_formula (hne t ht)
    · have hrow := (Level.row_eq v 0 (fun t : Segment => (t.connective, t.formula)) s rest).2
      rw [hrow, truths_segments v 0 hne]
      rfl

/-! ### All predicates -/

/-- The predicate of a sequence of pushes. -/
def ofPushes (pushes : List (Connective × List Condition)) : Predicate :=
  pushes.foldl (fun p s => p.push s.1 s.2) empty

/-- The segments of a sequence of pushes: those with conditions. -/
def segmentsOf (pushes : List (Connective × List Condition)) : List Segment :=
  (pushes.filter fun s => !s.2.isEmpty).map fun s => ⟨s.1, s.2⟩

/-- What is pushed without conditions leaves no segment. -/
theorem segments_ofPushes (pushes : List (Connective × List Condition)) :
    (ofPushes pushes).segments = segmentsOf pushes := by
  unfold ofPushes
  induction pushes using List.reverseRecOn with
  | nil => rfl
  | append_singleton pushes s ih =>
    rw [List.foldl_append, List.foldl_cons, List.foldl_nil, push]
    unfold segmentsOf
    rw [List.filter_append, List.map_append]
    cases h : s.2.isEmpty with
    | true =>
      rw [if_pos rfl, ih]
      simp [segmentsOf, h]
    | false =>
      rw [if_neg Bool.false_ne_true, ih]
      simp [segmentsOf, h]

/-- Every segment that is left has conditions. -/
theorem conditions_ne_nil_of_pushes {pushes : List (Connective × List Condition)} :
    ∀ s ∈ segmentsOf pushes, s.conditions ≠ [] := by
  intro s hs
  obtain ⟨push, hpush, rfl⟩ := List.mem_map.1 hs
  have hne := (List.mem_filter.1 hpush).2
  simpa using hne

/-- The conditions of a predicate are those that were pushed, in order. -/
theorem conditions_ofPushes (pushes : List (Connective × List Condition)) :
    (ofPushes pushes).conditions = pushes.flatMap Prod.snd := by
  unfold conditions
  rw [segments_ofPushes]
  unfold segmentsOf
  induction pushes with
  | nil => rfl
  | cons s rest ih =>
    rw [List.flatMap_cons, ← ih, List.filter_cons]
    obtain ⟨connective, conditions⟩ := s
    cases conditions with
    | nil => rfl
    | cons c conditions => rfl

/-- A predicate is empty if nothing but empty lists was pushed. -/
theorem isEmpty_ofPushes {pushes : List (Connective × List Condition)} :
    (ofPushes pushes).isEmpty = true ↔ ∀ s ∈ pushes, s.2 = [] := by
  unfold isEmpty
  rw [segments_ofPushes, List.isEmpty_iff]
  unfold segmentsOf
  rw [List.map_eq_nil_iff, List.filter_eq_nil_iff]
  simp

/-- The text in front of the last segment has the connectives of the segments in front of it. -/
theorem segmentsText_concat (grouped : Bool) (segments : List Segment) (s : Segment) :
    segmentsText grouped (segments ++ [s]) =
      segments.flatMap (fun t => t.text grouped ++ t.separator) ++ s.text grouped := by
  induction segments with
  | nil => rfl
  | cons t rest ih =>
    rw [List.flatMap_cons, List.append_assoc, ← ih]
    cases rest <;> rfl

/-- The last segment is written without a separator behind it, whatever its connective. -/
theorem compile?_concat (front : List (Connective × List Condition)) {conditions : List Condition}
    (hne : conditions ≠ []) (connective : Connective) :
    ∃ values, (ofPushes (front ++ [(connective, conditions)])).compile? =
      some ⟨(segmentsOf front).flatMap
          (fun t => t.text (!(segmentsOf front).isEmpty) ++ t.separator) ++
        Segment.text (!(segmentsOf front).isEmpty) ⟨connective, conditions⟩, values⟩ := by
  have hlast : segmentsOf [(connective, conditions)] = [⟨connective, conditions⟩] := by
    obtain ⟨c, rest, rfl⟩ := List.exists_cons_of_ne_nil hne
    rfl
  have hsegments : (ofPushes (front ++ [(connective, conditions)])).segments =
      segmentsOf front ++ [⟨connective, conditions⟩] := by
    rw [segments_ofPushes, ← hlast]
    unfold segmentsOf
    rw [List.filter_append, List.map_append]
  -- there are brackets as soon as there is a segment in front
  have hgrouped : decide (1 < (segmentsOf front ++ [Segment.mk connective conditions]).length) =
      !(segmentsOf front).isEmpty := by
    rw [List.length_append]
    cases segmentsOf front <;> simp
  refine ⟨(ofPushes (front ++ [(connective, conditions)])).values, ?_⟩
  unfold compile? isEmpty
  rw [hsegments, if_neg (by simp), hgrouped, segmentsText_concat]

/-- **The text of a predicate means what its segments say.** There is none exactly if no push had
conditions. Otherwise it is read as a formula that has the conditions as its atoms, from left to
right, and for all truth values of the conditions the meaning of the segments. The connective of the
last segment joins nothing: what stands in front of that segment does not depend on it. -/
theorem compile_means (pushes : List (Connective × List Condition))
    (h : ∀ s ∈ pushes, ∀ c ∈ s.2, c.Inert) :
    ((ofPushes pushes).compile? = none ↔ ∀ s ∈ pushes, s.2 = []) ∧
    (∀ compiled, (ofPushes pushes).compile? = some compiled →
      ∃ f, Sql.parse? compiled.text = some f ∧
        f.atoms = (pushes.flatMap Prod.snd).map (fun c => Sql.lexemes c.text) ∧
        ∀ v, f.holds v 0 = meaning v (segmentsOf pushes)) ∧
    ∀ front conditions, conditions ≠ [] → ∃ lead, ∀ connective, ∃ values,
      (ofPushes (front ++ [(connective, conditions)])).compile? =
        some ⟨lead ++ Segment.text (!(segmentsOf front).isEmpty) ⟨connective, conditions⟩,
          values⟩ := by
  refine ⟨?_, fun compiled hcompiled => ?_, fun front conditions hne =>
    ⟨_, fun connective => compile?_concat front hne connective⟩⟩
  · rw [← isEmpty_ofPushes]
    unfold compile?
    split <;> simp_all
  · have hne : ∀ s ∈ (ofPushes pushes).segments, s.conditions ≠ [] := by
      rw [segments_ofPushes]
      exact conditions_ne_nil_of_pushes
    have hinert : ∀ c ∈ (ofPushes pushes).conditions, c.Inert := by
      intro c hc
      rw [conditions_ofPushes] at hc
      obtain ⟨s, hs, hc⟩ := List.mem_flatMap.1 hc
      exact h s hs c hc
    -- the text is parsed as the formula of the segments, and that one has their meaning
    obtain ⟨f, hformula, hparse⟩ := parse_compiled hne hinert hcompiled
    obtain ⟨hatoms, hholds⟩ := holds_formula? hne hformula
    refine ⟨f, hparse, ?_, fun v => ?_⟩
    · rw [hatoms, ← conditions_ofPushes]
      exact List.map_congr_left fun c hc => (Condition.lexemes_text (hinert c hc)).symm
    · rw [hholds, segments_ofPushes]

end Predicate

namespace Survey

/-- Conditions of an `OR` segment between two `AND` segments, and no conditions. -/
def mixed : List (Connective × List Condition) :=
  [(.and, [⟨"a", "=", .int (some 1)⟩]), (.or, []),
    (.or, [⟨"b) OR", "is not distinct from", .int (some 2)⟩, ⟨"t.c\"", "<>", .int (some 3)⟩]),
    (.and, [⟨"d", "=", .int (some 4)⟩])]

/-- Their text. -/
def mixedText : String :=
  "\"a\" = ? AND (\"b) OR\" is not distinct from ? OR \"t\".\"c\"\"\" <> ?) OR \"d\" = ?"

end Survey

/-- Four pushes, the second without conditions: the conditions of the third are in brackets, since
it is not the first. -/
theorem Predicate.compile_means_mixed :
    (∀ s ∈ Survey.mixed, ∀ c ∈ s.2, c.Inert) ∧
      ∃ f, Sql.parse? Survey.mixedText.toList = some f ∧
        ∀ v, f.holds v 0 = ((v 0 && (v 1 || v 2)) || v 3) := by
  have hinert : ∀ s ∈ Survey.mixed, ∀ c ∈ s.2, c.Inert := by decide
  have hcompile : (Predicate.ofPushes Survey.mixed).compile? =
      some ⟨Survey.mixedText.toList, (Predicate.ofPushes Survey.mixed).values⟩ := by rfl
  obtain ⟨f, hparse, -, hholds⟩ := (compile_means Survey.mixed hinert).2.1 _ hcompile
  refine ⟨hinert, f, hparse, fun v => (hholds v).trans ?_⟩
  show ((v 0 && true) && (((v 1 || (v 2 || false)) && true)) ||
    ((v 3 && true) && true || false)) = _
  cases v 0 <;> cases v 1 <;> cases v 2 <;> cases v 3 <;> rfl

end QueryForest

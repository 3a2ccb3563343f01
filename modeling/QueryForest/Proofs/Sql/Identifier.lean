import QueryForest.Proofs.Sql.Lexeme

namespace QueryForest.Sql

/-!
# Quoted identifiers

A delimited identifier stands between double quotes, and a quote that is written twice stands for
one. A path of identifiers is read piece by piece, with single dots between the pieces.

* `readPath` — reads a path, and gives back what does not belong to it;
* `readPath_quotePath` — a quoted path is read as its pieces, whatever follows, unless it goes on
  with a quote or a dot; so quoting is injective (`quotePath_injective`);
* `quoteIdentifier_read` — the same for the text of a path, and in front of a space;
* `columnText_eq_iff` — the names that a column of a select list, a grouping or an ordering and a
  column of a condition write in the same way.
-/

/-! ### Reading a path -/

/-- Reads a delimited identifier behind its opening quote. -/
def readName : List Char → Option (List Char × List Char)
  | '"' :: '"' :: rest => (readName rest).map fun (name, rest) => ('"' :: name, rest)
  | '"' :: rest => some ([], rest)
  | c :: rest => (readName rest).map fun (name, rest) => (c :: name, rest)
  | [] => none

/-- Reads a piece of a path: a bare star or a delimited identifier. -/
def readPiece : List Char → Option (Lexeme × List Char)
  | '*' :: rest => some (.sign '*', rest)
  | '"' :: rest => (readName rest).map fun (name, rest) => (.quoted '"' name, rest)
  | _ => none

/-- Reading a name leaves less text than there was. -/
theorem length_of_readName {cs name rest : List Char} (h : readName cs = some (name, rest)) :
    rest.length < cs.length := by
  fun_induction readName cs generalizing name with
  | case1 cs ih =>
    obtain ⟨⟨name', rest'⟩, hread, heq⟩ := Option.map_eq_some_iff.1 h
    cases heq
    have hlength := ih hread
    simp only [List.length_cons]
    omega
  | case2 cs =>
    cases h
    simp
  | case3 c cs _ _ ih =>
    obtain ⟨⟨name', rest'⟩, hread, heq⟩ := Option.map_eq_some_iff.1 h
    cases heq
    exact Nat.lt_succ_of_lt (ih hread)
  | case4 => cases h

/-- Reading a piece leaves less text than there was. -/
theorem length_of_readPiece {cs rest : List Char} {piece : Lexeme}
    (h : readPiece cs = some (piece, rest)) : rest.length < cs.length := by
  unfold readPiece at h
  split at h
  · cases h
    simp
  · obtain ⟨⟨name, rest'⟩, hread, heq⟩ := Option.map_eq_some_iff.1 h
    cases heq
    exact Nat.lt_succ_of_lt (length_of_readName hread)
  · cases h

/-- Reads pieces as long as a dot follows, and gives back the rest. -/
def readPath (cs : List Char) : Option (List Lexeme × List Char) :=
  match _h : readPiece cs with
  | some (piece, '.' :: rest) => (readPath rest).map fun (pieces, rest) => (piece :: pieces, rest)
  | some (piece, rest) => some ([piece], rest)
  | none => none
termination_by cs.length
decreasing_by exact Nat.lt_of_succ_lt (length_of_readPiece _h)

/-! ### What quoting writes is read -/

/-- A text does not start with a given character. -/
def NotAhead (c : Char) (text : List Char) : Prop := text.head? ≠ some c

@[simp] theorem notAhead_nil (c : Char) : NotAhead c [] := by simp [NotAhead]

@[simp] theorem notAhead_cons {c d : Char} {text : List Char} : NotAhead c (d :: text) ↔ d ≠ c := by
  simp [NotAhead]

/-- A name with its quotes doubled is read up to the quote that closes it. -/
theorem readName_doubleQuotes (name : List Char) {rest : List Char} (h : NotAhead '"' rest) :
    readName (doubleQuotes name ++ '"' :: rest) = some (name, rest) := by
  induction name with
  | nil =>
    show readName ('"' :: rest) = some ([], rest)
    cases rest with
    | nil => rfl
    | cons c rest =>
      -- no second quote follows, so this one closes the identifier
      rw [readName]
      intro _ heq
      exact notAhead_cons.1 h (List.cons.inj heq).1
  | cons c name ih =>
    show readName ((if c = '"' then ['"', '"'] else [c]) ++ doubleQuotes name ++ '"' :: rest) = _
    rw [List.append_assoc]
    split
    · next hc =>
      subst hc
      show readName ('"' :: '"' :: (doubleQuotes name ++ '"' :: rest)) = _
      rw [readName, ih, Option.map_some]
    · next hc =>
      show readName (c :: (doubleQuotes name ++ '"' :: rest)) = _
      rw [readName, ih, Option.map_some]
      · exact fun _ heq _ => hc heq
      · exact hc

/-- A quoted piece is read as the piece, whatever follows it except a quote. -/
theorem readPiece_quotePiece (piece : List Char) {rest : List Char} (h : NotAhead '"' rest) :
    readPiece (quotePiece piece ++ rest) = some (pieceLexeme piece, rest) := by
  unfold quotePiece pieceLexeme
  split
  · rfl
  · have htext : quoteName piece ++ rest = '"' :: (doubleQuotes piece ++ '"' :: rest) := by
      simp [quoteName]
    rw [htext, readPiece, readName_doubleQuotes piece h, Option.map_some]

/-- Behind a dot the path goes on. -/
theorem readPath_of_dot {cs rest : List Char} {piece : Lexeme}
    (h : readPiece cs = some (piece, '.' :: rest)) :
    readPath cs = (readPath rest).map fun (pieces, rest) => (piece :: pieces, rest) := by
  rw [readPath]
  split
  · next heq =>
    rw [h] at heq
    cases heq
    rfl
  · next hne heq =>
    rw [h] at heq
    cases heq
    exact absurd rfl (hne rest)
  · next heq =>
    rw [h] at heq
    cases heq

/-- Without a dot behind a piece the path ends. -/
theorem readPath_of_end {cs rest : List Char} {piece : Lexeme}
    (h : readPiece cs = some (piece, rest)) (hdot : NotAhead '.' rest) :
    readPath cs = some ([piece], rest) := by
  rw [readPath]
  split
  · next heq =>
    rw [h] at heq
    cases heq
    exact absurd rfl hdot
  · next heq =>
    rw [h] at heq
    cases heq
    rfl
  · next heq =>
    rw [h] at heq
    cases heq

/-- Quoted pieces with dots between them are read as these pieces, if neither a quote nor a dot
follows. -/
theorem readPath_quotePieces (piece : List Char) (pieces : List (List Char)) {rest : List Char}
    (hquote : NotAhead '"' rest) (hdot : NotAhead '.' rest) :
    readPath (List.intercalate ['.'] ((piece :: pieces).map quotePiece) ++ rest) =
      some ((piece :: pieces).map pieceLexeme, rest) := by
  induction pieces generalizing piece with
  | nil =>
    rw [List.map_singleton, List.intercalate_singleton]
    exact readPath_of_end (readPiece_quotePiece piece hquote) hdot
  | cons next pieces ih =>
    have htext : List.intercalate ['.'] ((piece :: next :: pieces).map quotePiece) ++ rest =
        quotePiece piece ++
          '.' :: (List.intercalate ['.'] ((next :: pieces).map quotePiece) ++ rest) := by
      rw [List.map_cons, List.map_cons, List.intercalate_cons_cons]
      simp
    have hahead : ∀ text, NotAhead '"' ('.' :: text) := by simp
    rw [htext, readPath_of_dot (readPiece_quotePiece piece (hahead _)), ih next]
    rfl

/-- **A quoted path is read back**: its reading gives the pieces and leaves what follows, as long as
that does not start with a quote or a dot. -/
theorem readPath_quotePath (path : List Char) {rest : List Char} (hquote : NotAhead '"' rest)
    (hdot : NotAhead '.' rest) :
    readPath (quotePath path ++ rest) = some ((path.splitOn '.').map pieceLexeme, rest) := by
  unfold quotePath
  obtain ⟨piece, pieces, hsplit⟩ := List.exists_cons_of_ne_nil (List.splitOn_ne_nil '.' path)
  rw [hsplit]
  exact readPath_quotePieces piece pieces hquote hdot

/-- A quoted path is read as its pieces at the end of a text. -/
theorem readPath_quotePath_nil (path : List Char) :
    readPath (quotePath path) = some ((path.splitOn '.').map pieceLexeme, []) := by
  have hread := readPath_quotePath path (notAhead_nil '"') (notAhead_nil '.')
  rwa [List.append_nil] at hread

/-- A quoted path is read as its pieces in front of a blank. -/
theorem readPath_quotePath_space (path rest : List Char) :
    readPath (quotePath path ++ ' ' :: rest) =
      some ((path.splitOn '.').map pieceLexeme, ' ' :: rest) :=
  readPath_quotePath path (by simp) (by simp)

/-! ### Different paths -/

/-- Different pieces are different lexemes. -/
theorem pieceLexeme_injective : Function.Injective pieceLexeme := by
  intro a b h
  unfold pieceLexeme at h
  split at h <;> split at h
  · next ha hb => rw [ha, hb]
  · cases h
  · cases h
  · exact (Lexeme.quoted.inj h).2

/-- Paths that are quoted alike have the same pieces. -/
theorem splitOn_eq_of_quotePath_eq {a b : List Char} (h : quotePath a = quotePath b) :
    a.splitOn '.' = b.splitOn '.' := by
  have hread := readPath_quotePath_nil a
  rw [h, readPath_quotePath_nil b] at hread
  have hpieces := (Prod.mk.inj (Option.some.inj hread)).1
  exact (List.map_inj_right pieceLexeme_injective).1 hpieces.symm

/-- Different paths are quoted differently. -/
theorem quotePath_injective : Function.Injective quotePath := by
  intro a b h
  calc a = List.intercalate ['.'] (a.splitOn '.') := (List.intercalate_splitOn '.').symm
    _ = List.intercalate ['.'] (b.splitOn '.') := by rw [splitOn_eq_of_quotePath_eq h]
    _ = b := List.intercalate_splitOn '.'

/-- **Nothing gets out of a quoted path.** Read as a path, the text of quoted identifiers is used up
and gives the pieces of the name, bare stars and delimited identifiers, with a dot between two;
different names have different texts; and what follows behind a space is left to itself, in the
reading of a path as in that of a statement. -/
theorem quoteIdentifier_read (name : String) :
    readPath (quoteIdentifier name).toList = some ((name.toList.splitOn '.').map pieceLexeme, []) ∧
    (∀ other, quoteIdentifier other = quoteIdentifier name ↔ other = name) ∧
    ∀ rest,
      readPath ((quoteIdentifier name).toList ++ ' ' :: rest) =
        some ((name.toList.splitOn '.').map pieceLexeme, ' ' :: rest) ∧
      lexemes ((quoteIdentifier name).toList ++ ' ' :: rest) =
        pathLexemes name.toList ++ lexemes rest := by
  have htext : ∀ s, (quoteIdentifier s).toList = quotePath s.toList := fun s =>
    String.toList_ofList
  refine ⟨?_, fun other => ⟨fun h => ?_, fun h => congrArg quoteIdentifier h⟩, fun rest => ⟨?_, ?_⟩⟩
  · rw [htext]
    exact readPath_quotePath_nil _
  · -- texts that are read back are different for different paths
    have hquoted : quotePath other.toList = quotePath name.toList := by rw [← htext, h, htext]
    exact String.toList_inj.1 (quotePath_injective hquoted)
  · rw [htext]
    exact readPath_quotePath_space _ rest
  · have hlexemes := lexes_quotePath name.toList rest
    rw [List.append_assoc, List.singleton_append] at hlexemes
    rw [htext]
    exact hlexemes

/-! ### Two ways to write a column -/

/-- A name is split at its first dot. -/
theorem eq_append_of_splitAtDot {name table column : List Char}
    (h : splitAtDot name = some (table, column)) :
    name = table ++ '.' :: column ∧ '.' ∉ table := by
  induction name generalizing table with
  | nil => cases h
  | cons c name ih =>
    unfold splitAtDot at h
    split at h
    · next hc =>
      cases h
      exact ⟨by rw [hc]; rfl, List.not_mem_nil⟩
    · next hc =>
      obtain ⟨⟨table', column'⟩, hsplit, heq⟩ := Option.map_eq_some_iff.1 h
      cases heq
      obtain ⟨rfl, hdot⟩ := ih hsplit
      exact ⟨rfl, fun hmem => (List.mem_cons.1 hmem).elim (fun heq => hc heq.symm) hdot⟩

/-- A name that is not split has no dot. -/
theorem not_mem_of_splitAtDot {name : List Char} (h : splitAtDot name = none) : '.' ∉ name := by
  induction name with
  | nil => exact List.not_mem_nil
  | cons c name ih =>
    unfold splitAtDot at h
    split at h
    · cases h
    · next hc =>
      have hrest := ih (Option.map_eq_none_iff.1 h)
      exact fun hmem => (List.mem_cons.1 hmem).elim (fun heq => hc heq.symm) hrest

/-- A path without dots is quoted as one piece. -/
theorem quotePath_of_not_mem {path : List Char} (h : '.' ∉ path) :
    quotePath path = quotePiece path := by
  unfold quotePath
  rw [List.splitOn_eq_singleton h, List.map_singleton, List.intercalate_singleton]

/-- The part in front of the first dot is quoted as a piece, the rest as a path. -/
theorem quotePath_append {table column : List Char} (h : '.' ∉ table) :
    quotePath (table ++ '.' :: column) = quotePiece table ++ '.' :: quotePath column := by
  unfold quotePath
  obtain ⟨piece, pieces, hsplit⟩ := List.exists_cons_of_ne_nil (List.splitOn_ne_nil '.' column)
  rw [List.splitOn_append_cons_self_of_not_mem h, hsplit, List.map_cons, List.map_cons,
    List.intercalate_cons_cons]
  simp

/-- A path is quoted as a single piece exactly when it is one. -/
theorem quotePiece_eq_quotePath_iff {path : List Char} :
    quotePiece path = quotePath path ↔ '.' ∉ path := by
  refine ⟨fun h hmem => ?_, fun h => (quotePath_of_not_mem h).symm⟩
  -- read as a single piece the text gives one lexeme, read as a path at least two
  have hread := readPiece_quotePiece path (notAhead_nil '"')
  have hone := readPath_of_end hread (notAhead_nil '.')
  rw [List.append_nil, h, readPath_quotePath_nil] at hone
  have hpieces := congrArg List.length (Prod.mk.inj (Option.some.inj hone)).1
  rw [List.length_map, List.length_singleton] at hpieces
  obtain ⟨before, after, rfl, hbefore⟩ := List.eq_append_cons_of_mem hmem
  rw [List.splitOn_append_cons_self_of_not_mem hbefore, List.length_cons] at hpieces
  exact List.splitOn_ne_nil '.' after (List.length_eq_zero_iff.1 (Nat.succ.inj hpieces))

/-- The text of a column with a table: the table is quoted whatever it is. -/
theorem text_ofName_of_splitAtDot {name table column : List Char}
    (h : splitAtDot name = some (table, column)) :
    (ColumnReference.ofName name).text = quoteName table ++ '.' :: quotePiece column := by
  unfold ColumnReference.ofName quotePiece
  rw [h]
  dsimp only
  split <;> rfl

/-- The text of a column without a table. -/
theorem text_ofName_of_none {name : List Char} (h : splitAtDot name = none) :
    (ColumnReference.ofName name).text = quotePiece name := by
  unfold ColumnReference.ofName quotePiece
  rw [h]
  dsimp only
  split <;> rfl

/-- **Where the two agree.** A name is written in the same way as a column of a select list, a
grouping or an ordering and as a column of a condition exactly if it has one dot at most and, with
one, no star for the table in front of it. -/
theorem columnText_eq_iff (name : String) :
    String.ofList (columnText name) = quoteIdentifier name ↔
      name.toList.count '.' ≤ 1 ∧ ∀ column, name.toList ≠ '*' :: '.' :: column := by
  unfold columnText quoteIdentifier
  rw [String.ofList_inj]
  generalize name.toList = path
  cases hsplit : splitAtDot path with
  | none =>
    -- without a dot both write the one piece
    have hdot := not_mem_of_splitAtDot hsplit
    rw [text_ofName_of_none hsplit, quotePath_of_not_mem hdot]
    refine iff_of_true rfl ⟨?_, fun column heq => hdot ?_⟩
    · rw [List.count_eq_zero.2 hdot]
      exact Nat.zero_le 1
    · rw [heq]
      exact List.mem_cons_of_mem _ List.mem_cons_self
  | some parts =>
    obtain ⟨table, column⟩ := parts
    obtain ⟨rfl, hdot⟩ := eq_append_of_splitAtDot hsplit
    rw [text_ofName_of_splitAtDot hsplit, quotePath_append hdot]
    by_cases htable : table = ['*']
    · -- the star is quoted on one side only
      subst htable
      refine iff_of_false (fun heq => ?_) fun h => h.2 column rfl
      exact absurd (List.cons.inj heq).1 (by decide)
    · -- both write the table, and then the rest as one piece or as a path
      have hpiece : quotePiece table = quoteName table := if_neg htable
      have hcount : (table ++ '.' :: column).count '.' = column.count '.' + 1 := by
        rw [List.count_append, List.count_eq_zero.2 hdot, List.count_cons_self, Nat.zero_add]
      have hstar : ∀ rest, table ++ '.' :: column ≠ '*' :: '.' :: rest := by
        intro rest heq
        have hstar : '.' ∉ ['*'] := by decide
        have hsplits : (table ++ '.' :: column).splitOn '.' = (['*'] ++ '.' :: rest).splitOn '.' :=
          congrArg _ heq
        rw [List.splitOn_append_cons_self_of_not_mem hdot,
          List.splitOn_append_cons_self_of_not_mem hstar] at hsplits
        exact htable (List.cons.inj hsplits).1
      rw [hpiece, List.append_cancel_left_eq, List.cons.injEq, quotePiece_eq_quotePath_iff, hcount,
        ← List.count_eq_zero]
      exact ⟨fun h => ⟨by omega, hstar⟩, fun h => ⟨rfl, by omega⟩⟩

/-- Only the first dot separates in a select list, and a star in front of it is quoted there. -/
example : String.ofList (columnText "*.a.b") = "\"*\".\"a.b\"" ∧
    quoteIdentifier "*.a.b" = "*.\"a\".\"b\"" := by
  decide

end QueryForest.Sql

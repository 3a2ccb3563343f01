import QueryForest.Predicate

namespace QueryForest.Sql

/-!
# The lexemes of a statement

A database cuts the text of a statement into quoted names, words and single signs before it reads
it. In a quoted name nothing is a word or a sign, and a quote that is written twice belongs to the
name.

* `lexemes` — the lexemes of a text;
* `Lexes s text ls t` — from the state `s` a text is cut into `ls` and leads to the state `t`,
  whatever follows; texts are put together by `Lexes.append`;
* `lexes_quotePath` — a quoted path is cut into its pieces and the dots between them;
* `lexes_unquoted` — a text without quotes, with a space behind it, has its own lexemes.
-/

/-- A quoted name, a word or a single sign. -/
inductive Lexeme
  | quoted (quote : Char) (name : List Char)
  | word (letters : List Char)
  | sign (c : Char)
  deriving DecidableEq

/-- Where the cutting of a text stands. -/
inductive Lexing
  | between
  | word (letters : List Char)
  | quoted (quote : Char) (name : List Char)
  /-- Behind a quote that closes a name, unless it is written twice. -/
  | closed (quote : Char) (name : List Char)

/-- The quotes of names and of texts. -/
def isQuote (c : Char) : Bool := c = '"' || c = '\'' || c = '\x60'

/-- Letters and digits, and what else may stand in a word. -/
def isWordChar (c : Char) : Bool := c.isAlphanum || c = '_' || c = '$' || 128 ≤ c.toNat

namespace Lexing

/-- The lexeme that ends where the text is cut. -/
def pending : Lexing → List Lexeme
  | between => []
  | word letters => [.word letters]
  | quoted quote name | closed quote name => [.quoted quote name]

/-- A character in front of which the text is cut. -/
def enter (c : Char) : List Lexeme × Lexing :=
  if isQuote c then ([], quoted c [])
  else if isWordChar c then ([], word [c])
  else if c.isWhitespace then ([], between)
  else ([.sign c], between)

/-- The lexemes that end with the next character or in front of it, and the state behind it. -/
def step (c : Char) : Lexing → List Lexeme × Lexing
  | between => enter c
  | word letters =>
    if isWordChar c then ([], word (letters ++ [c]))
    else (.word letters :: (enter c).1, (enter c).2)
  | quoted quote name =>
    if c = quote then ([], closed quote name) else ([], quoted quote (name ++ [c]))
  | closed quote name =>
    if c = quote then ([], quoted quote (name ++ [c]))
    else (.quoted quote name :: (enter c).1, (enter c).2)

end Lexing

/-- The lexemes of a text that is read from a state on. -/
def lex : Lexing → List Char → List Lexeme
  | s, [] => s.pending
  | s, c :: cs => (s.step c).1 ++ lex (s.step c).2 cs

/-- The lexemes of a text. -/
def lexemes (text : List Char) : List Lexeme := lex .between text

/-! ### One text behind another -/

/-- A text is cut into some lexemes and leads from one state to another, whatever follows it. -/
def Lexes (s : Lexing) (text : List Char) (ls : List Lexeme) (t : Lexing) : Prop :=
  ∀ rest, lex s (text ++ rest) = ls ++ lex t rest

section Lexes

variable {s t u : Lexing} {a b : List Char} {ls ms : List Lexeme}

/-- The lexemes of two texts stand one behind the other. -/
theorem Lexes.append (ha : Lexes s a ls t) (hb : Lexes t b ms u) :
    Lexes s (a ++ b) (ls ++ ms) u := by
  intro rest
  rw [List.append_assoc, ha, hb, List.append_assoc]

theorem lexes_nil (s : Lexing) : Lexes s [] [] s := fun _ => rfl

theorem lexes_char (c : Char) (s : Lexing) : Lexes s [c] (s.step c).1 (s.step c).2 := fun _ => rfl

/-- A text that is cut off in the end has all its lexemes. -/
theorem Lexes.lex_eq (h : Lexes s a ls .between) : lex s a = ls := by
  have hrest := h []
  rw [List.append_nil] at hrest
  rw [hrest]
  exact List.append_nil ls

end Lexes

/-! ### Quoted paths -/

/-- Inside a name: its characters are read, and a quote that was written twice once. -/
theorem lexes_doubleQuotes (name before : List Char) :
    Lexes (.quoted '"' before) (doubleQuotes name) [] (.quoted '"' (before ++ name)) := by
  induction name generalizing before with
  | nil =>
    rw [List.append_nil]
    exact lexes_nil _
  | cons c name ih =>
    have hrest := ih (before ++ [c])
    rw [List.append_assoc, List.singleton_append] at hrest
    show Lexes _ ((if c = '"' then ['"', '"'] else [c]) ++ doubleQuotes name) _ _
    by_cases hc : c = '"'
    · -- the first of the two quotes closes the name, and the second opens it again
      subst hc
      have hfirst : Lexes (.quoted '"' before) ['"'] [] (.closed '"' before) := lexes_char _ _
      have hsecond : Lexes (.closed '"' before) ['"'] [] (.quoted '"' (before ++ ['"'])) :=
        lexes_char _ _
      exact (hfirst.append hsecond).append hrest
    · -- any other character is added to the name
      have hstep : Lexing.step c (.quoted '"' before) = ([], .quoted '"' (before ++ [c])) := by
        simp [Lexing.step, hc]
      have hfirst := lexes_char c (.quoted '"' before)
      rw [hstep] at hfirst
      rw [if_neg hc]
      exact hfirst.append hrest

/-- A quoted name is one lexeme, which is pending as long as a further quote may follow. -/
theorem lexes_quoteName (name : List Char) :
    Lexes .between (quoteName name) [] (.closed '"' name) := by
  have hopen : Lexes .between ['"'] [] (.quoted '"' []) := lexes_char _ _
  have hclose : Lexes (.quoted '"' name) ['"'] [] (.closed '"' name) := lexes_char _ _
  exact (hopen.append (lexes_doubleQuotes name [])).append hclose

/-- The lexeme of a piece of a path. -/
def pieceLexeme (piece : List Char) : Lexeme :=
  if piece = ['*'] then .sign '*' else .quoted '"' piece

/-- The lexemes of a quoted path: its pieces with dots between them. -/
def pathLexemes (path : List Char) : List Lexeme :=
  ((path.splitOn '.').map pieceLexeme).intersperse (.sign '.')

/-- A member of a list with separators is a separator or a member of the list. -/
theorem eq_or_mem_of_mem_intersperse {α : Type} {sep a : α} {items : List α}
    (h : a ∈ items.intersperse sep) : a = sep ∨ a ∈ items := by
  induction items with
  | nil => cases h
  | cons first rest ih =>
    cases rest with
    | nil => exact .inr h
    | cons next rest =>
      rcases List.mem_cons.1 h with rfl | h
      · exact .inr List.mem_cons_self
      · rcases List.mem_cons.1 h with rfl | h
        · exact .inl rfl
        · exact (ih h).imp_right (List.mem_cons_of_mem first)

/-- The lexemes of a path are dots and pieces. -/
theorem mem_pathLexemes {path : List Char} {l : Lexeme} (h : l ∈ pathLexemes path) :
    l = .sign '.' ∨ ∃ piece, l = pieceLexeme piece := by
  refine (eq_or_mem_of_mem_intersperse h).imp_right fun hpiece => ?_
  obtain ⟨piece, -, rfl⟩ := List.mem_map.1 hpiece
  exact ⟨piece, rfl⟩

/-- A piece ends where a dot or a space follows it. -/
theorem lexes_quotePiece (piece : List Char) {c : Char} (hc : c ≠ '"') :
    Lexes .between (quotePiece piece ++ [c]) (pieceLexeme piece :: (Lexing.enter c).1)
      (Lexing.enter c).2 := by
  unfold quotePiece pieceLexeme
  split
  · exact (lexes_char '*' .between).append (lexes_char c .between)
  · have hstep : Lexing.step c (.closed '"' piece) =
        (.quoted '"' piece :: (Lexing.enter c).1, (Lexing.enter c).2) := if_neg hc
    have hbehind := lexes_char c (.closed '"' piece)
    rw [hstep] at hbehind
    exact (lexes_quoteName piece).append hbehind

/-- Quoted pieces are cut into the pieces and the dots between them, once a blank follows. -/
theorem lexes_quotePieces (piece : List Char) (pieces : List (List Char)) :
    Lexes .between (List.intercalate ['.'] ((piece :: pieces).map quotePiece) ++ [' '])
      (((piece :: pieces).map pieceLexeme).intersperse (.sign '.')) .between := by
  induction pieces generalizing piece with
  | nil =>
    rw [List.map_singleton, List.intercalate_singleton]
    exact lexes_quotePiece piece (by decide)
  | cons next rest ih =>
    have hpiece : Lexes .between (quotePiece piece ++ ['.']) [pieceLexeme piece, .sign '.']
        .between := lexes_quotePiece piece (by decide)
    rw [List.map_cons, List.map_cons, List.intercalate_cons_cons, List.append_assoc]
    exact hpiece.append (ih next)

/-- A quoted path is cut into its pieces and the dots between them, once a blank follows. -/
theorem lexes_quotePath (path : List Char) :
    Lexes .between (quotePath path ++ [' ']) (pathLexemes path) .between := by
  unfold quotePath pathLexemes
  obtain ⟨piece, pieces, hsplit⟩ := List.exists_cons_of_ne_nil (List.splitOn_ne_nil '.' path)
  rw [hsplit]
  exact lexes_quotePieces piece pieces

/-! ### Texts without quotes -/

/-- A state outside of quotes. -/
def Lexing.Unquoted : Lexing → Prop
  | between | word _ => True
  | quoted .. | closed .. => False

/-- No quote is opened by a character that is none. -/
theorem Lexing.Unquoted.step {s : Lexing} (h : s.Unquoted) {c : Char} (hc : isQuote c = false) :
    (s.step c).2.Unquoted := by
  have henter : (enter c).2.Unquoted := by
    unfold enter
    rw [if_neg (by rw [hc]; exact Bool.false_ne_true)]
    split
    · trivial
    · split <;> trivial
  cases s with
  | between => exact henter
  | word letters =>
    rw [Lexing.step]
    split
    · trivial
    · exact henter
  | quoted quote name => cases h
  | closed quote name => cases h

/-- Outside of quotes a blank ends what is pending. -/
theorem Lexing.Unquoted.step_space {s : Lexing} (h : s.Unquoted) :
    s.step ' ' = (s.pending, between) := by
  cases s with
  | between => rfl
  | word letters => rfl
  | quoted quote name => cases h
  | closed quote name => cases h

/-- A text without quotes, cut off by a space. -/
theorem lexes_unquoted {text : List Char} (h : ∀ c ∈ text, isQuote c = false) :
    Lexes .between (text ++ [' ']) (lexemes text) .between := by
  -- behind the first character the text goes on inside a word or between two
  have hall : ∀ s : Lexing, s.Unquoted → Lexes s (text ++ [' ']) (lex s text) .between := by
    induction text with
    | nil =>
      intro s hs
      have hspace := lexes_char ' ' s
      rw [hs.step_space] at hspace
      exact hspace
    | cons c text ih =>
      intro s hs
      have hstep := hs.step (h c List.mem_cons_self)
      have hrest := ih (fun d hd => h d (List.mem_cons_of_mem c hd)) _ hstep
      exact (lexes_char c s).append hrest
  exact hall .between trivial

end QueryForest.Sql

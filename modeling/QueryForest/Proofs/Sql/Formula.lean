import Mathlib.Data.List.SplitBy
import QueryForest.Proofs.Sql.Lexeme

namespace QueryForest.Sql

/-!
# Reading a condition

A database reads the lexemes of a condition as a formula: parentheses first, and `AND` binds
tighter than `OR`. What stands between connectives and parentheses is an atom.

* `Formula` — conjunctions and disjunctions of atoms, and `Formula.holds`, its truth for an
  assignment of truth values to the atoms from left to right;
* `parse?` — the formula that a text is read as, if it is one;
* `Level.chain` — operands in a row, joined by the connectives behind them;
* `ReadsChain.run` — lexemes that are such a row are read as its formula;
* `Level.holds_chain` — the formula of a row is the disjunction of its `runs`.
-/

/-! ### Formulas -/

/-- Conjunctions and disjunctions of atoms, which are not read any further. -/
inductive Formula
  | atom (lexemes : List Lexeme)
  | and (f g : Formula)
  | or (f g : Formula)
  deriving DecidableEq

namespace Formula

/-- The number of atoms. -/
def size : Formula → Nat
  | atom _ => 1
  | and f g | or f g => f.size + g.size

/-- The atoms from left to right. -/
def atoms : Formula → List (List Lexeme)
  | atom lexemes => [lexemes]
  | and f g | or f g => f.atoms ++ g.atoms

/-- A formula has as many atoms as numbers. -/
theorem length_atoms (f : Formula) : f.atoms.length = f.size := by
  induction f with
  | atom _ => rfl
  | and f g hf hg => rw [atoms, List.length_append, hf, hg, size]
  | or f g hf hg => rw [atoms, List.length_append, hf, hg, size]

/-- The truth of a formula whose atoms are numbered from left to right, from `n` on, where `v` tells
the truth of each atom. -/
def holds (v : Nat → Bool) (n : Nat) : Formula → Bool
  | atom _ => v n
  | and f g => f.holds v n && g.holds v (n + f.size)
  | or f g => f.holds v n || g.holds v (n + f.size)

end Formula

/-! ### Reading -/

/-- What a lexeme does in a formula. -/
inductive Role
  | opening
  | closing
  | joint (connective : Connective)
  | plain
  deriving DecidableEq

/-- The connective with a given word, whatever the case of its letters. -/
def connective? (letters : List Char) : Option Connective :=
  if letters.map Char.toUpper = "AND".toList then some .and
  else if letters.map Char.toUpper = "OR".toList then some .or
  else none

/-- What a lexeme does in a formula: words and signs may be part of its structure, names not. -/
def Lexeme.role : Lexeme → Role
  | quoted _ _ => .plain
  | word letters => ((connective? letters).map .joint).getD .plain
  | sign c => if c = '(' then .opening else if c = ')' then .closing else .plain

/-- What was read at one depth of parentheses: the formula in front of the last `OR`, and behind
that the formula in front of the last `AND`. -/
structure Level where
  disjunction : Option Formula
  conjunction : Option Formula

namespace Level

/-- Nothing was read. -/
def empty : Level := ⟨none, none⟩

/-- The conjunction that ends with an operand. -/
def conjoin (l : Level) (f : Formula) : Formula :=
  match l.conjunction with
  | none => f
  | some g => .and g f

/-- The formula that ends with an operand. -/
def close (l : Level) (f : Formula) : Formula :=
  match l.disjunction with
  | none => l.conjoin f
  | some g => .or g (l.conjoin f)

/-- What was read with an operand and the connective behind it. -/
def join (l : Level) (f : Formula) : Connective → Level
  | .and => ⟨l.disjunction, some (l.conjoin f)⟩
  | .or => ⟨some (l.close f), none⟩

end Level

/-- The operand that is being read. -/
inductive Operand
  | missing
  | atom (lexemes : List Lexeme)
  /-- A formula in parentheses. -/
  | group (f : Formula)

/-- The formula of an operand. -/
def Operand.formula? : Operand → Option Formula
  | missing => none
  | atom lexemes => some (.atom lexemes)
  | group f => some f

/-- Where the reading of a formula stands: what was read in front of each open parenthesis, and
behind the last one, and the operand. -/
structure Reading where
  outer : List Level
  level : Level
  operand : Operand

namespace Reading

/-- The beginning. -/
def start : Reading := ⟨[], .empty, .missing⟩

/-- The reading of one more lexeme, if it may stand here. -/
def step (r : Reading) (l : Lexeme) : Option Reading :=
  match l.role, r.operand with
  | .opening, .missing => some ⟨r.level :: r.outer, .empty, .missing⟩
  | .closing, operand => do
    let f ← operand.formula?
    let level ← r.outer.head?
    some ⟨r.outer.tail, level, .group (r.level.close f)⟩
  | .joint c, operand => do
    let f ← operand.formula?
    some ⟨r.outer, r.level.join f c, .missing⟩
  | .plain, .missing => some { r with operand := .atom [l] }
  | .plain, .atom lexemes => some { r with operand := .atom (lexemes ++ [l]) }
  | _, _ => none

/-- The reading of more lexemes. -/
def run (r : Reading) (ls : List Lexeme) : Option Reading := ls.foldlM step r

/-- The formula that was read, if all parentheses are closed. -/
def formula? (r : Reading) : Option Formula :=
  if r.outer.isEmpty then r.operand.formula?.map r.level.close else none

end Reading

/-- The formula that lexemes are read as. -/
def read? (ls : List Lexeme) : Option Formula := (Reading.start.run ls).bind Reading.formula?

/-- The formula that a text is read as. -/
def parse? (text : List Char) : Option Formula := read? (lexemes text)

/-! ### Operands in a row -/

/-- The formula of operands in a row behind what was read at a level. Each operand stands with the
connective behind it; the connective of the last one is not used. -/
def Level.chain (l : Level) : Connective × Formula → List (Connective × Formula) → Formula
  | (_, f), [] => l.close f
  | (c, f), next :: rest => (l.join f c).chain next rest

namespace Level

/-- The atoms of a further operand stand behind those of the conjunction. -/
theorem atoms_conjoin (l : Level) (f : Formula) :
    (l.conjoin f).atoms = (l.conjunction.map Formula.atoms).getD [] ++ f.atoms := by
  unfold conjoin
  cases l.conjunction <;> rfl

/-- The atoms of a closed level are those of its disjunction, of its conjunction and of its last
operand. -/
theorem atoms_close (l : Level) (f : Formula) :
    (l.close f).atoms = (l.disjunction.map Formula.atoms).getD [] ++ (l.conjoin f).atoms := by
  unfold close
  cases l.disjunction <;> rfl

/-- The atoms of a row, from left to right. -/
theorem atoms_chain (l : Level) (first : Connective × Formula)
    (rest : List (Connective × Formula)) :
    (l.chain first rest).atoms = (l.disjunction.map Formula.atoms).getD [] ++
      (l.conjunction.map Formula.atoms).getD [] ++ (first :: rest).flatMap (·.2.atoms) := by
  induction rest generalizing l first with
  | nil =>
    rw [List.flatMap_cons, List.flatMap_nil, List.append_nil, chain, atoms_close, atoms_conjoin,
      List.append_assoc]
  | cons next rest ih =>
    obtain ⟨c, f⟩ := first
    have hrow : ((c, f) :: next :: rest).flatMap (·.2.atoms) =
        f.atoms ++ (next :: rest).flatMap (·.2.atoms) := List.flatMap_cons
    rw [chain, ih, hrow]
    -- `AND` makes the conjunction longer, `OR` moves it into the disjunction
    cases c with
    | and =>
      show _ ++ (l.conjoin f).atoms ++ _ = _
      rw [atoms_conjoin, ← List.append_assoc, ← List.append_assoc]
      rfl
    | or =>
      show (l.close f).atoms ++ [] ++ _ = _
      rw [atoms_close, atoms_conjoin, List.append_nil, List.append_assoc, List.append_assoc,
        List.append_assoc]

end Level

/-- Lexemes that are read as one operand, wherever an operand is missing. -/
def ReadsOperand (ls : List Lexeme) (f : Formula) : Prop :=
  ∀ outer level, ∃ operand, Reading.run ⟨outer, level, .missing⟩ ls = some ⟨outer, level, operand⟩ ∧
    operand.formula? = some f

/-- Lexemes that are a row of operands with connectives between them. -/
inductive ReadsChain : List Lexeme → Connective × Formula → List (Connective × Formula) → Prop
  | last {ls : List Lexeme} {f : Formula} (c : Connective) (h : ReadsOperand ls f) :
      ReadsChain ls (c, f) []
  | join {ls more : List Lexeme} {l : Lexeme} {c : Connective} {f : Formula}
      {next : Connective × Formula} {rest : List (Connective × Formula)} (h : ReadsOperand ls f)
      (hl : l.role = .joint c) (hmore : ReadsChain more next rest) :
      ReadsChain (ls ++ l :: more) (c, f) (next :: rest)

namespace Reading

/-- Lexemes are read one list after the other. -/
theorem run_append (r : Reading) (ls more : List Lexeme) :
    r.run (ls ++ more) = (r.run ls).bind fun s => s.run more := by
  unfold run
  rw [List.foldlM_append]
  rfl

theorem run_cons (r : Reading) (l : Lexeme) (ls : List Lexeme) :
    r.run (l :: ls) = (r.step l).bind fun s => s.run ls := by
  unfold run
  rw [List.foldlM_cons]
  rfl

end Reading

/-- Lexemes that are neither connectives nor brackets are an operand without connectives. -/
theorem readsOperand_atom {ls : List Lexeme} (hne : ls ≠ []) (h : ∀ l ∈ ls, l.role = .plain) :
    ReadsOperand ls (.atom ls) := by
  intro outer level
  refine ⟨.atom ls, ?_, rfl⟩
  -- each lexeme is added to the atom of those in front of it, so the last one is split off
  induction ls using List.reverseRecOn with
  | nil => exact absurd rfl hne
  | append_singleton ls l ih =>
    have hrole : l.role = .plain := h l (by simp)
    rw [Reading.run_append]
    cases hls : ls with
    | nil =>
      rw [List.nil_append]
      show Reading.run _ [l] = _
      rw [Reading.run_cons, Reading.step, hrole]
      rfl
    | cons first rest =>
      have hfront := ih (by rw [hls]; exact List.cons_ne_nil _ _)
        fun m hm => h m (List.mem_append_left _ hm)
      rw [← hls, hfront]
      show Reading.run _ [l] = _
      rw [Reading.run_cons, Reading.step, hrole]
      rfl

/-- **A row of operands** is read as its formula, behind whatever was read at its level. -/
theorem ReadsChain.run {ls : List Lexeme} {first : Connective × Formula}
    {rest : List (Connective × Formula)} (h : ReadsChain ls first rest) (outer : List Level)
    (level : Level) :
    ∃ last operand f, Reading.run ⟨outer, level, .missing⟩ ls = some ⟨outer, last, operand⟩ ∧
      operand.formula? = some f ∧ last.close f = level.chain first rest := by
  induction h generalizing level with
  | last c h =>
    obtain ⟨operand, hrun, hformula⟩ := h outer level
    exact ⟨level, operand, _, hrun, hformula, rfl⟩
  | @join ls more l c f next rest h hl _ ih =>
    obtain ⟨operand, hrun, hformula⟩ := h outer level
    obtain ⟨last, operand', g, hrest, hlast, hclose⟩ := ih (level.join f c)
    refine ⟨last, operand', g, ?_, hlast, hclose⟩
    rw [Reading.run_append, hrun, Option.bind_some, Reading.run_cons, Reading.step, hl]
    simp only [hformula]
    exact hrest

/-- A row of operands in parentheses is one operand. -/
theorem ReadsChain.operand {ls : List Lexeme} {first : Connective × Formula}
    {rest : List (Connective × Formula)} (h : ReadsChain ls first rest) :
    ReadsOperand (.sign '(' :: ls ++ [.sign ')']) (Level.empty.chain first rest) := by
  intro outer level
  obtain ⟨last, operand, f, hrun, hformula, hclose⟩ := h.run (level :: outer) .empty
  refine ⟨.group (Level.empty.chain first rest), ?_, rfl⟩
  rw [List.cons_append, Reading.run_cons]
  show Reading.run ⟨level :: outer, .empty, .missing⟩ (ls ++ [.sign ')']) = _
  rw [Reading.run_append, hrun, Option.bind_some, Reading.run_cons]
  show ((operand.formula?.bind fun f => some _).bind _ : Option Reading) = _
  rw [hformula, ← hclose]
  rfl

/-- A row of operands is read as their chain. -/
theorem ReadsChain.read? {ls : List Lexeme} {first : Connective × Formula}
    {rest : List (Connective × Formula)} (h : ReadsChain ls first rest) :
    Sql.read? ls = some (Level.empty.chain first rest) := by
  obtain ⟨last, operand, f, hrun, hformula, hclose⟩ := h.run [] .empty
  unfold Sql.read? Reading.start
  rw [hrun, ← hclose]
  show operand.formula?.map last.close = _
  rw [hformula]
  rfl

/-! ### The truth of a row -/

/-- The runs of a row: it is cut behind each operand with an `OR` behind it, the last one apart. -/
def runs {α : Type} (items : List (Connective × α)) : List (List (Connective × α)) :=
  items.splitBy fun a _ => a.1 == .and

/-- The truth of a row of operands with given truth values: some run has only true ones. -/
def someRun (items : List (Connective × Bool)) : Bool :=
  (runs items).any fun run => run.all Prod.snd

/-- A run of operands joined by `AND` is not broken up, whatever stands behind its last one. -/
theorem isChain_of_and {run : List (Connective × Bool)} (h : ∀ a ∈ run, a.1 = .and)
    (last : Connective × Bool) : (run ++ [last]).IsChain fun a _ => (a.1 == .and) = true := by
  induction run with
  | nil => exact List.isChain_singleton _
  | cons a run ih =>
    have hrest := ih fun b hb => h b (List.mem_cons_of_mem a hb)
    have ha : (a.1 == Connective.and) = true := by rw [h a List.mem_cons_self]; rfl
    cases run with
    | nil => exact List.isChain_pair.2 ha
    | cons b run => exact List.isChain_cons_cons.2 ⟨ha, hrest⟩

/-- A row with only `AND` in it is one run. -/
theorem someRun_concat {run : List (Connective × Bool)} (h : ∀ a ∈ run, a.1 = .and)
    (last : Connective × Bool) : someRun (run ++ [last]) = (run.all Prod.snd && last.2) := by
  unfold someRun runs
  rw [List.splitBy_of_isChain (by simp) (isChain_of_and h last)]
  simp

/-- Behind an `OR` the next run begins. -/
theorem someRun_or {run : List (Connective × Bool)} (h : ∀ a ∈ run, a.1 = .and) (b : Bool)
    (items : List (Connective × Bool)) :
    someRun (run ++ (.or, b) :: items) = ((run.all Prod.snd && b) || someRun items) := by
  have hcut : runs (run ++ [(.or, b)] ++ items) = runs (run ++ [(.or, b)]) ++ runs items := by
    refine List.splitBy_append fun x hx y _ => ?_
    rw [List.getLast?_concat, Option.mem_some_iff] at hx
    rw [← hx]
    rfl
  have hrun := someRun_concat h (.or, b)
  rw [List.append_assoc, List.singleton_append] at hcut
  unfold someRun at hrun ⊢
  rw [hcut, List.any_append, hrun]

/-- The connectives and truth values of a row of operands, with their atoms numbered from `n` on. -/
def truths (v : Nat → Bool) (n : Nat) : List (Connective × Formula) → List (Connective × Bool)
  | [] => []
  | (c, f) :: rest => (c, f.holds v n) :: truths v (n + f.size) rest

namespace Level

variable (v : Nat → Bool) (n : Nat)

/-- The number of atoms in front of the last `OR`. -/
def offset (l : Level) : Nat := (l.disjunction.map Formula.size).getD 0

/-- The number of atoms that were read. -/
def size (l : Level) : Nat := l.offset + (l.conjunction.map Formula.size).getD 0

/-- A further operand is counted behind the conjunction. -/
theorem size_conjoin (l : Level) (f : Formula) :
    l.offset + (l.conjoin f).size = l.size + f.size := by
  unfold size conjoin
  cases l.conjunction with
  | none => rfl
  | some g => exact (Nat.add_assoc _ _ _).symm

/-- A level grows by the numbers of the operand that is joined to it. -/
theorem size_join (l : Level) (f : Formula) (c : Connective) :
    (l.join f c).size = l.size + f.size := by
  rw [← size_conjoin]
  cases c with
  | and => rfl
  | or =>
    show (l.close f).size + 0 = _
    unfold close offset
    cases l.disjunction with
    | none => exact (Nat.zero_add _).symm
    | some g => rfl

/-- A conjunction with a further operand holds if both do. -/
theorem holds_conjoin (l : Level) (f : Formula) :
    (l.conjoin f).holds v (n + l.offset) =
      (l.conjunction.all (Formula.holds v (n + l.offset)) && f.holds v (n + l.size)) := by
  unfold conjoin size
  cases l.conjunction with
  | none => rfl
  | some g =>
    show (_ && f.holds v (n + l.offset + g.size)) = (_ && f.holds v (n + (l.offset + g.size)))
    rw [Nat.add_assoc]
    rfl

/-- A closed level holds if its disjunction does or its conjunction with the last operand. -/
theorem holds_close (l : Level) (f : Formula) :
    (l.close f).holds v n =
      (l.disjunction.any (Formula.holds v n) || (l.conjoin f).holds v (n + l.offset)) := by
  unfold close offset
  cases l.disjunction with
  | none => rfl
  | some g => rfl

/-- **The truth of a row** of operands: what was read in front of the last `OR` holds, or one of the
runs of the operands does, where the first run goes on with what was read behind that `OR`. -/
theorem holds_chain (l : Level) (first : Connective × Formula) (rest : List (Connective × Formula))
    (run : List (Connective × Bool)) (hrun : ∀ a ∈ run, a.1 = .and)
    (hopen : l.conjunction.all (Formula.holds v (n + l.offset)) = run.all Prod.snd) :
    (l.chain first rest).holds v n = (l.disjunction.any (Formula.holds v n) ||
      someRun (run ++ truths v (n + l.size) (first :: rest))) := by
  induction rest generalizing l first run with
  | nil =>
    obtain ⟨c, f⟩ := first
    show (l.close f).holds v n = (_ || someRun (run ++ [(c, f.holds v (n + l.size))]))
    rw [holds_close, holds_conjoin, hopen, someRun_concat hrun]
  | cons next rest ih =>
    obtain ⟨c, f⟩ := first
    have hsize := l.size_join f c
    have htruths : truths v (n + l.size) ((c, f) :: next :: rest) =
        (c, f.holds v (n + l.size)) :: truths v (n + (l.size + f.size)) (next :: rest) := by
      rw [truths, Nat.add_assoc]
    rw [htruths, chain]
    cases c with
    | and =>
      -- the run goes on with this operand
      have hgoes : ∀ a ∈ run ++ [(Connective.and, f.holds v (n + l.size))], a.1 = .and := by
        intro a ha
        rcases List.mem_append.1 ha with ha | ha
        · exact hrun a ha
        · rw [List.mem_singleton.1 ha]
      have hnext : (l.join f .and).conjunction.all (Formula.holds v (n + (l.join f .and).offset)) =
          (run ++ [(Connective.and, f.holds v (n + l.size))]).all Prod.snd := by
        show (l.conjoin f).holds v (n + l.offset) = _
        rw [holds_conjoin, hopen, List.all_append]
        simp
      have hall := ih (l.join f .and) next _ hgoes hnext
      rw [hsize, List.append_assoc] at hall
      exact hall
    | or =>
      -- the run ends with this operand, and all that was read is in front of the next one
      have hall := ih (l.join f .or) next [] (by simp) rfl
      rw [hsize] at hall
      have hclosed : (l.join f .or).disjunction.any (Formula.holds v n) =
          (l.disjunction.any (Formula.holds v n) ||
            (run.all Prod.snd && f.holds v (n + l.size))) := by
        show (l.close f).holds v n = _
        rw [holds_close, holds_conjoin, hopen]
      rw [hall, hclosed, someRun_or hrun, Bool.or_assoc, List.nil_append]

/-- A row with nothing in front of it: its atoms and its truth. -/
theorem row_eq {α : Type} (operand : α → Connective × Formula) (a : α) (rest : List α) :
    (empty.chain (operand a) (rest.map operand)).atoms =
        (a :: rest).flatMap (fun b => (operand b).2.atoms) ∧
      (empty.chain (operand a) (rest.map operand)).holds v n =
        someRun (truths v n ((a :: rest).map operand)) := by
  constructor
  · rw [atoms_chain]
    show [] ++ [] ++ ((a :: rest).map operand).flatMap _ = _
    rw [List.flatMap_map]
    rfl
  · have hchain := empty.holds_chain v n (operand a) (rest.map operand) [] (by simp) rfl
    rw [hchain]
    rfl

end Level

end QueryForest.Sql

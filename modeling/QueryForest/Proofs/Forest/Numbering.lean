import Mathlib.Data.List.Nodup
import QueryForest.Forest.Layout
import QueryForest.Proofs.Join.Plan

namespace QueryForest

/-!
# Plan and layout agree

The planner and the numbering of the layout are two recursions over the requested joins. Both go
through them in the same order, each node before the nodes below it.

* `Join.preorder`, `Node.preorder` — the models, and the nodes, in that order;
* `Node.Path` — the relations from a node to one below it;
* `Join.models_requestsAll` — the requests of a plan are for these models in this order;
* `Node.preorderAll_ofJoins` — the nodes of a layout are the requests, with positions that count up;
* `Layout.WellNumbered` — what this comes to for a whole layout: the tables are those of the nodes,
  each at its position, and all different.
-/

namespace Join

mutual

/-- The models of a join and of the joins below it, each before those below it. -/
def preorder : Join → List Model
  | ⟨model, nested⟩ => model :: preorderAll nested

/-- The models of several joins, in order. -/
def preorderAll : List Join → List Model
  | [] => []
  | join :: rest => preorder join ++ preorderAll rest

end

end Join

namespace Node

mutual

/-- A node and the nodes below it, each before those below it. -/
def preorder : Node → List Node
  | ⟨model, position, nested⟩ => ⟨model, position, nested⟩ :: preorderAll nested

/-- The nodes of several trees, in order. -/
def preorderAll : List Node → List Node
  | [] => []
  | node :: rest => preorder node ++ preorderAll rest

end

/-- A node comes first, and then those below it. -/
theorem preorder_eq (node : Node) : node.preorder = node :: preorderAll node.nested := by
  cases node
  rw [preorder]

/-- A node is among itself and those below it. -/
theorem mem_preorder_self (node : Node) : node ∈ node.preorder := by
  rw [preorder_eq]
  exact List.mem_cons_self

/-- What is below a node is among itself and those below it. -/
theorem mem_preorder_of_nested {node below : Node} (h : below ∈ preorderAll node.nested) :
    below ∈ node.preorder := by
  rw [preorder_eq]
  exact List.mem_cons_of_mem _ h

/-- Nodes keep their order when those below them are put in between. -/
theorem sublist_preorderAll (nodes : List Node) : nodes.Sublist (preorderAll nodes) := by
  induction nodes with
  | nil => exact List.Sublist.slnil
  | cons node rest ih =>
    rw [preorderAll, preorder_eq]
    exact List.Sublist.cons_cons node (ih.trans (List.sublist_append_right _ _))

/-- The nodes of one of several trees are among those of all, in order. -/
theorem preorder_sublist_preorderAll {node : Node} {nodes : List Node} (h : node ∈ nodes) :
    node.preorder.Sublist (preorderAll nodes) := by
  induction nodes with
  | nil => cases h
  | cons other rest ih =>
    rw [preorderAll]
    rcases List.mem_cons.1 h with rfl | h
    · exact List.sublist_append_left _ _
    · exact (ih h).trans (List.sublist_append_right _ _)

/-! Ways from a node to those below it. -/

/-- The relations that lead from a node to a node below it, the one of the first node first. -/
inductive Path : Node → List Node → Node → Prop
  | here (node : Node) : Path node [] node
  | into {node next target : Node} {path : List Node} (mem : next ∈ node.nested)
      (rest : Path next path target) : Path node (next :: path) target

namespace Path

variable {node target next : Node} {path : List Node}

/-- A way leads to a node below. -/
theorem mem_preorder (h : node.Path path target) : target ∈ node.preorder := by
  induction h with
  | here node => exact node.mem_preorder_self
  | into hmem hrest ih => exact mem_preorder_of_nested ((preorder_sublist_preorderAll hmem).subset ih)

/-- A way goes on to a relation of the node that it leads to. -/
theorem concat (h : node.Path path target) (hnext : next ∈ target.nested) :
    node.Path (path ++ [next]) next := by
  induction h with
  | here node => exact .into hnext (.here next)
  | into hmem hrest ih => exact .into hmem (ih hnext)

end Path

end Node

/-! ### The plan -/

namespace Join

mutual

/-- The requests of a join are for its models in order. -/
theorem models_requests (parent : Model) (join : Join) :
    (requests parent join).map (·.model) = join.preorder := by
  match join with
  | ⟨model, nested⟩ => rw [requests, preorder, List.map_cons, models_requestsAll]

/-- The requests of a plan are for the models in their order. -/
theorem models_requestsAll (parent : Model) (joins : List Join) :
    (requestsAll parent joins).map (·.model) = preorderAll joins := by
  match joins with
  | [] => rw [requestsAll, preorderAll, List.map_nil]
  | join :: rest =>
    rw [requestsAll, preorderAll, List.map_append, models_requests, models_requestsAll]

end

end Join

/-! ### The numbering -/

namespace Node

mutual

/-- The nodes of a join have its models in order, at positions that count up. -/
theorem preorder_ofJoin (next : Nat) (join : Join) :
    (ofJoin next join).1.preorder.map (·.model) = join.preorder ∧
      (ofJoin next join).1.preorder.map (·.position) = List.range' next join.preorder.length ∧
      (ofJoin next join).2 = next + join.preorder.length := by
  match join with
  | ⟨model, nested⟩ =>
    obtain ⟨hmodels, hpositions, hfree⟩ := preorderAll_ofJoins (next + 1) nested
    rw [ofJoin, preorder, Join.preorder, List.map_cons, List.map_cons, hmodels, hpositions,
      List.length_cons, List.range'_succ]
    refine ⟨rfl, rfl, ?_⟩
    show (ofJoins (next + 1) nested).2 = _
    omega

/-- The nodes of several joins have their models in order, at positions that count up. -/
theorem preorderAll_ofJoins (next : Nat) (joins : List Join) :
    (preorderAll (ofJoins next joins).1).map (·.model) = Join.preorderAll joins ∧
      (preorderAll (ofJoins next joins).1).map (·.position) =
        List.range' next (Join.preorderAll joins).length ∧
      (ofJoins next joins).2 = next + (Join.preorderAll joins).length := by
  match joins with
  | [] =>
    rw [ofJoins, preorderAll, Join.preorderAll]
    exact ⟨rfl, rfl, rfl⟩
  | join :: rest =>
    obtain ⟨hmodels, hpositions, hfree⟩ := preorder_ofJoin next join
    obtain ⟨hmodels', hpositions', hfree'⟩ := preorderAll_ofJoins (ofJoin next join).2 rest
    rw [ofJoins, preorderAll, Join.preorderAll, List.map_append, List.map_append,
      List.length_append, hmodels, hpositions]
    refine ⟨by rw [hmodels'], ?_, ?_⟩
    · rw [hpositions', hfree, List.range'_append_1]
    · show (ofJoins (ofJoin next join).2 rest).2 = _
      omega

end

end Node

/-! ### Layouts -/

namespace Layout

/-- The tables of a layout are those of its nodes in order, each node is at its position, and no
table occurs twice. -/
structure WellNumbered (layout : Layout) : Prop where
  tables_eq : layout.tables = layout.root.preorder.map (·.model)
  positions_eq : layout.root.preorder.map (·.position) = List.range layout.tables.length
  nodup : (layout.root.preorder.map (·.model.table)).Nodup

/-- The layout of a plan that was accepted is well numbered. -/
theorem wellNumbered_ofJoins {base : Model} {joins : List Join} {layout : Layout}
    (h : ofJoins base joins = .ok layout) : layout.WellNumbered := by
  unfold ofJoins at h
  obtain ⟨planned, hplan, h⟩ := bind_eq_ok.1 h
  cases h
  obtain ⟨hmodels, hnodup⟩ := models_of_plan hplan
  rw [Join.models_requestsAll] at hmodels
  obtain ⟨hnodes, hpositions, -⟩ := Node.preorderAll_ofJoins 1 joins
  have hpre : (Node.preorder ⟨base, 0, (Node.ofJoins 1 joins).1⟩).map (·.model) =
      base :: planned.map (·.model) := by
    rw [Node.preorder, List.map_cons, hnodes, hmodels]
  have htables : (Node.preorder ⟨base, 0, (Node.ofJoins 1 joins).1⟩).map (·.model.table) =
      base.table :: Join.tablesOf planned := by
    have := congrArg (List.map Model.table) hpre
    simpa [Join.tablesOf, Function.comp_def] using this
  refine ⟨hpre.symm, ?_, htables ▸ hnodup⟩
  rw [Node.preorder, List.map_cons, hpositions, List.length_cons, hmodels,
    List.range_eq_range', List.range'_succ]

/-- Each node is at the position of its table. -/
theorem WellNumbered.tables_position {layout : Layout} (h : layout.WellNumbered) {node : Node}
    (hnode : node ∈ layout.root.preorder) : layout.tables[node.position]? = some node.model := by
  have hlength : layout.tables.length = layout.root.preorder.length := by
    rw [h.tables_eq, List.length_map]
  obtain ⟨i, hi⟩ := List.mem_iff_getElem?.1 hnode
  -- the position of a node is its index
  have hposition : node.position = i := by
    have hget := congrArg (fun l => l[i]?) h.positions_eq
    simp only [List.getElem?_map, hi, Option.map_some] at hget
    rw [List.getElem?_range (by rw [hlength]; exact (List.getElem?_eq_some_iff.1 hi).1)] at hget
    exact Option.some.inj hget
  rw [h.tables_eq, hposition, List.getElem?_map, hi]
  rfl

/-- The root of a layout is the base at position 0, with the numbered joins below it. -/
theorem root_ofJoins {base : Model} {joins : List Join} {layout : Layout}
    (h : ofJoins base joins = .ok layout) : layout.root = ⟨base, 0, (Node.ofJoins 1 joins).1⟩ := by
  unfold ofJoins at h
  obtain ⟨planned, -, h⟩ := bind_eq_ok.1 h
  cases h
  rfl

end Layout

end QueryForest

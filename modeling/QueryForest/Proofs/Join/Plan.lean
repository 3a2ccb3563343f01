import Mathlib.Data.List.Nodup
import QueryForest.Join.Basic
import QueryForest.Proofs.Data.Step

namespace QueryForest

/-!
# What a plan is

The planner walks down the requested joins with the list of the tables that are taken, which grows
from one request to the next, whether that one is a sibling or below. What comes out depends on the
requests in that order only.

* `Request` — a model that is asked for, and the model whose relation it is; `Join.requestsAll` —
  the requests of a query, each before those below it;
* `Model.IsRelated` and `Follows` — whether a model has a relation to another, and the join for the
  first one that it has;
* `Request.Fault` — what is wrong with a request when some tables are taken;
* `planRequests` — planning as one loop over the requests; `plan_eq` — the planner is that loop;
* `plan_exact` — when a plan is given, which joins it has, and which error there is otherwise.
-/

/-- A model that is asked for as a relation of another. -/
structure Request where
  parent : Model
  model : Model

namespace Join

mutual

/-- The requests of a join on a model, and of the joins below it. -/
def requests (parent : Model) : Join → List Request
  | ⟨model, nested⟩ => ⟨parent, model⟩ :: requestsAll model nested

/-- The requests of several joins on a model, in order. -/
def requestsAll (parent : Model) : List Join → List Request
  | [] => []
  | join :: rest => requests parent join ++ requestsAll parent rest

end

end Join

/-- The tables that are asked for. -/
def Request.tables (rs : List Request) : List String := rs.map (·.model.table)

/-! ### One request -/

/-- Whether one of the relations of a model is to another model. -/
def Model.IsRelated (m related : Model) : Prop :=
  ∃ r ∈ m.hasMany ++ m.hasOne ++ m.belongsTo, r.target = related.id

/-- The first of some relations that is to a model. -/
def Relation.first? (relations : List Relation) (related : Model) : Option Relation :=
  relations.find? (·.target == related.id)

/-- The join for the first relation of a model to another: one to many before one to one, and both
before the way back. -/
inductive Follows (parent related : Model) : PlannedJoin → Prop
  | hasMany {r : Relation} (found : Relation.first? parent.hasMany related = some r) :
      Follows parent related ⟨related, .hasMany, .left, (parent.table, parent.primaryKey),
        (related.table, r.foreignKey)⟩
  | hasOne {r : Relation} (noMany : Relation.first? parent.hasMany related = none)
      (found : Relation.first? parent.hasOne related = some r) :
      Follows parent related ⟨related, .hasOne, .inner, (parent.table, parent.primaryKey),
        (related.table, related.primaryKey)⟩
  | belongsTo {r : Relation} (noMany : Relation.first? parent.hasMany related = none)
      (noOne : Relation.first? parent.hasOne related = none)
      (found : Relation.first? parent.belongsTo related = some r) :
      Follows parent related ⟨related, .belongsTo, .left, (parent.table, r.foreignKey),
        (related.table, related.primaryKey)⟩

/-- There is no relation to a model if none has it as its target. -/
theorem Relation.first?_eq_none {relations : List Relation} {related : Model} :
    first? relations related = none ↔ ∀ r ∈ relations, r.target ≠ related.id := by
  simp [first?]

/-- The first relation of a kind, found among pairs with that kind. -/
theorem Relation.find?_map (kind : RelationKind) (relations : List Relation) (related : Model) :
    (relations.map (kind, ·)).find? (fun r => r.2.target == related.id) =
      (first? relations related).map (kind, ·) := by
  unfold first?
  rw [List.find?_map]
  rfl

/-- The first relation in any of the maps, by the maps. -/
theorem Model.find?_relations (m related : Model) :
    m.relations.find? (fun r => r.2.target == related.id) =
      (((Relation.first? m.hasMany related).map (RelationKind.hasMany, ·)).or
        ((Relation.first? m.hasOne related).map (RelationKind.hasOne, ·))).or
        ((Relation.first? m.belongsTo related).map (RelationKind.belongsTo, ·)) := by
  unfold relations
  simp only [List.find?_append, Relation.find?_map]

/-- A relation that can be followed is resolved to its join. -/
theorem resolve_of_follows {parent related : Model} {j : PlannedJoin}
    (h : Follows parent related j) : PlannedJoin.resolve parent related = .ok j := by
  unfold PlannedJoin.resolve Model.relation?
  rw [Model.find?_relations]
  cases h with
  | hasMany found => rw [found]; rfl
  | hasOne noMany found => rw [noMany, found]; rfl
  | belongsTo noMany noOne found => rw [noMany, noOne, found]; rfl

/-- A model without a relation to another is turned down. -/
theorem resolve_of_not_related {parent related : Model} (h : ¬ parent.IsRelated related) :
    PlannedJoin.resolve parent related =
      .error (.unknownRelation parent.table related.table) := by
  have hnone : ∀ relations ⊆ parent.hasMany ++ parent.hasOne ++ parent.belongsTo,
      Relation.first? relations related = none := fun relations hsubset =>
    Relation.first?_eq_none.2 fun r hr htarget => h ⟨r, hsubset hr, htarget⟩
  unfold PlannedJoin.resolve Model.relation?
  rw [Model.find?_relations, hnone parent.hasMany (by simp), hnone parent.hasOne (by simp),
    hnone parent.belongsTo (by simp)]
  rfl

/-- A model with a relation to another has a first one. -/
theorem Model.IsRelated.exists_follows {parent related : Model} (h : parent.IsRelated related) :
    ∃ j, Follows parent related j := by
  cases hmany : Relation.first? parent.hasMany related with
  | some r => exact ⟨_, .hasMany hmany⟩
  | none =>
    cases hone : Relation.first? parent.hasOne related with
    | some r => exact ⟨_, .hasOne hmany hone⟩
    | none =>
      cases hback : Relation.first? parent.belongsTo related with
      | some r => exact ⟨_, .belongsTo hmany hone hback⟩
      | none =>
        obtain ⟨r, hr, htarget⟩ := h
        rw [Relation.first?_eq_none] at hmany hone hback
        rcases List.mem_append.1 hr with hr | hr
        · rcases List.mem_append.1 hr with hr | hr
          · exact absurd htarget (hmany r hr)
          · exact absurd htarget (hone r hr)
        · exact absurd htarget (hback r hr)

namespace Follows

variable {parent related : Model} {j : PlannedJoin}

/-- The join is of the model that was asked for. -/
theorem model_eq (h : Follows parent related j) : j.model = related := by
  cases h <;> rfl

/-- Only relations that a model has are followed. -/
theorem isRelated (h : Follows parent related j) : parent.IsRelated related := by
  have hmem : ∀ {relations : List Relation} {r : Relation},
      Relation.first? relations related = some r → r ∈ relations ∧ r.target = related.id :=
    fun found => ⟨List.mem_of_find?_eq_some found, by simpa using List.find?_some found⟩
  cases h with
  | hasMany found => exact ⟨_, by simp [hmem found], (hmem found).2⟩
  | hasOne _ found => exact ⟨_, by simp [hmem found], (hmem found).2⟩
  | belongsTo _ _ found => exact ⟨_, by simp [hmem found], (hmem found).2⟩

/-- The condition of a join compares a column of the parent's table with one of the joined table. -/
theorem tables_eq (h : Follows parent related j) :
    j.left.1 = parent.table ∧ j.right.1 = related.table := by
  cases h <;> exact ⟨rfl, rfl⟩

end Follows

namespace Request

/-- What is wrong with a request when some tables are taken: that the models are not related, or
else that the table is one of those. -/
inductive Fault (taken : List String) (r : Request) : ResolutionError → Prop
  | unrelated (not : ¬ r.parent.IsRelated r.model) :
      Fault taken r (.unknownRelation r.parent.table r.model.table)
  | repeated (related : r.parent.IsRelated r.model) (mem : r.model.table ∈ taken) :
      Fault taken r (.ambiguousJoin r.model.table)

variable {taken : List String} {r : Request} {e e' : ResolutionError}

/-- A request has at most one fault. -/
theorem Fault.unique (h : Fault taken r e) (h' : Fault taken r e') : e = e' := by
  cases h with
  | unrelated not =>
    cases h' with
    | unrelated _ => rfl
    | repeated related _ => exact absurd related not
  | repeated related _ =>
    cases h' with
    | unrelated not => exact absurd related not
    | repeated _ _ => rfl

/-- Nothing is wrong with a request of related models whose table is not taken. -/
theorem no_fault_iff : (∀ e, ¬ Fault taken r e) ↔
    r.parent.IsRelated r.model ∧ r.model.table ∉ taken := by
  constructor
  · intro h
    have hrelated : r.parent.IsRelated r.model := by
      by_contra not
      exact h _ (.unrelated not)
    exact ⟨hrelated, fun hmem => h _ (.repeated hrelated hmem)⟩
  · rintro ⟨hrelated, hnew⟩ e h
    cases h with
    | unrelated not => exact not hrelated
    | repeated _ mem => exact hnew mem

end Request

/-! ### All requests in order -/

/-- Plans requests one after the other, where some tables are taken. -/
def planRequests (taken : List String) : List Request → Except ResolutionError (List PlannedJoin)
  | [] => .ok []
  | r :: rest => do
    let here ← PlannedJoin.resolve r.parent r.model
    if taken.contains r.model.table then .error (.ambiguousJoin r.model.table)
    else do
      let others ← planRequests (taken ++ [r.model.table]) rest
      .ok (here :: others)

/-- What is wrong with the request at a place, when the tables before it are taken too. -/
def FaultAt (taken : List String) (rs : List Request) (i : Nat) (e : ResolutionError) : Prop :=
  ∃ r, rs[i]? = some r ∧ r.Fault (taken ++ Request.tables (rs.take i)) e

section Loop

variable {taken : List String} {r : Request} {rest rs more : List Request} {e : ResolutionError}

/-- The first request with a fault ends the plan. -/
theorem planRequests_of_fault (h : r.Fault taken e) :
    planRequests taken (r :: rest) = .error e := by
  rw [planRequests]
  cases h with
  | unrelated not => rw [resolve_of_not_related not]; rfl
  | repeated related mem =>
    obtain ⟨j, hj⟩ := related.exists_follows
    rw [resolve_of_follows hj]
    simp only [bind, Except.bind, List.contains_iff_mem.2 mem, if_true]

/-- A request without a fault is planned, and its table is taken from then on. -/
theorem planRequests_of_follows {j : PlannedJoin} (h : Follows r.parent r.model j)
    (hnew : r.model.table ∉ taken) : planRequests taken (r :: rest) =
      (planRequests (taken ++ [r.model.table]) rest).map (j :: ·) := by
  have hcontains : taken.contains r.model.table = false := by
    rw [Bool.eq_false_iff]
    exact fun hmem => hnew (List.contains_iff_mem.1 hmem)
  rw [planRequests, resolve_of_follows h]
  simp only [bind, Except.bind, hcontains, Bool.false_eq_true, if_false]
  cases planRequests (taken ++ [r.model.table]) rest <;> rfl

/-- **One request**: something is wrong with it, or it has a join of its own and the others follow
with its table taken. -/
theorem planRequests_cons (taken : List String) (r : Request) (rest : List Request) :
    (∃ e, r.Fault taken e ∧ planRequests taken (r :: rest) = .error e) ∨
      ∃ j, Follows r.parent r.model j ∧ r.model.table ∉ taken ∧
        planRequests taken (r :: rest) =
          (planRequests (taken ++ [r.model.table]) rest).map (j :: ·) := by
  by_cases h : ∃ e, r.Fault taken e
  · obtain ⟨e, he⟩ := h
    exact Or.inl ⟨e, he, planRequests_of_fault he⟩
  · obtain ⟨hrelated, hnew⟩ := Request.no_fault_iff.1 (not_exists.1 h)
    obtain ⟨j, hj⟩ := hrelated.exists_follows
    exact Or.inr ⟨j, hj, hnew, planRequests_of_follows hj hnew⟩

/-- The tables that are taken behind a first request. -/
theorem append_tables_cons (taken : List String) (r : Request) (rest : List Request) :
    taken ++ Request.tables (r :: rest) = taken ++ [r.model.table] ++ Request.tables rest := by
  simp [Request.tables]

/-- Requests may be planned in parts, the tables of the first part being taken for the second. -/
theorem planRequests_append (taken : List String) (rs more : List Request) :
    planRequests taken (rs ++ more) = (planRequests taken rs).bind fun first =>
      (planRequests (taken ++ Request.tables rs) more).map (first ++ ·) := by
  induction rs generalizing taken with
  | nil =>
    rw [List.nil_append, planRequests, Request.tables, List.map_nil, List.append_nil]
    cases planRequests taken more <;> rfl
  | cons r rest ih =>
    rw [List.cons_append]
    rcases planRequests_cons taken r rest with ⟨e, he, h⟩ | ⟨j, hj, hnew, h⟩
    · rw [h, planRequests_of_fault he]
      rfl
    · rw [h, planRequests_of_follows hj hnew, ih, append_tables_cons]
      cases planRequests (taken ++ [r.model.table]) rest with
      | error e => rfl
      | ok first =>
        cases planRequests (taken ++ [r.model.table] ++ Request.tables rest) more <;> rfl

/-- The models of the joins are those that were asked for. -/
theorem models_of_planRequests {planned : List PlannedJoin}
    (h : planRequests taken rs = .ok planned) :
    planned.map (·.model) = rs.map (·.model) := by
  induction rs generalizing taken planned with
  | nil =>
    cases h
    rfl
  | cons r rest ih =>
    rcases planRequests_cons taken r rest with ⟨e, -, heq⟩ | ⟨j, hj, -, heq⟩
    · rw [heq] at h
      cases h
    · rw [heq] at h
      obtain ⟨others, hothers, rfl⟩ := map_eq_ok.1 h
      rw [List.map_cons, List.map_cons, ih hothers, hj.model_eq]

/-- The tables of a plan are those that were asked for. -/
theorem tablesOf_of_planRequests {planned : List PlannedJoin}
    (h : planRequests taken rs = .ok planned) : Join.tablesOf planned = Request.tables rs := by
  have hmodels := congrArg (List.map Model.table) (models_of_planRequests h)
  rwa [List.map_map, List.map_map] at hmodels

/-- **A plan is given** when all requests are of related models and no table is taken twice, and
has the joins for them. -/
theorem planRequests_eq_ok_iff (htaken : taken.Nodup) {planned : List PlannedJoin} :
    planRequests taken rs = .ok planned ↔
      List.Forall₂ (fun r j => Follows r.parent r.model j) rs planned ∧
        (taken ++ Request.tables rs).Nodup := by
  induction rs generalizing taken planned with
  | nil =>
    rw [planRequests, List.forall₂_nil_left_iff, Except.ok.injEq, Request.tables, List.map_nil,
      List.append_nil]
    exact ⟨fun h => ⟨h.symm, htaken⟩, fun h => h.1.symm⟩
  | cons r rest ih =>
    rw [append_tables_cons]
    -- the first request fails, or its table counts as taken for the others
    rcases planRequests_cons taken r rest with ⟨e, he, heq⟩ | ⟨j, hj, hnew, heq⟩
    · rw [heq]
      refine ⟨fun h => (by cases h), fun ⟨hall, hnodup⟩ => ?_⟩
      obtain ⟨j, others, hj, -, -⟩ := List.forall₂_cons_left_iff.1 hall
      refine absurd he (Request.no_fault_iff.2 ⟨hj.isRelated, fun hmem => ?_⟩ e)
      have hhere := (List.nodup_append.1 (List.nodup_append.1 hnodup).1).2.2
      exact hhere _ hmem _ List.mem_cons_self rfl
    · have htaken' : (taken ++ [r.model.table]).Nodup := by
        rw [List.nodup_append]
        refine ⟨htaken, List.nodup_singleton _, fun a ha b hb hab => hnew ?_⟩
        rw [← List.mem_singleton.1 hb, ← hab]
        exact ha
      rw [heq, map_eq_ok, List.forall₂_cons_left_iff]
      constructor
      · rintro ⟨others, hothers, rfl⟩
        obtain ⟨hall, hnodup⟩ := (ih htaken').1 hothers
        exact ⟨⟨j, others, hj, hall, rfl⟩, hnodup⟩
      · rintro ⟨⟨j', others, hj', hall, rfl⟩, hnodup⟩
        refine ⟨others, (ih htaken').2 ⟨hall, hnodup⟩, ?_⟩
        rw [Except.ok.inj ((resolve_of_follows hj).symm.trans (resolve_of_follows hj'))]

/-- Requests of related models have joins. -/
theorem exists_joins (h : ∀ r ∈ rs, r.parent.IsRelated r.model) :
    ∃ planned, List.Forall₂ (fun r j => Follows r.parent r.model j) rs planned := by
  induction rs with
  | nil => exact ⟨[], .nil⟩
  | cons r rest ih =>
    obtain ⟨j, hj⟩ := (h r List.mem_cons_self).exists_follows
    obtain ⟨others, hothers⟩ := ih fun r' hr' => h r' (List.mem_cons_of_mem _ hr')
    exact ⟨j :: others, .cons hj hothers⟩

/-- A fault at the first request is one of that request. -/
theorem faultAt_zero : FaultAt taken (r :: rest) 0 e ↔ r.Fault taken e := by
  simp [FaultAt, Request.tables]

/-- A fault further on is one behind the first request, whose table is taken. -/
theorem faultAt_succ {i : Nat} : FaultAt taken (r :: rest) (i + 1) e ↔
    FaultAt (taken ++ [r.model.table]) rest i e := by
  simp [FaultAt, Request.tables]

/-- **Planning fails** with what is wrong with the first request with which something is wrong. -/
theorem planRequests_eq_error_iff : planRequests taken rs = .error e ↔
    ∃ i, FaultAt taken rs i e ∧ ∀ k < i, ∀ e', ¬ FaultAt taken rs k e' := by
  induction rs generalizing taken with
  | nil =>
    refine ⟨fun h => (by cases h), fun ⟨i, ⟨r, hr, _⟩, _⟩ => ?_⟩
    cases hr
  | cons r rest ih =>
    rcases planRequests_cons taken r rest with ⟨here, hhere, heq⟩ | ⟨j, hj, hnew, heq⟩
    · -- the first request is at fault, and no other is looked at
      rw [heq, Except.error.injEq]
      constructor
      · rintro rfl
        exact ⟨0, faultAt_zero.2 hhere, fun k hk => absurd hk (Nat.not_lt_zero k)⟩
      · rintro ⟨i, hi, hfirst⟩
        cases i with
        | zero => exact hhere.unique (faultAt_zero.1 hi)
        | succ i => exact absurd (faultAt_zero.2 hhere) (hfirst 0 (Nat.succ_pos i) here)
    · -- the first request is fine, and the faults of the others are counted from the second one on
      have hfine := Request.no_fault_iff.2 ⟨hj.isRelated, hnew⟩
      have hmap : planRequests taken (r :: rest) = .error e ↔
          planRequests (taken ++ [r.model.table]) rest = .error e := by
        rw [heq]
        cases planRequests (taken ++ [r.model.table]) rest with
        | error e' => exact Iff.rfl
        | ok others => exact ⟨fun h => (by cases h), fun h => (by cases h)⟩
      rw [hmap, ih]
      constructor
      · rintro ⟨i, hi, hfirst⟩
        refine ⟨i + 1, faultAt_succ.2 hi, fun k hk e' hk' => ?_⟩
        cases k with
        | zero => exact hfine e' (faultAt_zero.1 hk')
        | succ k => exact hfirst k (Nat.lt_of_succ_lt_succ hk) e' (faultAt_succ.1 hk')
      · rintro ⟨i, hi, hfirst⟩
        cases i with
        | zero => exact absurd (faultAt_zero.1 hi) (hfine e)
        | succ i =>
          refine ⟨i, faultAt_succ.1 hi, fun k hk e' hk' => ?_⟩
          exact hfirst (k + 1) (Nat.succ_lt_succ hk) e' (faultAt_succ.2 hk')

end Loop

/-! ### The planner -/

namespace Join

mutual

/-- The walk down a join is the loop over its requests. -/
theorem planOne_eq (parent : Model) (seen : List String) (join : Join) :
    planOne parent seen join = planRequests seen (requests parent join) := by
  match join with
  | ⟨model, nested⟩ =>
    rw [planOne, requests, planRequests]
    simp only [planAll_eq]

/-- The walk down several joins is the loop over their requests. -/
theorem planAll_eq (parent : Model) (seen : List String) (joins : List Join) :
    planAll parent seen joins = planRequests seen (requestsAll parent joins) := by
  match joins with
  | [] => rw [planAll, requestsAll, planRequests]
  | join :: rest =>
    rw [planAll, requestsAll, planRequests_append, planOne_eq]
    cases hfirst : planRequests seen (requests parent join) with
    | error e => rfl
    | ok first =>
      simp only [bind, Except.bind, planAll_eq, tablesOf_of_planRequests hfirst]
      cases planRequests (seen ++ Request.tables (requests parent join))
        (requestsAll parent rest) <;> rfl

end

/-- A request stands behind that of its parent, unless the parent is the model that all are
requested of. -/
def ParentsFirst (parent : Model) (rs : List Request) : Prop :=
  ∀ i r, rs[i]? = some r → r.parent = parent ∨ r.parent ∈ (rs.take i).map (·.model)

mutual

/-- The requests of a join come behind that of their parent. -/
theorem parentsFirst_requests (parent : Model) (join : Join) :
    ParentsFirst parent (requests parent join) := by
  match join with
  | ⟨model, nested⟩ =>
    rw [requests]
    intro i r hr
    cases i with
    | zero =>
      cases hr
      exact Or.inl rfl
    | succ i =>
      right
      rw [List.take_succ_cons, List.map_cons, List.mem_cons]
      exact parentsFirst_requestsAll model nested i r hr

/-- The requests of several joins come behind those of their parents. -/
theorem parentsFirst_requestsAll (parent : Model) (joins : List Join) :
    ParentsFirst parent (requestsAll parent joins) := by
  match joins with
  | [] =>
    rw [requestsAll]
    intro i r hr
    cases hr
  | join :: rest =>
    rw [requestsAll]
    intro i r hr
    rw [List.take_append, List.map_append, List.mem_append]
    rw [List.getElem?_append] at hr
    split at hr
    · exact (parentsFirst_requests parent join i r hr).imp_right Or.inl
    · exact (parentsFirst_requestsAll parent rest _ r hr).imp_right Or.inr

end

end Join

/-- **Planning is one loop** over the requests in their order. -/
theorem plan_eq (base : Model) (joins : List Join) :
    plan base joins = planRequests [base.table] (Join.requestsAll base joins) :=
  Join.planAll_eq base [base.table] joins

/-- The joins of a plan for some requests on a model. -/
structure IsPlanOf (base : Model) (rs : List Request) (planned : List PlannedJoin) : Prop where
  /-- Each request has one join, at its place, for the first relation of its models. -/
  joins : List.Forall₂ (fun r j => PlannedJoin.resolve r.parent r.model = .ok j ∧
    Follows r.parent r.model j) rs planned
  /-- The condition of a join compares a column of the joined table with one of a table that is
  there before it. -/
  inScope : ∀ i j, planned[i]? = some j →
    j.left.1 ∈ base.table :: Join.tablesOf (planned.take i) ∧ j.right.1 = j.model.table

/-- A plan has the models that were asked for, and no table twice. -/
theorem models_of_plan {base : Model} {joins : List Join} {planned : List PlannedJoin}
    (h : plan base joins = .ok planned) :
    planned.map (·.model) = (Join.requestsAll base joins).map (·.model) ∧
      (base.table :: Join.tablesOf planned).Nodup := by
  rw [plan_eq] at h
  obtain ⟨-, hnodup⟩ := (planRequests_eq_ok_iff (List.nodup_singleton _)).1 h
  exact ⟨models_of_planRequests h, tablesOf_of_planRequests h ▸ hnodup⟩

/-- A plan that was made is one for the requests. -/
theorem isPlanOf_of_plan {base : Model} {joins : List Join} {planned : List PlannedJoin}
    (h : plan base joins = .ok planned) :
    IsPlanOf base (Join.requestsAll base joins) planned := by
  rw [plan_eq] at h
  have htables := tablesOf_of_planRequests h
  obtain ⟨hall, -⟩ := (planRequests_eq_ok_iff (List.nodup_singleton _)).1 h
  refine ⟨hall.imp fun r j hj => ⟨resolve_of_follows hj, hj⟩, fun i j hj => ?_⟩
  -- the request at the place of the join, and its parent among those before it
  obtain ⟨hlt, hget⟩ := List.getElem?_eq_some_iff.1 hj
  have hlt' : i < (Join.requestsAll base joins).length := by
    rw [hall.length_eq]
    exact hlt
  have hfollows := hall.get hlt' hlt
  simp only [List.get_eq_getElem, hget] at hfollows
  obtain ⟨hleft, hright⟩ := hfollows.tables_eq
  refine ⟨?_, by rw [hright, hfollows.model_eq]⟩
  have hbefore : Join.tablesOf (planned.take i) =
      Request.tables ((Join.requestsAll base joins).take i) := by
    unfold Join.tablesOf Request.tables at htables ⊢
    rw [List.map_take, List.map_take, htables]
  rw [hleft, hbefore, List.mem_cons]
  rcases Join.parentsFirst_requestsAll base joins i _ (List.getElem?_eq_getElem hlt') with
    hbase | hmem
  · exact Or.inl (congrArg Model.table hbase)
  · right
    obtain ⟨r, hr, hmodel⟩ := List.mem_map.1 hmem
    exact List.mem_map.2 ⟨r, hr, congrArg Model.table hmodel⟩

/-- **Plans are exact.** A plan is given exactly when all requests are for relations of their
parents and no table is asked for twice; it then has the joins for the requests in their order; and
otherwise the error is that of the first request with which something is wrong. -/
theorem plan_exact (base : Model) (joins : List Join) :
    ((∃ planned, plan base joins = .ok planned) ↔
      (∀ r ∈ Join.requestsAll base joins, r.parent.IsRelated r.model) ∧
        (base.table :: Request.tables (Join.requestsAll base joins)).Nodup) ∧
    (∀ planned, plan base joins = .ok planned →
      IsPlanOf base (Join.requestsAll base joins) planned) ∧
    ∀ e, plan base joins = .error e ↔
      ∃ i, FaultAt [base.table] (Join.requestsAll base joins) i e ∧
        ∀ k < i, ∀ e', ¬ FaultAt [base.table] (Join.requestsAll base joins) k e' := by
  refine ⟨?_, fun planned => isPlanOf_of_plan, fun e => ?_⟩
  · simp only [plan_eq, planRequests_eq_ok_iff (List.nodup_singleton base.table)]
    constructor
    · -- the joins that were planned show that their requests are for relations
      rintro ⟨planned, hall, hnodup⟩
      refine ⟨fun r hr => ?_, hnodup⟩
      obtain ⟨i, hlt, hget⟩ := List.getElem_of_mem hr
      have hfollows := hall.get hlt (hall.length_eq ▸ hlt)
      rw [List.get_eq_getElem, hget] at hfollows
      exact hfollows.isRelated
    · rintro ⟨hrelated, hnodup⟩
      obtain ⟨planned, hall⟩ := exists_joins hrelated
      exact ⟨planned, hall, hnodup⟩
  · rw [plan_eq]
    exact planRequests_eq_error_iff

namespace Library

/-- Authors with their books and their profiles. -/
def authors : Model :=
  ⟨0, "authors", "id", ["id", "name"], [⟨1, "authors_id"⟩], [⟨2, "id"⟩], []⟩

/-- Books with their authors. -/
def books : Model := ⟨1, "books", "id", ["id", "title", "authors_id"], [], [], [⟨0, "authors_id"⟩]⟩

/-- Profiles, from which no relation leads back. -/
def profiles : Model := ⟨2, "profiles", "id", ["id", "bio"], [], [], []⟩

/-- The joins for an author's profile and books. -/
def planned : List PlannedJoin :=
  [⟨profiles, .hasOne, .inner, ("authors", "id"), ("profiles", "id")⟩,
    ⟨books, .hasMany, .left, ("authors", "id"), ("books", "authors_id")⟩]

end Library

/-- Profiles and books can be asked for together, but not the authors of the books, whose table is
taken; and the profile of a book is not even looked for behind them. -/
theorem plan_exact_library :
    IsPlanOf Library.authors [⟨Library.authors, Library.profiles⟩, ⟨Library.authors, Library.books⟩]
        Library.planned ∧
      ∃ i, FaultAt ["authors"] (Join.requestsAll Library.authors
          [⟨Library.books, [⟨Library.authors, []⟩, ⟨Library.profiles, []⟩]⟩]) i
            (.ambiguousJoin "authors") ∧
        ∀ k < i, ∀ e', ¬ FaultAt ["authors"] (Join.requestsAll Library.authors
          [⟨Library.books, [⟨Library.authors, []⟩, ⟨Library.profiles, []⟩]⟩]) k e' := by
  have hplan : plan Library.authors [⟨Library.profiles, []⟩, ⟨Library.books, []⟩] =
      .ok Library.planned := rfl
  have herror : plan Library.authors
      [⟨Library.books, [⟨Library.authors, []⟩, ⟨Library.profiles, []⟩]⟩] =
        .error (.ambiguousJoin "authors") := rfl
  exact ⟨(plan_exact _ _).2.1 _ hplan, ((plan_exact _ _).2.2 _).1 herror⟩

end QueryForest

import EntityRest.Proofs.Query.Scope

/-! # The count of a page

Rows are counted under the conditions of the row statement. Both statements join what these
conditions need, but what only the columns and the order need is joined for the rows alone. -/

namespace EntityRest

open List (Forall₂)

namespace Schema

variable {d : Dialect} {derived : String → Except QueryError Select} {s : Schema}

/-! ## Joins of two statements -/

/-- A join is of the kind of its relation. -/
theorem kind_of_join {r : Relation} {j : Join} (h : join d derived r = .ok j) :
    j.head.kind = r.kind := by
  have hkind {head : JoinHead} (hhead : joinHead d r = .ok head) : head.kind = r.kind := by
    obtain ⟨on, -, rfl⟩ := joinHead_eq_ok.mp hhead
    rfl
  cases hsource : r.source with
  | table name =>
      obtain ⟨head, hhead, rfl⟩ := (join_table_eq_ok hsource).mp h
      exact hkind hhead
  | entity name =>
      obtain ⟨sel, head, -, hhead, rfl⟩ := (join_entity_eq_ok hsource).mp h
      exact hkind hhead

section Joins

variable {xs ys : List String} {many few : List Join}

/-- Of two statements the one with fewer expressions has fewer joins, in the same order. -/
theorem joins_sublist (hsub : ys ⊆ xs)
    (hmany : Forall₂ (fun r j => join d derived r = .ok j) (s.requiredJoins xs) many)
    (hfew : Forall₂ (fun r j => join d derived r = .ok j) (s.requiredJoins ys) few) :
    few.Sublist many := by
  refine sublist_of_forall₂ (requiredJoins_sublist hsub) hmany hfew fun r j j' hj hj' => ?_
  exact Except.ok.inj (hj.symm.trans hj')

/-- A join of one statement is in the other if the expressions of that need its alias. -/
theorem mem_joins_iff
    (hmany : Forall₂ (fun r j => join d derived r = .ok j) (s.requiredJoins xs) many)
    (hfew : Forall₂ (fun r j => join d derived r = .ok j) (s.requiredJoins ys) few) {j : Join}
    (hj : j ∈ many) : j ∈ few ↔ s.Needs ys j.head.asName := by
  obtain ⟨r, hr, hjoin⟩ := exists_of_mem_right hmany hj
  rw [(join_spec hjoin).1]
  constructor
  · intro hmem
    obtain ⟨r', hr', hjoin'⟩ := exists_of_mem_right hfew hmem
    rw [← (join_spec hjoin).1, (join_spec hjoin').1]
    exact (mem_requiredJoins_iff.mp hr').2
  · intro hneeds
    have hr' : r ∈ s.requiredJoins ys :=
      mem_requiredJoins_iff.mpr ⟨(mem_requiredJoins_iff.mp hr).1, hneeds⟩
    obtain ⟨j', hj', hjoin'⟩ := exists_of_mem_left hfew hr'
    obtain rfl := Except.ok.inj (hjoin.symm.trans hjoin')
    exact hj'

/-- The joins that can take rows away or add some are all in the smaller statement exactly if none
of their relations is needed in the larger one alone. -/
theorem forall_mem_joins_iff
    (hmany : Forall₂ (fun r j => join d derived r = .ok j) (s.requiredJoins xs) many)
    (hfew : Forall₂ (fun r j => join d derived r = .ok j) (s.requiredJoins ys) few) :
    (∀ j ∈ many, j.head.kind ≠ .left → j ∈ few) ↔
      ∀ r ∈ s.relations, r.kind ≠ .left → s.Needs xs r.asName → s.Needs ys r.asName := by
  constructor
  · intro hall r hr hkind hneeds
    obtain ⟨j, hj, hjoin⟩ := exists_of_mem_left hmany (mem_requiredJoins_iff.mpr ⟨hr, hneeds⟩)
    have hmem : j ∈ few := hall j hj (kind_of_join hjoin ▸ hkind)
    rw [← (join_spec hjoin).1]
    exact (mem_joins_iff hmany hfew hj).mp hmem
  · intro hall j hj hkind
    obtain ⟨r, hr, hjoin⟩ := exists_of_mem_right hmany hj
    obtain ⟨hmem, hneeds⟩ := mem_requiredJoins_iff.mp hr
    refine (mem_joins_iff hmany hfew hj).mpr ?_
    rw [(join_spec hjoin).1]
    exact hall r hmem (kind_of_join hjoin ▸ hkind) hneeds

end Joins

end Schema

/-! ## Rows and their count -/

namespace Resolved

variable {d : Dialect} {s : Schema} {r : Resolved} {conjuncts : List Conjunct}

/-- The expressions that a settled request reads in its conditions are those that its statements
read there. -/
theorem needs_exprs_iff
    (h : Forall₂ (fun c p => Condition.conjunct d c = .ok p) r.conditions conjuncts) {a : String} :
    s.Needs r.exprs a ↔ s.Needs (leftExprs conjuncts) a := by
  constructor
  · exact fun hneeds => hneeds.mono (subset_leftExprs h)
  · exact fun hneeds => hneeds.mono (leftExprs_subset h)

/-- Without groups, rows need what their columns, their orders and their conditions need. -/
theorem needs_rowExprs_iff (hgroups : r.groups = []) {a : String} :
    s.Needs (r.rowExprs true) a ↔
      s.Needs (r.columns.map Column.expr ++ r.orders.map OrderTerm.expr) a ∨ s.Needs r.exprs a := by
  rw [rowExprs, hgroups, List.append_nil, ordersIf, if_pos rfl]
  simp only [Schema.needs_append]
  exact or_right_comm

end Resolved

namespace Registry

variable {reg : Registry} {d : Dialect} {s : Schema} {q : Query}

/-- A page of rows has a count under the same conditions. It has some of the joins, in their order:
those that the conditions need. So all joins but left ones are counted with exactly if the columns
and the order need no such relation which the conditions do not need. -/
theorem count_of_paginated {o : QueryOptions} {p : Plan} (hp : reg.compile d o s q = .ok p)
    (hpage : q.isPaginated = true) (hgroups : p.select.body.groups = [])
    (hcolumns : ∀ c ∈ p.select.body.columns, c.aggregate = false) :
    ∃ distinct joins,
      p.count = some (.rows distinct p.select.body.table p.select.body.asName joins
        p.select.body.conjuncts) ∧
      joins.Sublist p.select.joins ∧
      (∀ j ∈ p.select.joins, j ∈ joins ↔
        s.Needs (leftExprs p.select.body.conjuncts) j.head.asName) ∧
      ((∀ j ∈ p.select.joins, j.head.kind ≠ .left → j ∈ joins) ↔
        ∀ r ∈ s.relations, r.kind ≠ .left →
          s.Needs (p.select.body.columns.map Column.expr ++
            p.select.body.orders.map OrderTerm.expr) r.asName →
          s.Needs (leftExprs p.select.body.conjuncts) r.asName) := by
  obtain ⟨page, perPage, hplan⟩ := plan_of_compileAs (m := .page o) hp
  obtain ⟨includes, r, select, count, -, -, hrow, hcount, hp⟩ := plan_eq_ok.mp hplan
  obtain ⟨joins, conjuncts, hjoins, hconjuncts, rfl⟩ := Schema.rowSelect_eq_ok.mp hrow
  obtain ⟨select, _, _, _, _, _⟩ := p
  obtain ⟨rfl, rfl, -⟩ := Plan.mk.inj hp
  have hgrouped : r.isGrouped = false := by
    have haggregate : r.columns.any Column.aggregate = false :=
      List.any_eq_false.mpr fun c hc => Bool.eq_false_iff.mp (hcolumns c hc)
    have hnone : r.groups = [] := hgroups
    rw [Resolved.isGrouped, haggregate, hnone]
    rfl
  have hasked : (((ReadMode.page o).window q).isSome && q.isPaginated) = true := by
    rw [hpage]
    rfl
  rcases Schema.countIf_eq_ok.mp hcount with ⟨-, c, hc, rfl⟩ | ⟨hnot, -⟩
  · obtain ⟨few, conjuncts', hfew, hconjuncts', rfl⟩ :=
      (Schema.countSelect_eq_ok_of_not_isGrouped hgrouped).mp hc
    obtain rfl : conjuncts' = conjuncts :=
      Except.ok.inj ((mapM_eq_ok.mpr hconjuncts').symm.trans (mapM_eq_ok.mpr hconjuncts))
    have hsub : r.exprs ⊆ r.rowExprs true := by
      intro e he
      simp [Resolved.rowExprs, he]
    have hconditions {a : String} : s.Needs r.exprs a ↔ s.Needs (leftExprs conjuncts') a :=
      Resolved.needs_exprs_iff hconjuncts
    refine ⟨_, few, rfl, Schema.joins_sublist hsub hjoins hfew, fun j hj => ?_, ?_⟩
    · exact (Schema.mem_joins_iff hjoins hfew hj).trans hconditions
    · refine (Schema.forall_mem_joins_iff hjoins hfew).trans ?_
      simp only [Resolved.needs_rowExprs_iff hgroups, hconditions, or_imp, imp_self, and_true]
      rfl
  · exact absurd (hasked.symm.trans hnot) (by decide)

end Registry

/-! ## Documents with an owner

Every document is read with the name of its owner, and is not there without one. -/

namespace Owned

def config : EntityConfig where
  name := "docs"
  table := "docs"
  asName := "d"
  version := "1"
  fields := [⟨"id", "d.id", .int, none⟩, ⟨"owner", "o.name", .string, none⟩]
  relations := [⟨.inner, some "owners", none, "o", [⟨"o.id", .eq, .null, some "d.owner_id"⟩]⟩]

def schema : Schema where
  name := "docs"
  table := "docs"
  asName := "d"
  version := "1"
  primaryKey := "id"
  flat := false
  fields := [⟨"id", "d.id", .int, false, false, {}⟩, ⟨"owner", "o.name", .string, false, false, {}⟩]
  relations := [⟨.inner, .table "owners", "o", [⟨"o.id", .eq, .column "d.owner_id"⟩]⟩]
  filters := []
  sorts := []
  groups := []
  children := []

theorem build_eq : Registry.build [config] = .ok ⟨[schema]⟩ := by
  cbv

/-- The first page, of all documents or of those of an owner. -/
def firstPage (owner : Option String) : Query where
  filters := owner.toList.map fun name => ⟨"owner", "owner", .eq, name⟩
  page := some 1

/-- The documents of an owner are counted with their owners. -/
theorem count_of_owner :
    ∃ p distinct joins,
      Registry.compile ⟨[schema]⟩ .postgres ⟨10, 100⟩ schema (firstPage (some "ann")) = .ok p ∧
      p.count = some (.rows distinct "docs" "d" joins p.select.body.conjuncts) ∧
      ∀ j ∈ p.select.joins, j.head.kind ≠ .left → j ∈ joins := by
  obtain ⟨p, hp, hparts⟩ := exists_eq_ok
    (x := Registry.compile ⟨[schema]⟩ .postgres ⟨10, 100⟩ schema (firstPage (some "ann")))
    (p := fun p => decide ((p.select.body.groups = [] ∧
      ∀ c ∈ p.select.body.columns, c.aggregate = false) ∧ p.select.body.table = "docs" ∧
      p.select.body.asName = "d" ∧ leftExprs p.select.body.conjuncts = ["o.name"]))
    (by decide +kernel)
  obtain ⟨⟨hgroups, hcolumns⟩, htable, hasName, hleft⟩ := of_decide_eq_true hparts
  obtain ⟨distinct, joins, hcount, -, -, hjoins⟩ :=
    Registry.count_of_paginated hp rfl hgroups hcolumns
  rw [htable, hasName] at hcount
  refine ⟨p, distinct, joins, hp, hcount, hjoins.mpr fun r hr _ _ => ?_⟩
  obtain rfl := List.mem_singleton.mp hr
  rw [hleft]
  exact .used (by decide +kernel)

/-- Are all rows of a table counted, and nothing is joined? -/
def countsTable (table asName : String) : Option Count → Bool
  | some (.rows none t a [] []) => t = table && a = asName
  | _ => false

theorem eq_of_countsTable {table asName : String} {c : Option Count}
    (h : countsTable table asName c = true) : c = some (.rows none table asName [] []) := by
  unfold countsTable at h
  split at h
  · obtain ⟨htable, hasName⟩ := Bool.and_eq_true_iff.mp h
    rw [of_decide_eq_true htable, of_decide_eq_true hasName]
  · cases h

/-- All documents are counted without the owners that their page is joined with. -/
theorem owners_not_counted :
    ∃ p distinct joins, Registry.build [config] = .ok ⟨[schema]⟩ ∧
      Registry.compile ⟨[schema]⟩ .postgres ⟨10, 100⟩ schema (firstPage none) = .ok p ∧
      (p.select.body.groups = [] ∧ ∀ c ∈ p.select.body.columns, c.aggregate = false) ∧
      p.count = some (.rows distinct "docs" "d" joins []) ∧
      ¬ ∀ j ∈ p.select.joins, j.head.kind ≠ .left → j ∈ joins := by
  obtain ⟨p, hp, hparts⟩ := exists_eq_ok
    (x := Registry.compile ⟨[schema]⟩ .postgres ⟨10, 100⟩ schema (firstPage none))
    (p := fun p => decide ((p.select.body.groups = [] ∧
      ∀ c ∈ p.select.body.columns, c.aggregate = false) ∧
      p.select.joins.map (fun j => j.head.kind) = [.inner]) && countsTable "docs" "d" p.count)
    (by decide +kernel)
  obtain ⟨hrows, hcount⟩ := Bool.and_eq_true_iff.mp hparts
  obtain ⟨hrows, hkinds⟩ := of_decide_eq_true hrows
  refine ⟨p, none, [], build_eq, hp, hrows, eq_of_countsTable hcount, fun hall => ?_⟩
  obtain ⟨j, hj, hkind⟩ := List.mem_map.mp (hkinds ▸ List.mem_singleton_self _)
  exact absurd (hall j hj (by rw [hkind]; decide)) List.not_mem_nil

end Owned

end EntityRest

import EntityRest.Proofs.Query.Join
import EntityRest.Proofs.Query.Resolve
import EntityRest.Proofs.Sql.Fragment

/-! # The count of groups

Groups are counted as the rows of a statement without order and window. Leaving the order out takes
away no join: whatever is ordered by in a grouped statement is also grouped by. -/

namespace EntityRest

namespace Schema

variable {d : Dialect} {s : Schema}

/-! ## Orders of groups -/

theorem groupExprs_ne_nil {q : Query} {cs : List Column} {groups : List String}
    (h : s.groupExprs q cs = .ok groups) (haggregate : cs.any Column.aggregate = true)
    {c : Column} (hc : c ∈ cs) (hplain : c.aggregate = false) : groups ≠ [] := by
  simp only [groupExprs, bind_eq_ok, mapM_eq_ok, haggregate, Bool.true_and] at h
  obtain ⟨asked, -, h⟩ := h
  split at h
  · -- nothing is declared, asked for or marked: the plain columns are grouped by
    obtain rfl := pure_eq_ok.mp h
    have hexpr : c.expr ∈ (cs.filter fun c => !c.aggregate).map Column.expr :=
      List.mem_map_of_mem (List.mem_filter.mpr ⟨hc, by simp [hplain]⟩)
    exact List.ne_nil_of_mem (mem_addAllNew.mpr (.inr hexpr))
  · rename_i hsome
    obtain rfl := pure_eq_ok.mp h
    simpa using hsome

/-- A grouped statement is ordered by what it is grouped by. -/
theorem expr_mem_groups_of_keepOrders {cs : List Column} {groups : List String}
    {orders : List OrderTerm} (hgrouped : groups = [] → ∀ c ∈ cs, c.aggregate = true)
    (haggregate : groups = [] → cs.any Column.aggregate = true) :
    ∀ o ∈ keepOrders cs groups orders, o.expr ∈ groups := by
  intro o ho
  unfold keepOrders at ho
  split at ho
  · cases ho
  · rename_i hmixed
    by_cases hgroups : groups = []
    · have hall : cs.all Column.aggregate = true := List.all_eq_true.mpr (hgrouped hgroups)
      simp [haggregate hgroups, hall] at hmixed
    · have hempty : groups.isEmpty = false := by simpa using hgroups
      rw [hempty, if_neg Bool.false_ne_true] at ho
      simpa using (List.mem_filter.mp ho).2

theorem expr_mem_groups_of_resolve {q : Query} {includes : List String} {r : Resolved}
    (h : s.resolve d q includes = .ok r) (hgrouped : r.isGrouped = true) :
    ∀ o ∈ r.orders, o.expr ∈ r.groups := by
  obtain ⟨_, columns, _, _, groups, orders, -, -, -, hgroups, -, rfl⟩ := resolve_eq_ok.mp h
  have haggregate : groups = [] → columns.any Column.aggregate = true := by
    intro hnil
    simpa [Resolved.isGrouped, hnil] using hgrouped
  refine expr_mem_groups_of_keepOrders (fun hnil c hc => ?_) haggregate
  by_contra hplain
  have hplain : c.aggregate = false := by simpa using hplain
  exact groupExprs_ne_nil hgroups (haggregate hnil) hc hplain hnil

theorem requiredJoins_unordered {q : Query} {includes : List String} {r : Resolved}
    (h : s.resolve d q includes = .ok r) (hgrouped : r.isGrouped = true) :
    s.requiredJoins (r.rowExprs false) = s.requiredJoins (r.rowExprs true) := by
  have horders := expr_mem_groups_of_resolve h hgrouped
  apply requiredJoins_congr
  · intro e he
    simp only [Resolved.rowExprs, List.mem_append] at he ⊢
    rcases he with he | hnone
    · exact .inl he
    · cases hnone
  · intro e he
    simp only [Resolved.rowExprs, List.mem_append] at he ⊢
    rcases he with he | he
    · exact .inl he
    · obtain ⟨o, ho, rfl⟩ := List.mem_map.mp he
      exact .inl (.inr (horders o ho))

/-- The statement whose rows are counted is the row statement without order and window. -/
theorem rowSelect_unordered {derived : String → Except QueryError Select} {q : Query}
    {includes : List String} {r : Resolved} {window : Option Window} {rows inner : Select}
    (h : s.resolve d q includes = .ok r) (hgrouped : r.isGrouped = true)
    (hrows : s.rowSelect d derived r window true = .ok rows)
    (hinner : s.rowSelect d derived r none false = .ok inner) :
    inner = .mk { rows.body with orders := [], window := none } rows.joins := by
  obtain ⟨joins, conjuncts, hjoins, hconjuncts, rfl⟩ := rowSelect_eq_ok.mp hrows
  obtain ⟨joins', conjuncts', hjoins', hconjuncts', rfl⟩ := rowSelect_eq_ok.mp hinner
  rw [requiredJoins_unordered h hgrouped] at hjoins'
  obtain rfl : joins' = joins :=
    Except.ok.inj ((mapM_eq_ok.mpr hjoins').symm.trans (mapM_eq_ok.mpr hjoins))
  obtain rfl : conjuncts' = conjuncts :=
    Except.ok.inj ((mapM_eq_ok.mpr hconjuncts').symm.trans (mapM_eq_ok.mpr hconjuncts))
  rfl

end Schema

/-! ## Text of groups -/

namespace Select

variable {d : Dialect}

/-- A statement up to its groups. -/
def upToGroups (d : Dialect) (t : Select) : List Fragment :=
  t.body.opening d ++ tableSql d t.body.table t.body.asName :: Join.fragmentsAll d t.joins ++
    Conjunct.clause d t.body.conjuncts ++ [.text (t.body.groupClause d)]

theorem statement_eq (t : Select) :
    Fragment.statement d (t.fragments d) =
      ⟨(Fragment.statement d (t.upToGroups d)).sql ++ t.body.orderClause ++ t.body.windowClause d,
        (Fragment.statement d (t.upToGroups d)).params⟩ := by
  obtain ⟨b, joins⟩ := t
  simp only [fragments, SelectBody.closing, upToGroups, ← List.append_assoc,
    Fragment.statement_concat_text, body, Select.joins, String.append_assoc]

theorem statement_of_no_order {t : Select} (horders : t.body.orders = [])
    (hwindow : t.body.window = none) :
    Fragment.statement d (t.fragments d) = Fragment.statement d (t.upToGroups d) := by
  simp [statement_eq, SelectBody.orderClause, SelectBody.windowClause, horders, hwindow]

end Select

namespace Registry

variable {reg : Registry} {d : Dialect} {s : Schema} {q : Query}

/-- The count of a page of groups counts the rows of the row statement without order and window, and
binds the same values in the same order. -/
theorem countStatement_of_grouped {o : QueryOptions} {p : Plan} (hp : reg.compile d o s q = .ok p)
    (hpage : q.isPaginated = true)
    (hgrouped : (∃ c ∈ p.select.body.columns, c.aggregate = true) ∨ p.select.body.groups ≠ []) :
    ∃ rows params,
      p.selectStatement d =
        ⟨rows ++ p.select.body.orderClause ++ p.select.body.windowClause d, params⟩ ∧
      p.countStatement? d =
        some ⟨"SELECT COUNT(*) FROM (" ++ rows ++ ") AS " ++ d.quote "_grouped", params⟩ := by
  obtain ⟨page, perPage, hplan⟩ := plan_of_compileAs (m := .page o) hp
  obtain ⟨includes, r, select, count, -, hr, hrow, hcount, hp⟩ := plan_eq_ok.mp hplan
  obtain ⟨select, _, _, _, _, _⟩ := p
  obtain ⟨rfl, rfl, -⟩ := Plan.mk.inj hp
  have hisGrouped : r.isGrouped = true := by
    obtain ⟨joins, conjuncts, -, -, rfl⟩ := Schema.rowSelect_eq_ok.mp hrow
    simpa [Resolved.isGrouped, Select.body] using hgrouped
  have hasked : (((ReadMode.page o).window q).isSome && q.isPaginated) = true := by
    rw [hpage]
    rfl
  rcases Schema.countIf_eq_ok.mp hcount with ⟨-, c, hc, rfl⟩ | ⟨hnot, -⟩
  · obtain ⟨inner, hinner, rfl⟩ := (Schema.countSelect_eq_ok_of_isGrouped hisGrouped).mp hc
    have hinner : inner = .mk { select.body with orders := [], window := none } select.joins :=
      Schema.rowSelect_unordered hr hisGrouped hrow hinner
    have hsame : Fragment.statement d (inner.fragments d) =
        Fragment.statement d (select.upToGroups d) := by
      rw [hinner]
      exact Select.statement_of_no_order rfl rfl
    refine ⟨_, _, select.statement_eq, ?_⟩
    rw [Plan.countStatement?, Option.map_some, Count.fragments, Fragment.statement_concat_text,
      Fragment.statement_text_cons, hsame]
    simp only [String.append_assoc]
  · exact absurd (hasked.symm.trans hnot) (by decide)

end Registry

namespace Shop

/-- How many orders there are for each amount paid. They cannot be sorted by title as well. -/
def byAmount : Query where
  select := some [.field "paid", .aggregate .count "id"]
  filters := [⟨"title.$ne", "title", .ne, "x"⟩]
  sort := some [⟨"paid", true, false⟩, ⟨"title", false, false⟩]
  page := some 2

theorem byAmount_countStatement :
    ∃ p rows params,
      registry.compile .postgres ⟨10, 100⟩ orders byAmount = .ok p ∧ p.select.body.groups ≠ [] ∧
      p.selectStatement .postgres =
        ⟨rows ++ " ORDER BY \"p\".\"total\" DESC" ++ " LIMIT 10 OFFSET 10", params⟩ ∧
      p.countStatement? .postgres =
        some ⟨"SELECT COUNT(*) FROM (" ++ rows ++ ") AS " ++ "\"_grouped\"", params⟩ := by
  obtain ⟨p, hp, hparts⟩ := exists_eq_ok
    (x := registry.compile .postgres ⟨10, 100⟩ orders byAmount)
    (p := fun p => decide (p.select.body.groups ≠ [] ∧
      p.select.body.orderClause = " ORDER BY \"p\".\"total\" DESC" ∧
      p.select.body.windowClause .postgres = " LIMIT 10 OFFSET 10"))
    (by decide +kernel)
  obtain ⟨hgroups, horder, hwindow⟩ := of_decide_eq_true hparts
  have hquote : Dialect.quote .postgres "_grouped" = "\"_grouped\"" := by decide +kernel
  obtain ⟨rows, params, hrows, hcount⟩ := registry.countStatement_of_grouped hp rfl (.inr hgroups)
  rw [horder, hwindow] at hrows
  rw [hquote] at hcount
  exact ⟨p, rows, params, hp, hgroups, hrows, hcount⟩

end Shop

end EntityRest

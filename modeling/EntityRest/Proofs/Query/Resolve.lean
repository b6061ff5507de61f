import EntityRest.Proofs.Except
import EntityRest.Proofs.Query.Plan

/-! # What settled requests read

Every expression that a settled request reads is one of the expressions of its schema. -/

namespace EntityRest

/-- The SQL of a column is that of an expression of the schema, or an aggregate of it. -/
structure Column.Reads (d : Dialect) (s : Schema) (c : Column) : Prop where
  expr_mem : c.expr ∈ s.exprs
  sql_eq : c.sql = Expr.render d c.expr ∨
    ∃ agg : Aggregate, c.sql = agg.sql ++ "(" ++ Expr.render d c.expr ++ ")"

/-- The SQL of a term is that of an expression of the schema, or of a path inside it. -/
structure OrderTerm.Reads (d : Dialect) (s : Schema) (o : OrderTerm) : Prop where
  expr_mem : o.expr ∈ s.exprs
  sql_eq : ∃ (t : SqlTerm) (desc ignoreCase : Bool), t.expr = o.expr ∧
    o = Schema.orderTerm (t.sql d) t.expr desc ignoreCase

namespace Schema

variable {d : Dialect} {s : Schema}

/-! ## Expressions of a schema -/

theorem mem_exprs_of_field {f : Field} (h : f ∈ s.fields) : f.expr ∈ s.exprs := by
  simp only [exprs, List.mem_append, List.mem_map]
  exact .inl (.inl (.inl (.inl ⟨f, h, rfl⟩)))

theorem mem_exprs_of_field? {key : String} {f : Field} (h : s.field? key = some f) :
    f.expr ∈ s.exprs :=
  mem_exprs_of_field (List.mem_of_find?_eq_some h)

theorem mem_exprs_of_relation {r : Relation} (hr : r ∈ s.relations) {e : String}
    (he : e ∈ r.conditions.flatMap Clause.exprs) : e ∈ s.exprs := by
  simp only [exprs, List.mem_append, List.mem_flatMap]
  exact .inl (.inl (.inl (.inr ⟨r, hr, List.mem_flatMap.mp he⟩)))

theorem mem_exprs_of_filter {c : Clause} (h : c ∈ s.filters) : c.column ∈ s.exprs := by
  simp only [exprs, List.mem_append, List.mem_map]
  exact .inl (.inl (.inr ⟨c, h, rfl⟩))

theorem mem_exprs_of_sort {r : SortRule} (h : r ∈ s.sorts) : r.expr ∈ s.exprs := by
  simp only [exprs, List.mem_append, List.mem_map]
  exact .inl (.inr ⟨r, h, rfl⟩)

theorem mem_exprs_of_group {e : String} (h : e ∈ s.groups) : e ∈ s.exprs :=
  List.mem_append_right _ h

/-! ## Targets -/

theorem mem_of_foldl_longerKey {best : Option (Field × String)} {xs : List (Field × String)}
    {x : Field × String} (h : xs.foldl longerKey best = some x) : best = some x ∨ x ∈ xs := by
  induction xs generalizing best with
  | nil => exact .inl h
  | cons y ys ih =>
      rcases ih h with hnext | hmem
      · unfold longerKey at hnext
        split at hnext
        · split at hnext
          · exact .inr (by simp [Option.some.inj hnext])
          · exact .inl hnext
        · exact .inr (by simp [Option.some.inj hnext])
      · exact .inr (List.mem_cons_of_mem y hmem)

theorem mem_exprs_of_target? {key : String} {t : Target} (h : s.target? key = some t) :
    t.term.expr ∈ s.exprs := by
  unfold target? at h
  split at h
  · rename_i f hf
    obtain rfl := Option.some.inj h
    exact mem_exprs_of_field? hf
  · obtain ⟨⟨f, path⟩, hf, rfl⟩ := Option.map_eq_some_iff.mp h
    rcases mem_of_foldl_longerKey hf with hnone | hmem
    · cases hnone
    · obtain ⟨g, hg, hpath⟩ := List.mem_filterMap.mp hmem
      obtain ⟨_, -, heq⟩ := Option.map_eq_some_iff.mp hpath
      obtain ⟨rfl, -⟩ := Prod.mk.inj heq
      exact mem_exprs_of_field hg

/-! ## Columns -/

theorem mem_fields_of_selected {key : String} {f : Field} (h : f ∈ s.selected key) :
    f ∈ s.fields := by
  unfold selected at h
  split at h
  · rename_i g hg
    split at h
    · cases h
    · obtain rfl := List.mem_singleton.mp h
      exact List.mem_of_find?_eq_some hg
  · exact (List.mem_filter.mp h).1

theorem reads_fieldColumn {f : Field} (h : f ∈ s.fields) : (fieldColumn d f).Reads d s :=
  ⟨mem_exprs_of_field h, .inl rfl⟩

theorem reads_of_itemColumns {item : SelectItem} {cs : List Column}
    (h : s.itemColumns d item = .ok cs) : ∀ c ∈ cs, c.Reads d s := by
  cases item with
  | field key =>
      simp only [itemColumns] at h
      split at h
      · cases h
      · obtain rfl := Except.ok.inj h
        intro c hc
        obtain ⟨f, hf, rfl⟩ := List.mem_map.mp hc
        exact reads_fieldColumn (mem_fields_of_selected hf)
  | aggregate agg key =>
      simp only [itemColumns] at h
      split at h
      · cases h
      · rename_i f hf
        obtain rfl := Except.ok.inj h
        intro c hc
        obtain rfl := List.mem_singleton.mp hc
        exact ⟨mem_exprs_of_field? hf, .inr ⟨agg, rfl⟩⟩

theorem mem_of_mem_foldl_addColumn {cs more : List Column} {c : Column}
    (h : c ∈ more.foldl addColumn cs) : c ∈ cs ∨ c ∈ more := by
  induction more generalizing cs with
  | nil => exact .inl h
  | cons x xs ih =>
      rcases ih h with hadd | hmem
      · unfold addColumn at hadd
        split at hadd
        · exact .inl hadd
        · rcases List.mem_append.mp hadd with hold | hnew
          · exact .inl hold
          · exact .inr (List.mem_singleton.mp hnew ▸ List.mem_cons_self)
      · exact .inr (List.mem_cons_of_mem x hmem)

theorem reads_of_columns {q : Query} {cs : List Column} (h : s.columns d q = .ok cs) :
    ∀ c ∈ cs, c.Reads d s := by
  intro c hc
  unfold columns at h
  split at h
  · obtain rfl := Except.ok.inj h
    obtain ⟨f, hf, rfl⟩ := List.mem_map.mp hc
    exact reads_fieldColumn (List.mem_filter.mp hf).1
  · obtain ⟨found, hfound, hcs⟩ := bind_eq_ok.mp h
    obtain rfl := pure_eq_ok.mp hcs
    rcases mem_of_mem_foldl_addColumn hc with hnil | hmem
    · cases hnil
    · obtain ⟨cs, hcs, hc⟩ := List.mem_flatten.mp hmem
      obtain ⟨item, -, hitem⟩ := exists_of_mem_right (mapM_eq_ok.mp hfound) hcs
      exact reads_of_itemColumns hitem c hc

theorem reads_of_addTemplateColumns {out out' : List Column × List String}
    {keys : List String} (h : s.addTemplateColumns d out keys = .ok out')
    (hout : ∀ c ∈ out.1, c.Reads d s) : ∀ c ∈ out'.1, c.Reads d s := by
  induction keys generalizing out with
  | nil =>
      obtain rfl := Except.ok.inj h
      exact hout
  | cons key keys ih =>
      obtain ⟨cs, strip⟩ := out
      unfold addTemplateColumns at h
      split at h
      · exact ih h hout
      · split at h
        · cases h
        · rename_i f hf
          refine ih h fun c hc => ?_
          rcases List.mem_append.mp hc with hold | hnew
          · exact hout c hold
          · obtain rfl := List.mem_singleton.mp hnew
            exact reads_fieldColumn (List.mem_of_find?_eq_some hf)

/-! ## Conditions -/

theorem lhs_mem_of_filterComparison {f : Filter} {c : Comparison}
    (h : s.filterComparison d f = .ok c) : c.lhs.expr ∈ s.exprs := by
  unfold filterComparison at h
  split at h
  · cases h
  · rename_i t ht
    obtain ⟨rhs, -, hc⟩ := bind_eq_ok.mp h
    obtain rfl := pure_eq_ok.mp hc
    exact mem_exprs_of_target? ht

theorem lhs_mem_of_searchComparison {term key : String} {c : Comparison}
    (h : s.searchComparison term key = .ok c) : c.lhs.expr ∈ s.exprs := by
  unfold searchComparison at h
  split at h
  · cases h
  · rename_i t ht
    obtain rfl := Except.ok.inj h
    exact mem_exprs_of_target? ht

/-- The conditions of a request are its static filters, then one comparison for each filter, and
alternatives for each group and each search. -/
theorem conditions_eq_ok {q : Query} {cs : List Condition} :
    s.conditions d q = .ok cs ↔
      ∃ filters groups searches,
        List.Forall₂ (fun f c => s.filterComparison d f = .ok c) q.filters filters ∧
        List.Forall₂ (List.Forall₂ fun f c => s.filterComparison d f = .ok c) q.orGroups groups ∧
        List.Forall₂ (fun x => List.Forall₂ (fun key c => s.searchComparison x.term key = .ok c)
          x.fields) q.searches searches ∧
        cs = (s.filters.map clauseComparison).map .one ++ filters.map .one ++ groups.map .any ++
          searches.map .any := by
  simp only [conditions, bind_eq_ok, pure_eq_ok, mapM_eq_ok]
  constructor
  · rintro ⟨filters, hfilters, groups, hgroups, searches, hsearches, rfl⟩
    exact ⟨filters, groups, searches, hfilters, hgroups, hsearches, rfl⟩
  · rintro ⟨filters, groups, searches, hfilters, hgroups, hsearches, rfl⟩
    exact ⟨filters, hfilters, groups, hgroups, searches, hsearches, rfl⟩

theorem leftExprs_mem_of_conditions {q : Query} {cs : List Condition}
    (h : s.conditions d q = .ok cs) : ∀ c ∈ cs, ∀ e ∈ c.leftExprs, e ∈ s.exprs := by
  obtain ⟨filters, groups, searches, hfilters, hgroups, hsearches, rfl⟩ := conditions_eq_ok.mp h
  intro c hc e he
  simp only [List.mem_append, List.mem_map] at hc
  rcases hc with ((⟨_, ⟨clause, hclause, rfl⟩, rfl⟩ | ⟨c, hc, rfl⟩) | ⟨g, hg, rfl⟩) | ⟨g, hg, rfl⟩
  · obtain rfl := List.mem_singleton.mp he
    exact mem_exprs_of_filter hclause
  · obtain rfl := List.mem_singleton.mp he
    obtain ⟨f, -, hf⟩ := exists_of_mem_right hfilters hc
    exact lhs_mem_of_filterComparison hf
  · obtain ⟨c, hc, rfl⟩ := List.mem_map.mp he
    obtain ⟨fs, -, hfs⟩ := exists_of_mem_right hgroups hg
    obtain ⟨f, -, hf⟩ := exists_of_mem_right hfs hc
    exact lhs_mem_of_filterComparison hf
  · obtain ⟨c, hc, rfl⟩ := List.mem_map.mp he
    obtain ⟨x, -, hx⟩ := exists_of_mem_right hsearches hg
    obtain ⟨key, -, hkey⟩ := exists_of_mem_right hx hc
    exact lhs_mem_of_searchComparison hkey

/-! ## Groups and orders -/

theorem mem_addNew {xs : List String} {x y : String} : y ∈ addNew xs x ↔ y ∈ xs ∨ y = x := by
  unfold addNew
  split
  · rename_i h
    have hx : x ∈ xs := List.contains_iff_mem.mp h
    refine ⟨.inl, fun hy => ?_⟩
    rcases hy with hy | rfl
    · exact hy
    · exact hx
  · simp

theorem mem_addAllNew {xs more : List String} {y : String} :
    y ∈ addAllNew xs more ↔ y ∈ xs ∨ y ∈ more := by
  unfold addAllNew
  induction more generalizing xs with
  | nil => simp
  | cons x more ih => rw [List.foldl_cons, ih, mem_addNew, List.mem_cons, or_assoc]

theorem nodup_addNew {xs : List String} (h : xs.Nodup) (x : String) : (addNew xs x).Nodup := by
  unfold addNew
  split
  · exact h
  · rename_i hx
    have hnew : x ∉ xs := by simpa using hx
    exact List.nodup_append.mpr ⟨h, List.nodup_singleton x, by grind⟩

theorem nodup_addAllNew {xs : List String} (h : xs.Nodup) (more : List String) :
    (addAllNew xs more).Nodup := by
  unfold addAllNew
  induction more generalizing xs with
  | nil => exact h
  | cons x more ih => exact ih (nodup_addNew h x)

theorem mem_of_groupExprs {q : Query} {cs : List Column} {groups : List String}
    (h : s.groupExprs q cs = .ok groups) (hcs : ∀ c ∈ cs, c.expr ∈ s.exprs) :
    ∀ e ∈ groups, e ∈ s.exprs := by
  simp only [groupExprs, bind_eq_ok, mapM_eq_ok] at h
  obtain ⟨asked, hasked, h⟩ := h
  intro e he
  split at h
  · obtain rfl := pure_eq_ok.mp h
    rcases mem_addAllNew.mp he with hnil | hmem
    · cases hnil
    · obtain ⟨c, hc, rfl⟩ := List.mem_map.mp hmem
      exact hcs c (List.mem_filter.mp hc).1
  · obtain rfl := pure_eq_ok.mp h
    rcases mem_addAllNew.mp he with hdeclared | hmem
    · exact mem_exprs_of_group hdeclared
    · rcases List.mem_append.mp hmem with hmem | hmarked
      · obtain ⟨key, -, hkey⟩ := exists_of_mem_right hasked hmem
        split at hkey
        · rename_i f hf
          obtain rfl := Except.ok.inj hkey
          exact mem_exprs_of_field? hf
        · cases hkey
      · obtain ⟨f, hf, rfl⟩ := List.mem_map.mp hmarked
        exact mem_exprs_of_field (List.mem_filter.mp hf).1

theorem reads_of_itemTerm {item : SortItem} {o : OrderTerm} (h : s.itemTerm d item = .ok o) :
    o.Reads d s := by
  unfold itemTerm at h
  split at h
  · rename_i t ht
    obtain rfl := Except.ok.inj h
    exact ⟨mem_exprs_of_target? ht, t.term, item.desc, item.ignoreCase, rfl, rfl⟩
  · cases h

theorem reads_of_orderTerms {q : Query} {orders : List OrderTerm}
    (h : s.orderTerms d q = .ok orders) : ∀ o ∈ orders, o.Reads d s := by
  have hrule : ∀ r ∈ s.sorts, (ruleTerm d r).Reads d s := fun r hr =>
    ⟨mem_exprs_of_sort hr, .plain r.expr, r.desc, r.ignoreCase, rfl, rfl⟩
  intro o ho
  unfold orderTerms at h
  split at h
  · obtain ⟨asked, hasked, h⟩ := bind_eq_ok.mp h
    obtain rfl := pure_eq_ok.mp h
    rcases List.mem_append.mp ho with ho | ho
    · obtain ⟨r, hr, rfl⟩ := List.mem_map.mp ho
      exact hrule r (List.mem_filter.mp hr).1
    · obtain ⟨item, -, hitem⟩ := exists_of_mem_right (mapM_eq_ok.mp hasked) ho
      exact reads_of_itemTerm hitem
  · obtain rfl := Except.ok.inj h
    obtain ⟨r, hr, rfl⟩ := List.mem_map.mp ho
    exact hrule r hr

theorem keepOrders_subset (cs : List Column) (groups : List String) (orders : List OrderTerm) :
    keepOrders cs groups orders ⊆ orders := by
  unfold keepOrders
  split
  · exact List.nil_subset orders
  · split
    · exact List.Subset.refl orders
    · exact fun o ho => (List.mem_filter.mp ho).1

/-! ## Settled requests -/

theorem exprs_subset {q : Query} {includes : List String} {r : Resolved}
    (h : s.resolve d q includes = .ok r) : r.exprs ⊆ s.exprs := by
  obtain ⟨_, _, _, conditions, _, _, -, -, hconditions, -, -, rfl⟩ := resolve_eq_ok.mp h
  intro e he
  rcases mem_addAllNew.mp he with hnil | hmem
  · cases hnil
  · obtain ⟨c, hc, he⟩ := List.mem_flatMap.mp hmem
    exact leftExprs_mem_of_conditions hconditions c hc e he

theorem reads_of_resolve {q : Query} {includes : List String} {r : Resolved}
    (h : s.resolve d q includes = .ok r) :
    (∀ c ∈ r.columns, c.Reads d s) ∧ (∀ e ∈ r.groups, e ∈ s.exprs) ∧
      ∀ o ∈ r.orders, o.Reads d s := by
  obtain ⟨selected, columns, strip, conditions, groups, orders, hselected, hcolumns, -, hgroups,
    horders, rfl⟩ := resolve_eq_ok.mp h
  have hcs := reads_of_addTemplateColumns hcolumns (reads_of_columns hselected)
  refine ⟨hcs, mem_of_groupExprs hgroups fun c hc => (hcs c hc).expr_mem, fun o ho => ?_⟩
  exact reads_of_orderTerms horders o (keepOrders_subset columns groups orders ho)

/-- Whatever a row statement reads, its schema declares. -/
theorem rowExprs_subset {q : Query} {includes : List String} {r : Resolved}
    (h : s.resolve d q includes = .ok r) (ordered : Bool) : r.rowExprs ordered ⊆ s.exprs := by
  obtain ⟨hcolumns, hgroups, horders⟩ := reads_of_resolve h
  intro e he
  simp only [Resolved.rowExprs, List.mem_append, List.mem_map] at he
  rcases he with ((⟨c, hc, rfl⟩ | he) | he) | ⟨o, ho, rfl⟩
  · exact (hcolumns c hc).expr_mem
  · exact exprs_subset h he
  · exact hgroups e he
  · cases ordered with
    | false => cases ho
    | true => exact (horders o ho).expr_mem

end Schema

end EntityRest

import EntityRest.Proofs.Query.Count
import EntityRest.Proofs.Query.Hidden

/-! # A read with and without child lists

The keys that child templates need are columns behind those selected, and are stripped from the
rows. Where a request aggregates, such a column is still one more column to group by, if no groups
are given, and it brings back an order that an aggregate alone does not have. Everything else of the
statement is that of the request without child lists. -/

namespace EntityRest

open List (Forall₂)

/-! ## Lists without repeats -/

theorem addNew_eq_self_iff {xs : List String} {x : String} : addNew xs x = xs ↔ x ∈ xs := by
  unfold addNew
  split
  · rename_i h
    exact iff_of_true rfl (List.contains_iff_mem.mp h)
  · rename_i h
    exact iff_of_false (by simp) (fun hx => h (List.contains_iff_mem.mpr hx))

theorem prefix_addNew (xs : List String) (x : String) : xs <+: addNew xs x := by
  unfold addNew
  split
  · exact List.prefix_refl xs
  · exact List.prefix_append xs [x]

theorem prefix_addAllNew (xs more : List String) : xs <+: addAllNew xs more := by
  induction more generalizing xs with
  | nil => exact List.prefix_refl xs
  | cons x more ih => exact (prefix_addNew xs x).trans (ih (addNew xs x))

theorem addAllNew_append (xs more rest : List String) :
    addAllNew xs (more ++ rest) = addAllNew (addAllNew xs more) rest :=
  List.foldl_append

theorem addAllNew_eq_self_iff {xs more : List String} :
    addAllNew xs more = xs ↔ ∀ x ∈ more, x ∈ xs := by
  constructor
  · intro h x hx
    rw [← h]
    exact Schema.mem_addAllNew.mpr (.inr hx)
  · intro h
    induction more with
    | nil => rfl
    | cons x more ih =>
        obtain ⟨hx, hmore⟩ := List.forall_mem_cons.mp h
        rw [addAllNew, List.foldl_cons, addNew_eq_self_iff.mpr hx]
        exact ih hmore

namespace Schema

variable {d : Dialect} {s : Schema} {q : Query}

/-! ## Columns -/

/-- The columns that child templates need stand behind the others, one for each stripped key. -/
theorem exists_added_of_addTemplateColumns {cs cs' : List Column} {strip strip' keys : List String}
    (h : s.addTemplateColumns d (cs, strip) keys = .ok (cs', strip')) :
    ∃ added keys', cs' = cs ++ added ∧ strip' = strip ++ keys' ∧
      Forall₂ (fun key c => ∃ f, s.field? key = some f ∧ c = fieldColumn d f) keys' added := by
  induction keys generalizing cs strip with
  | nil =>
      obtain ⟨rfl, rfl⟩ := Prod.mk.inj (Except.ok.inj h)
      exact ⟨[], [], (List.append_nil cs).symm, (List.append_nil strip).symm, .nil⟩
  | cons key keys ih =>
      unfold addTemplateColumns at h
      split at h
      · exact ih h
      · split at h
        · cases h
        · rename_i f hf
          obtain ⟨added, keys', rfl, rfl, hadded⟩ := ih h
          exact ⟨fieldColumn d f :: added, key :: keys', by simp, by simp,
            .cons ⟨f, hf, rfl⟩ hadded⟩

/-! ## Groups -/

/-- The groups of a request whatever its columns are: declared, asked for, or marked. -/
def fixedGroups (s : Schema) (q : Query) : Except QueryError (List String) := s.groupExprs q []

/-- The groups, from the fixed ones and the columns. -/
def groupsFor (fixed : List String) (cs : List Column) : List String :=
  if cs.any Column.aggregate && fixed.isEmpty then
    addAllNew [] ((cs.filter fun c => !c.aggregate).map Column.expr)
  else fixed

theorem groupExprs_eq_ok {cs : List Column} {groups : List String} :
    s.groupExprs q cs = .ok groups ↔
      ∃ fixed, s.fixedGroups q = .ok fixed ∧ groups = groupsFor fixed cs := by
  simp only [fixedGroups, groupExprs, bind_eq_ok, List.any_nil, Bool.false_and, Bool.false_eq_true,
    if_false, pure_eq_ok]
  constructor
  · rintro ⟨asked, hasked, h⟩
    refine ⟨_, ⟨asked, hasked, rfl⟩, ?_⟩
    unfold groupsFor
    split at h <;> rename_i hfixed
    · rw [if_pos hfixed, pure_eq_ok.mp h]
    · rw [if_neg hfixed, pure_eq_ok.mp h]
  · rintro ⟨_, ⟨asked, hasked, rfl⟩, rfl⟩
    refine ⟨asked, hasked, ?_⟩
    unfold groupsFor
    split <;> rfl

section Added

variable {fixed : List String} {orders : List OrderTerm} {cs added : List Column}

/-- When columns that are added, none of them an aggregate, change neither the groups nor the order
of a request: there are none, or the request does not aggregate; or groups are given, and some
column is no aggregate anyway or there is nothing to order by; or no groups are given, but the
columns have all expressions of the added ones. -/
inductive Spares (fixed : List String) (orders : List OrderTerm) (cs added : List Column) : Prop
  | nothing (hadded : added = [])
  | rows (hcs : ∀ c ∈ cs, c.aggregate = false)
  | given (hfixed : fixed ≠ [])
      (hcs : (∃ c ∈ cs, c.aggregate = false) ∨ ∀ o ∈ orders, o.expr ∉ fixed)
  | covered (hfixed : fixed = [])
      (hcs : ∀ a ∈ added, ∃ c ∈ cs, c.aggregate = false ∧ c.expr = a.expr)

theorem any_append_eq (hadded : ∀ a ∈ added, a.aggregate = false) :
    (cs ++ added).any Column.aggregate = cs.any Column.aggregate := by
  have hnone : added.any Column.aggregate = false :=
    List.any_eq_false.mpr fun a ha => by simp [hadded a ha]
  rw [List.any_append, hnone, Bool.or_false]

/-- Groups of added columns stand behind those of the others. -/
theorem groupsFor_append (hadded : ∀ a ∈ added, a.aggregate = false) :
    groupsFor fixed (cs ++ added) =
      if cs.any Column.aggregate && fixed.isEmpty then
        addAllNew (groupsFor fixed cs) (added.map Column.expr)
      else groupsFor fixed cs := by
  have hplain : added.filter (fun a => !a.aggregate) = added :=
    List.filter_eq_self.mpr fun a ha => by simp [hadded a ha]
  simp only [groupsFor, any_append_eq hadded]
  split
  · rw [List.filter_append, hplain, List.map_append, addAllNew_append]
  · rfl

theorem prefix_groupsFor_append (hadded : ∀ a ∈ added, a.aggregate = false) :
    groupsFor fixed cs <+: groupsFor fixed (cs ++ added) := by
  rw [groupsFor_append hadded]
  split
  · exact prefix_addAllNew _ _
  · exact List.prefix_refl _

theorem mem_groupsFor_append (hadded : ∀ a ∈ added, a.aggregate = false) {e : String}
    (he : e ∈ groupsFor fixed (cs ++ added)) :
    e ∈ groupsFor fixed cs ∨ e ∈ added.map Column.expr := by
  rw [groupsFor_append hadded] at he
  split at he
  · exact mem_addAllNew.mp he
  · exact .inl he

/-! ## Orders -/

theorem keepOrders_of_plain {groups : List String} {c : Column} (hc : c ∈ cs)
    (hplain : c.aggregate = false) :
    keepOrders cs groups orders =
      if groups.isEmpty then orders else orders.filter fun o => groups.contains o.expr := by
  have hall : cs.all Column.aggregate = false := List.all_eq_false.mpr ⟨c, hc, by simp [hplain]⟩
  rw [keepOrders, hall, Bool.and_false, if_neg Bool.false_ne_true]

theorem keepOrders_of_rows {groups : List String} (hcs : cs.any Column.aggregate = false) :
    keepOrders cs groups orders =
      if groups.isEmpty then orders else orders.filter fun o => groups.contains o.expr := by
  rw [keepOrders, hcs, Bool.false_and, if_neg Bool.false_ne_true]

theorem groupsFor_of_rows (hcs : cs.any Column.aggregate = false) : groupsFor fixed cs = fixed := by
  rw [groupsFor, hcs, Bool.false_and, if_neg Bool.false_ne_true]

theorem groupsFor_of_given (hfixed : fixed ≠ []) : groupsFor fixed cs = fixed := by
  rw [groupsFor, List.isEmpty_eq_false_iff.mpr hfixed, Bool.and_false, if_neg Bool.false_ne_true]

/-- Next to an aggregate, a column that is none is grouped by, or the groups are given. -/
theorem groupsFor_ne_nil (haggregate : cs.any Column.aggregate = true) {c : Column} (hc : c ∈ cs)
    (hplain : c.aggregate = false) : groupsFor fixed cs ≠ [] := by
  by_cases hfixed : fixed = []
  · have hexpr : c.expr ∈ (cs.filter fun c => !c.aggregate).map Column.expr :=
      List.mem_map_of_mem (List.mem_filter.mpr ⟨hc, by simp [hplain]⟩)
    rw [groupsFor, haggregate, hfixed, Bool.true_and, if_pos List.isEmpty_nil]
    exact List.ne_nil_of_mem (mem_addAllNew.mpr (.inr hexpr))
  · rwa [groupsFor_of_given hfixed]

theorem keepOrders_append (hadded : ∀ a ∈ added, a.aggregate = false) :
    (keepOrders cs (groupsFor fixed cs) orders).Sublist
        (keepOrders (cs ++ added) (groupsFor fixed (cs ++ added)) orders) ∧
      ∀ o ∈ keepOrders (cs ++ added) (groupsFor fixed (cs ++ added)) orders,
        o ∈ keepOrders cs (groupsFor fixed cs) orders ∨
          o.expr ∈ groupsFor fixed (cs ++ added) := by
  by_cases haggregate : cs.any Column.aggregate = true
  · cases added with
    | nil =>
        rw [List.append_nil]
        exact ⟨List.Sublist.refl _, fun o => .inl⟩
    | cons a added =>
        have ha : a ∈ cs ++ a :: added := by simp
        have hplain := hadded a List.mem_cons_self
        have hsome : groupsFor fixed (cs ++ a :: added) ≠ [] :=
          groupsFor_ne_nil ((any_append_eq hadded).trans haggregate) ha hplain
        have hsub : groupsFor fixed cs ⊆ groupsFor fixed (cs ++ a :: added) :=
          (prefix_groupsFor_append hadded).subset
        rw [keepOrders_of_plain ha hplain, List.isEmpty_eq_false_iff.mpr hsome,
          if_neg Bool.false_ne_true]
        constructor
        · rw [keepOrders, haggregate, Bool.true_and]
          split
          · exact List.nil_sublist _
          · rename_i hmixed
            obtain ⟨c, hc, hcplain⟩ := List.all_eq_false.mp (Bool.eq_false_iff.mpr hmixed)
            have hgroups : groupsFor fixed cs ≠ [] :=
              groupsFor_ne_nil haggregate hc (by simpa using hcplain)
            rw [List.isEmpty_eq_false_iff.mpr hgroups, if_neg Bool.false_ne_true]
            refine List.monotone_filter_right _ fun o ho => ?_
            exact List.contains_iff_mem.mpr (hsub (List.contains_iff_mem.mp ho))
        · exact fun o ho => .inr (List.contains_iff_mem.mp (List.mem_filter.mp ho).2)
  · have hrows := Bool.eq_false_iff.mpr haggregate
    rw [keepOrders_of_rows hrows, keepOrders_of_rows ((any_append_eq hadded).trans hrows),
      groupsFor_of_rows hrows, groupsFor_of_rows ((any_append_eq hadded).trans hrows)]
    exact ⟨List.Sublist.refl _, fun o => .inl⟩

theorem keepOrders_of_unordered {groups : List String} (hgroups : groups ≠ [])
    (horders : ∀ o ∈ orders, o.expr ∉ groups) : keepOrders cs groups orders = [] := by
  have hnone : orders.filter (fun o => groups.contains o.expr) = [] :=
    List.filter_eq_nil_iff.mpr fun o ho hin => horders o ho (List.contains_iff_mem.mp hin)
  rw [keepOrders, List.isEmpty_eq_false_iff.mpr hgroups, if_neg Bool.false_ne_true, hnone, ite_self]

/-- Columns that are added keep the groups and the order in those cases only. -/
theorem spares_iff (hadded : ∀ a ∈ added, a.aggregate = false) :
    groupsFor fixed (cs ++ added) = groupsFor fixed cs ∧
        keepOrders (cs ++ added) (groupsFor fixed (cs ++ added)) orders =
          keepOrders cs (groupsFor fixed cs) orders ↔
      Spares fixed orders cs added := by
  have hrowsIf (hcs : ∀ c ∈ cs, c.aggregate = false) : cs.any Column.aggregate = false :=
    List.any_eq_false.mpr fun c hc => by simp [hcs c hc]
  constructor
  · rintro ⟨hgroups, horders⟩
    by_cases hnothing : added = []
    · exact .nothing hnothing
    by_cases hrows : ∀ c ∈ cs, c.aggregate = false
    · exact .rows hrows
    obtain ⟨a, ha⟩ := List.exists_mem_of_ne_nil _ hnothing
    have haggregate : cs.any Column.aggregate = true := by simpa using hrows
    by_cases hfixed : fixed = []
    · refine .covered hfixed fun a ha => ?_
      rw [groupsFor_append hadded, haggregate, hfixed, Bool.true_and, if_pos List.isEmpty_nil,
        addAllNew_eq_self_iff] at hgroups
      have hmem := hgroups a.expr (List.mem_map_of_mem ha)
      rw [groupsFor, haggregate, Bool.true_and, if_pos List.isEmpty_nil] at hmem
      obtain ⟨c, hc, hexpr⟩ :=
        List.mem_map.mp ((mem_addAllNew.mp hmem).resolve_left List.not_mem_nil)
      exact ⟨c, (List.mem_filter.mp hc).1, by simpa using (List.mem_filter.mp hc).2, hexpr⟩
    · refine .given hfixed (or_iff_not_imp_left.mpr fun hall o ho hin => ?_)
      have hall : cs.all Column.aggregate = true :=
        List.all_eq_true.mpr fun c hc => by simpa using fun h => hall ⟨c, hc, h⟩
      rw [keepOrders_of_plain (List.mem_append_right cs ha) (hadded a ha),
        groupsFor_of_given hfixed, groupsFor_of_given hfixed,
        List.isEmpty_eq_false_iff.mpr hfixed, if_neg Bool.false_ne_true, keepOrders, haggregate,
        hall, Bool.and_self, if_pos rfl] at horders
      exact List.filter_eq_nil_iff.mp horders o ho (List.contains_iff_mem.mpr hin)
  · intro h
    cases h with
    | nothing hnothing =>
        rw [hnothing, List.append_nil]
        exact ⟨rfl, rfl⟩
    | rows hcs =>
        have hrows := hrowsIf hcs
        have hrows' := (any_append_eq hadded).trans hrows
        rw [groupsFor_of_rows hrows, groupsFor_of_rows hrows', keepOrders_of_rows hrows,
          keepOrders_of_rows hrows']
        exact ⟨rfl, rfl⟩
    | given hfixed hcs =>
        rw [groupsFor_of_given hfixed, groupsFor_of_given hfixed]
        refine ⟨rfl, ?_⟩
        rcases hcs with ⟨c, hc, hplain⟩ | hnone
        · rw [keepOrders_of_plain hc hplain,
            keepOrders_of_plain (List.mem_append_left added hc) hplain]
        · rw [keepOrders_of_unordered hfixed hnone, keepOrders_of_unordered hfixed hnone]
    | covered hfixed hcs =>
        by_cases hnothing : added = []
        · rw [hnothing, List.append_nil]
          exact ⟨rfl, rfl⟩
        obtain ⟨a, ha⟩ := List.exists_mem_of_ne_nil _ hnothing
        obtain ⟨c, hc, hplain, -⟩ := hcs a ha
        have hgroups : groupsFor fixed (cs ++ added) = groupsFor fixed cs := by
          rw [groupsFor_append hadded]
          split
          · rename_i haggregate
            refine addAllNew_eq_self_iff.mpr fun e he => ?_
            obtain ⟨a, ha, rfl⟩ := List.mem_map.mp he
            obtain ⟨c, hc, hplain, hexpr⟩ := hcs a ha
            rw [groupsFor, if_pos haggregate, mem_addAllNew, ← hexpr]
            exact .inr (List.mem_map_of_mem (List.mem_filter.mpr ⟨hc, by simp [hplain]⟩))
          · rfl
        rw [hgroups, keepOrders_of_plain hc hplain,
          keepOrders_of_plain (List.mem_append_left added hc) hplain]
        exact ⟨rfl, rfl⟩

end Added

end Schema

/-! ## Settled requests -/

/-- The second settled request is the first with columns added, one for each stripped key. -/
structure Resolved.Adds (d : Dialect) (s : Schema) (q : Query) (added : List Column)
    (plain r : Resolved) : Prop where
  fed : Forall₂ (fun key c => ∃ f, s.field? key = some f ∧ c = Schema.fieldColumn d f)
    r.strip added
  strip : plain.strip = []
  columns : r.columns = plain.columns ++ added
  conditions : r.conditions = plain.conditions
  groups : plain.groups <+: r.groups
  orders : plain.orders.Sublist r.orders
  grouped : r.isGrouped = plain.isGrouped
  reads : ∀ ordered, ∀ e ∈ r.rowExprs ordered,
    e ∈ plain.rowExprs ordered ++ added.map Column.expr
  spares : ∃ fixed orders, s.fixedGroups q = .ok fixed ∧ s.orderTerms d q = .ok orders ∧
    (r.groups = plain.groups ∧ r.orders = plain.orders ↔
      Schema.Spares fixed orders plain.columns added)

namespace Resolved.Adds

variable {d : Dialect} {s : Schema} {q : Query} {added : List Column} {plain r : Resolved}

theorem exprs_eq (h : Adds d s q added plain r) : r.exprs = plain.exprs := by
  rw [exprs, exprs, h.conditions]

theorem rowExprs_subset (h : Adds d s q added plain r) (ordered : Bool) :
    plain.rowExprs ordered ⊆ r.rowExprs ordered := by
  have horders : plain.ordersIf ordered ⊆ r.ordersIf ordered := by
    cases ordered with
    | false => exact List.nil_subset _
    | true => exact h.orders.subset
  intro e he
  simp only [rowExprs, List.mem_append, h.columns, List.map_append, h.exprs_eq] at he ⊢
  rcases he with ((he | he) | he) | he
  · exact .inl (.inl (.inl (.inl he)))
  · exact .inl (.inl (.inr he))
  · exact .inl (.inr (h.groups.subset he))
  · exact .inr (List.map_subset _ horders he)

end Resolved.Adds

namespace Schema

variable {d : Dialect} {s : Schema} {q : Query}

theorem aggregate_of_fed {keys : List String} {added : List Column}
    (h : Forall₂ (fun key c => ∃ f, s.field? key = some f ∧ c = fieldColumn d f) keys added) :
    ∀ a ∈ added, a.aggregate = false := by
  intro a ha
  obtain ⟨key, -, f, -, rfl⟩ := exists_of_mem_right h ha
  rfl

theorem isGrouped_groupsFor_append {cs added : List Column} {fixed : List String}
    (hadded : ∀ a ∈ added, a.aggregate = false) {conditions conditions' : List Condition}
    {orders orders' : List OrderTerm} {strip strip' : List String} :
    Resolved.isGrouped ⟨cs ++ added, conditions, groupsFor fixed (cs ++ added), orders, strip⟩ =
      Resolved.isGrouped ⟨cs, conditions', groupsFor fixed cs, orders', strip'⟩ := by
  simp only [Resolved.isGrouped, any_append_eq hadded]
  cases hrows : cs.any Column.aggregate with
  | true => rfl
  | false => rw [groupsFor_of_rows hrows, groupsFor_of_rows ((any_append_eq hadded).trans hrows)]

/-- A request with child lists settles only if it does without them, and then to the same with
columns added. -/
theorem resolve_includes {includes : List String} {r : Resolved}
    (h : s.resolve d q includes = .ok r) :
    ∃ plain added, s.resolve d { q with includes := [] } [] = .ok plain ∧
      Resolved.Adds d s q added plain r := by
  obtain ⟨cs, columns, strip, conditions, groups, orders, hcs, hcolumns, hconditions, hgroups,
    horders, rfl⟩ := resolve_eq_ok.mp h
  obtain ⟨added, keys, rfl, rfl, hfed⟩ := exists_added_of_addTemplateColumns hcolumns
  obtain ⟨fixed, hfixed, rfl⟩ := groupExprs_eq_ok.mp hgroups
  have hadded := aggregate_of_fed hfed
  have hprefix : groupsFor fixed cs <+: groupsFor fixed (cs ++ added) :=
    prefix_groupsFor_append hadded
  refine ⟨⟨cs, conditions, groupsFor fixed cs, keepOrders cs (groupsFor fixed cs) orders, []⟩,
    added, resolve_eq_ok.mpr ⟨cs, cs, [], conditions, groupsFor fixed cs, orders, hcs, rfl,
      hconditions, groupExprs_eq_ok.mpr ⟨fixed, hfixed, rfl⟩, horders, rfl⟩, ?_⟩
  refine
    { fed := hfed
      strip := rfl
      columns := rfl
      conditions := rfl
      groups := hprefix
      orders := (keepOrders_append hadded).1
      grouped := isGrouped_groupsFor_append hadded
      reads := fun ordered e he => ?_
      spares := ⟨fixed, orders, hfixed, horders, spares_iff hadded⟩ }
  have hfrom {e : String} (he : e ∈ groupsFor fixed (cs ++ added)) :=
    mem_groupsFor_append hadded he
  simp only [Resolved.rowExprs, List.mem_append, List.map_append] at he ⊢
  rcases he with (((he | he) | he) | he) | he
  · exact .inl (.inl (.inl (.inl he)))
  · exact .inr he
  · exact .inl (.inl (.inl (.inr he)))
  · exact (hfrom he).imp_left fun he => .inl (.inr he)
  · cases ordered with
    | false => cases he
    | true =>
        obtain ⟨o, ho, rfl⟩ := List.mem_map.mp he
        rcases (keepOrders_append hadded).2 o ho with ho | he
        · exact .inl (.inr (List.mem_map_of_mem ho))
        · exact (hfrom he).imp_left fun he => .inl (.inr he)

end Schema

/-! ## Plans -/

/-- The second plan is the first with columns added, one for each stripped key. -/
structure Plan.Adds (d : Dialect) (s : Schema) (q : Query) (added : List Column)
    (plain p : Plan) : Prop where
  fed : Forall₂ (fun key c => ∃ f, s.field? key = some f ∧ c = Schema.fieldColumn d f)
    p.strip added
  strip : plain.strip = []
  includes : plain.includes = []
  body : p.select.body = { plain.select.body with
    columns := plain.select.body.columns ++ added
    groups := p.select.body.groups
    orders := p.select.body.orders }
  page : p.page = plain.page
  perPage : p.perPage = plain.perPage
  count : p.count.isSome = plain.count.isSome
  joins : plain.select.joins.Sublist p.select.joins
  needed : ∀ j ∈ p.select.joins,
    j ∈ plain.select.joins ∨ s.Needs (added.map Column.expr) j.head.asName
  groups : plain.select.body.groups <+: p.select.body.groups
  orders : plain.select.body.orders.Sublist p.select.body.orders
  spares : ∃ fixed orders, s.fixedGroups q = .ok fixed ∧ s.orderTerms d q = .ok orders ∧
    (p.select.body.groups = plain.select.body.groups ∧
        p.select.body.orders = plain.select.body.orders ↔
      Schema.Spares fixed orders plain.select.body.columns added)

namespace Schema

variable {d : Dialect} {s : Schema} {q : Query} {derived : String → Except QueryError Select}
  {added : List Column} {plain r : Resolved}

theorem exists_joins {xs ys : List String} {joins : List Join} (hsub : xs ⊆ ys)
    (h : Forall₂ (fun rel j => join d derived rel = .ok j) (s.requiredJoins ys) joins) :
    ∃ few, Forall₂ (fun rel j => join d derived rel = .ok j) (s.requiredJoins xs) few := by
  have hall := exists_mapM_eq_ok.mp ⟨joins, mapM_eq_ok.mpr h⟩
  obtain ⟨few, hfew⟩ := exists_mapM_eq_ok.mpr fun rel hrel =>
    hall rel ((requiredJoins_sublist hsub).subset hrel)
  exact ⟨few, mapM_eq_ok.mp hfew⟩

theorem rowSelect_of_adds (h : Resolved.Adds d s q added plain r) {window : Option Window}
    {ordered : Bool} {sel : Select} (hsel : s.rowSelect d derived r window ordered = .ok sel) :
    ∃ few, s.rowSelect d derived plain window ordered = .ok few ∧
      few.body = ⟨plain.columns, s.table, s.asName, sel.body.conjuncts, plain.groups,
        plain.ordersIf ordered, window⟩ ∧
      sel.body = ⟨r.columns, s.table, s.asName, sel.body.conjuncts, r.groups,
        r.ordersIf ordered, window⟩ ∧
      few.joins.Sublist sel.joins ∧
      ∀ j ∈ sel.joins, j ∈ few.joins ∨ s.Needs (added.map Column.expr) j.head.asName := by
  obtain ⟨joins, conjuncts, hjoins, hconjuncts, rfl⟩ := rowSelect_eq_ok.mp hsel
  obtain ⟨few, hfew⟩ := exists_joins (h.rowExprs_subset ordered) hjoins
  rw [h.conditions] at hconjuncts
  refine ⟨_, rowSelect_eq_ok.mpr ⟨few, conjuncts, hfew, hconjuncts, rfl⟩, rfl, rfl,
    joins_sublist (h.rowExprs_subset ordered) hjoins hfew, fun j hj => ?_⟩
  obtain ⟨rel, hrel, hjoin⟩ := exists_of_mem_right hjoins hj
  have hneeds : s.Needs (plain.rowExprs ordered ++ added.map Column.expr) j.head.asName := by
    rw [(join_spec hjoin).1]
    exact (mem_requiredJoins_iff.mp hrel).2.mono (h.reads ordered)
  exact (needs_append.mp hneeds).imp_left (mem_joins_iff hjoins hfew hj).mpr

theorem countIf_of_adds (h : Resolved.Adds d s q added plain r) {asked : Bool} {c : Option Count}
    (hc : s.countIf d derived r asked = .ok c) :
    ∃ few, s.countIf d derived plain asked = .ok few ∧ c.isSome = few.isSome := by
  rcases countIf_eq_ok.mp hc with ⟨rfl, c, hcount, rfl⟩ | ⟨rfl, rfl⟩
  · cases hgrouped : r.isGrouped with
    | true =>
        obtain ⟨inner, hinner, rfl⟩ := (countSelect_eq_ok_of_isGrouped hgrouped).mp hcount
        obtain ⟨few, hfew, -⟩ := rowSelect_of_adds h hinner
        exact ⟨some (.groups few), countIf_eq_ok.mpr (.inl ⟨rfl, _,
          (countSelect_eq_ok_of_isGrouped (h.grouped ▸ hgrouped)).mpr ⟨few, hfew, rfl⟩, rfl⟩), rfl⟩
    | false =>
        have hsame : s.countSelect d derived plain = s.countSelect d derived r := by
          rw [countSelect, countSelect, ← h.grouped, hgrouped, ← h.exprs_eq, ← h.conditions]
          rfl
        exact ⟨some c, countIf_eq_ok.mpr (.inl ⟨rfl, c, hsame.trans hcount, rfl⟩), rfl⟩
  · exact ⟨none, countIf_eq_ok.mpr (.inr ⟨rfl, rfl⟩), rfl⟩

end Schema

namespace Registry

variable {reg : Registry} {d : Dialect} {s : Schema} {q : Query} {m : ReadMode} {p : Plan}

theorem plan_includes {window : Option Window} (h : reg.plan d s q window = .ok p) :
    ∃ plain added, reg.plan d s { q with includes := [] } window = .ok plain ∧
      Plan.Adds d s q added plain p := by
  obtain ⟨includes, r, select, count, -, hr, hselect, hcount, rfl⟩ := plan_eq_ok.mp h
  obtain ⟨plain, added, hplain, hadds⟩ := Schema.resolve_includes hr
  obtain ⟨few, hfew, hbody, hbody', hjoins, hneeded⟩ := Schema.rowSelect_of_adds hadds hselect
  obtain ⟨count', hcount', hsome⟩ := Schema.countIf_of_adds hadds hcount
  refine ⟨⟨few, count', 1, 0, [], plain.strip⟩, added,
    plan_eq_ok.mpr ⟨[], plain, few, count', rfl, hplain, hfew, hcount', rfl⟩, ?_⟩
  exact
    { fed := hadds.fed
      strip := hadds.strip
      includes := rfl
      body := by rw [hbody, hbody', hadds.columns]
      page := rfl
      perPage := rfl
      count := hsome
      joins := hjoins
      needed := hneeded
      groups := by
        rw [hbody, hbody']
        exact hadds.groups
      orders := by
        rw [hbody, hbody']
        exact hadds.orders
      spares := by
        rw [hbody, hbody']
        exact hadds.spares }

/-- A read with child lists has the plan of the same read without them, with columns behind the
others whose keys are stripped, and the joins that these need. Groups and order terms are at most
added, and none are in the cases of `Schema.Spares` only. -/
theorem compileAs_includes (h : reg.compileAs d s q m = .ok p) :
    ∃ plain added, reg.compileAs d s { q with includes := [] } m = .ok plain ∧
      Plan.Adds d s q added plain p := by
  cases m with
  | page o =>
      obtain ⟨p, hp, hpage⟩ := bind_eq_ok.mp h
      obtain rfl := pure_eq_ok.mp hpage
      obtain ⟨plain, added, hplain, hadds⟩ := plan_includes hp
      refine ⟨{ plain with page := q.page.getD 1, perPage := pageSize o q }, added,
        bind_eq_ok.mpr ⟨plain, hplain, rfl⟩, ?_⟩
      exact { hadds with page := rfl, perPage := rfl }
  | all => exact plan_includes h
  | one id =>
      obtain ⟨plain, added, hplain, hadds⟩ := plan_includes h
      exact ⟨plain, added, hplain, { hadds with }⟩

end Registry

namespace Members

/-- The names of the members, with the visits of each. -/
def withVisits : Query where
  select := some [.field "name"]
  sort := some [⟨"pin", false, false⟩]
  includes := ["visits"]

/-- Members have the same groups and the same order with their visits as without them. -/
theorem withVisits_adds :
    ∃ p plain added, registry.compileAs .postgres members withVisits .all = .ok p ∧
      registry.compileAs .postgres members { withVisits with includes := [] } .all = .ok plain ∧
      Plan.Adds .postgres members withVisits added plain p ∧
      p.select.body.groups = plain.select.body.groups ∧
      p.select.body.orders = plain.select.body.orders := by
  obtain ⟨p, hp, -⟩ := exists_eq_ok
    (x := registry.compileAs .postgres members withVisits .all) (p := fun _ => true)
    (by decide +kernel)
  obtain ⟨plain, added, hplain, hadds⟩ := Registry.compileAs_includes hp
  obtain ⟨plain', hplain', hrows⟩ := exists_eq_ok
    (x := registry.compileAs .postgres members { withVisits with includes := [] } .all)
    (p := fun p => decide (∀ c ∈ p.select.body.columns, c.aggregate = false)) (by decide +kernel)
  obtain rfl : plain' = plain := Except.ok.inj (hplain'.symm.trans hplain)
  obtain ⟨fixed, orders, -, -, hsame⟩ := hadds.spares
  exact ⟨p, _, added, hp, hplain, hadds, hsame.mpr (.rows (of_decide_eq_true hrows))⟩

/-- The number of all members comes back for each PIN if their visits are asked for as well. -/
theorem count_grouped_by_pin :
    ∃ p plain,
      registry.compileAs .postgres members
        { select := some [.aggregate .count "id"], includes := ["visits"] } .all = .ok p ∧
      registry.compileAs .postgres members { select := some [.aggregate .count "id"] } .all =
        .ok plain ∧
      (plain.selectStatement .postgres).sql =
        "SELECT COUNT(\"m\".\"id\") AS \"count.id\" FROM \"members\" AS \"m\"" ∧
      (p.selectStatement .postgres).sql =
        "SELECT COUNT(\"m\".\"id\") AS \"count.id\", \"m\".\"pin\" AS \"pin\" " ++
          "FROM \"members\" AS \"m\" GROUP BY \"m\".\"pin\"" ∧
      p.select.body.groups ≠ plain.select.body.groups := by
  obtain ⟨p, hp, hparts⟩ := exists_eq_ok
    (x := registry.compileAs .postgres members
      { select := some [.aggregate .count "id"], includes := ["visits"] } .all)
    (p := fun p => decide ((p.selectStatement .postgres).sql =
        "SELECT COUNT(\"m\".\"id\") AS \"count.id\", \"m\".\"pin\" AS \"pin\" " ++
          "FROM \"members\" AS \"m\" GROUP BY \"m\".\"pin\"" ∧
      p.select.body.groups = ["m.pin"])) (by decide +kernel)
  obtain ⟨plain, hplain, hparts'⟩ := exists_eq_ok
    (x := registry.compileAs .postgres members { select := some [.aggregate .count "id"] } .all)
    (p := fun p => decide ((p.selectStatement .postgres).sql =
        "SELECT COUNT(\"m\".\"id\") AS \"count.id\" FROM \"members\" AS \"m\"" ∧
      p.select.body.groups = [])) (by decide +kernel)
  obtain ⟨hsql, hgroups⟩ := of_decide_eq_true hparts
  obtain ⟨hsql', hgroups'⟩ := of_decide_eq_true hparts'
  refine ⟨p, plain, hp, hplain, hsql', hsql, ?_⟩
  rw [hgroups, hgroups']
  exact List.cons_ne_nil _ _

end Members

end EntityRest

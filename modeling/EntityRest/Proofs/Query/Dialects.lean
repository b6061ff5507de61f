import EntityRest.Proofs.Query.Order
import EntityRest.Proofs.Query.Resolve

/-! # One request in two dialects

Dialects spell statements in their own ways. What is bound to a statement, and in which order, is
the same in all of them, and so is every refusal, except that one dialect has no regular
expressions. -/

namespace EntityRest

open List (Forall₂)

/-- The dialect has no operator for what the request or the schema asks for. -/
def Dialect.Lacks (d : Dialect) (e : QueryError) : Prop :=
  d = .sqlserver ∧ e.fault = .unsupportedOperator

theorem Dialect.regexpParts?_eq_none_iff {d : Dialect} {negated : Bool} :
    d.regexpParts? negated = none ↔ d = .sqlserver := by
  cases d <;> simp [regexpParts?]

/-! ## Columns and orders -/

/-- Columns that may be spelled differently, but are the same otherwise. -/
structure Column.Respelled (c c' : Column) : Prop where
  key_eq : c.key = c'.key
  expr_eq : c.expr = c'.expr
  aggregate_eq : c.aggregate = c'.aggregate

def OrderTerm.Respelled (o o' : OrderTerm) : Prop := o.expr = o'.expr

section Columns

variable {cs cs' : List Column} (h : Forall₂ Column.Respelled cs cs')

include h

theorem Column.keys_respelled : cs.map Column.key = cs'.map Column.key :=
  map_eq_of_forall₂ h fun _ _ hc => hc.key_eq

theorem Column.exprs_respelled : cs.map Column.expr = cs'.map Column.expr :=
  map_eq_of_forall₂ h fun _ _ hc => hc.expr_eq

theorem Column.any_key_respelled (key : String) :
    (cs.any fun c => c.key = key) = cs'.any fun c => c.key = key := by
  have hany (xs : List Column) : (xs.any fun c => c.key = key) =
      (xs.map Column.key).any fun k => k = key := by simp [Function.comp_def]
  rw [hany, hany, Column.keys_respelled h]

theorem Column.aggregates_respelled :
    cs.map Column.aggregate = cs'.map Column.aggregate :=
  map_eq_of_forall₂ h fun _ _ hc => hc.aggregate_eq

theorem Column.any_aggregate_respelled :
    cs.any Column.aggregate = cs'.any Column.aggregate := by
  have hany (xs : List Column) :
      xs.any Column.aggregate = (xs.map Column.aggregate).any id := by simp
  rw [hany, hany, Column.aggregates_respelled h]

theorem Column.all_aggregate_respelled :
    cs.all Column.aggregate = cs'.all Column.aggregate := by
  have hall (xs : List Column) :
      xs.all Column.aggregate = (xs.map Column.aggregate).all id := by simp
  rw [hall, hall, Column.aggregates_respelled h]

theorem Column.plainExprs_respelled :
    (cs.filter fun c => !c.aggregate).map Column.expr =
      (cs'.filter fun c => !c.aggregate).map Column.expr := by
  refine Column.exprs_respelled (List.rel_filter (fun c c' hc => ?_) h)
  simp [hc.aggregate_eq]

theorem Column.addColumn_respelled {c c' : Column} (hc : c.Respelled c') :
    Forall₂ Column.Respelled (Schema.addColumn cs c) (Schema.addColumn cs' c') := by
  unfold Schema.addColumn
  rw [hc.key_eq, Column.any_key_respelled h]
  split
  · exact h
  · exact List.rel_append h (.cons hc .nil)

theorem Column.foldl_addColumn_respelled {more more' : List Column}
    (hmore : Forall₂ Column.Respelled more more') :
    Forall₂ Column.Respelled (more.foldl Schema.addColumn cs)
      (more'.foldl Schema.addColumn cs') := by
  induction hmore generalizing cs cs' with
  | nil => exact h
  | cons hc _ ih => exact ih (Column.addColumn_respelled h hc)

end Columns

namespace Schema

variable {s : Schema} {d d' : Dialect}

theorem fieldColumn_respelled (f : Field) : (fieldColumn d f).Respelled (fieldColumn d' f) :=
  ⟨rfl, rfl, rfl⟩

theorem fieldColumns_respelled (fs : List Field) :
    Forall₂ Column.Respelled (fs.map (fieldColumn d)) (fs.map (fieldColumn d')) := by
  induction fs with
  | nil => exact .nil
  | cons f fs ih => exact .cons (fieldColumn_respelled f) ih

theorem itemColumns_concur (item : SelectItem) :
    Concur d.Lacks d'.Lacks (Forall₂ Column.Respelled) (s.itemColumns d item)
      (s.itemColumns d' item) := by
  cases item with
  | field key =>
      simp only [itemColumns]
      cases s.selected key with
      | nil => exact .same_error _
      | cons f fs => exact .ok (fieldColumns_respelled (f :: fs))
  | aggregate agg key =>
      simp only [itemColumns]
      cases s.field? key with
      | none => exact .same_error _
      | some f => exact .ok (.cons ⟨rfl, rfl, rfl⟩ .nil)

theorem columns_concur (q : Query) :
    Concur d.Lacks d'.Lacks (Forall₂ Column.Respelled) (s.columns d q) (s.columns d' q) := by
  unfold columns
  cases q.select with
  | none => exact .ok (fieldColumns_respelled _)
  | some items =>
      refine (Concur.mapM fun item _ => itemColumns_concur item).bind fun found found' hfound => ?_
      exact .pure (Column.foldl_addColumn_respelled .nil (List.rel_flatten hfound))

theorem addTemplateColumns_concur {cs cs' : List Column} (h : Forall₂ Column.Respelled cs cs')
    (strip keys : List String) :
    Concur d.Lacks d'.Lacks (fun x y => Forall₂ Column.Respelled x.1 y.1 ∧ x.2 = y.2)
      (s.addTemplateColumns d (cs, strip) keys) (s.addTemplateColumns d' (cs', strip) keys) := by
  induction keys generalizing cs cs' strip with
  | nil => exact .ok ⟨h, rfl⟩
  | cons key keys ih =>
      simp only [addTemplateColumns, Column.any_key_respelled h]
      split
      · exact ih h strip
      · cases s.field? key with
        | none => exact .same_error _
        | some f => exact ih (List.rel_append h (.cons (fieldColumn_respelled f) .nil)) _

theorem orderTerms_concur (q : Query) :
    Concur d.Lacks d'.Lacks (Forall₂ OrderTerm.Respelled) (s.orderTerms d q)
      (s.orderTerms d' q) := by
  have hrules (rules : List SortRule) :
      Forall₂ OrderTerm.Respelled (rules.map (ruleTerm d)) (rules.map (ruleTerm d')) := by
    induction rules with
    | nil => exact .nil
    | cons r rules ih => exact .cons rfl ih
  have hitem (item : SortItem) :
      Concur d.Lacks d'.Lacks OrderTerm.Respelled (s.itemTerm d item) (s.itemTerm d' item) := by
    unfold itemTerm
    cases s.target? item.key with
    | none => exact .same_error _
    | some t => exact .ok rfl
  unfold orderTerms
  cases q.sort with
  | none => exact .ok (hrules s.sorts)
  | some items =>
      refine (Concur.mapM fun item _ => hitem item).bind fun asked asked' hasked => ?_
      exact .pure (List.rel_append (hrules _) hasked)

theorem groupExprs_respelled {cs cs' : List Column} (h : Forall₂ Column.Respelled cs cs')
    (q : Query) : s.groupExprs q cs = s.groupExprs q cs' := by
  simp only [groupExprs, Column.any_aggregate_respelled h, Column.plainExprs_respelled h]

theorem keepOrders_respelled {cs cs' : List Column} (h : Forall₂ Column.Respelled cs cs')
    (groups : List String) {orders orders' : List OrderTerm}
    (horders : Forall₂ OrderTerm.Respelled orders orders') :
    Forall₂ OrderTerm.Respelled (keepOrders cs groups orders) (keepOrders cs' groups orders') := by
  unfold keepOrders
  rw [Column.any_aggregate_respelled h, Column.all_aggregate_respelled h]
  split
  · exact .nil
  · split
    · exact horders
    · refine List.rel_filter (fun o o' ho => ?_) horders
      have hexpr : o.expr = o'.expr := ho
      simp [hexpr]

/-! ## Conditions

A condition does not depend on the dialect until it is written. Regular expressions are refused where
the dialect has none. -/

theorem filterOperands_concur (kind : ScalarKind) (f : Filter) :
    Concur d.Lacks d'.Lacks Eq (filterOperands d kind f) (filterOperands d' kind f) := by
  have hregexp : Concur d.Lacks d'.Lacks Eq
      (if (d.regexpParts? false).isNone then .error ⟨.unsupportedOperator, f.param⟩
        else .ok (.value (.text f.value)) : Except QueryError Operands)
      (if (d'.regexpParts? false).isNone then .error ⟨.unsupportedOperator, f.param⟩
        else .ok (.value (.text f.value))) := by
    simp only [Option.isNone_iff_eq_none, Dialect.regexpParts?_eq_none_iff]
    split
    · split
      · exact .same_error _
      · exact .left ⟨‹_›, rfl⟩
    · split
      · exact .right ⟨‹_›, rfl⟩
      · exact .ok rfl
  unfold filterOperands
  cases f.op with
  | regexp | nregexp => exact hregexp
  | _ => exact .refl (fun _ => rfl) _

theorem filterComparison_concur (f : Filter) :
    Concur d.Lacks d'.Lacks Eq (s.filterComparison d f) (s.filterComparison d' f) := by
  unfold filterComparison
  cases s.target? f.key with
  | none => exact .same_error _
  | some t =>
      refine (filterOperands_concur t.kind f).bind fun o o' ho => ?_
      rw [ho]
      exact .pure rfl

theorem filterComparisons_concur (fs : List Filter) :
    Concur d.Lacks d'.Lacks Eq (fs.mapM (s.filterComparison d))
      (fs.mapM (s.filterComparison d')) := by
  rw [← List.forall₂_eq_eq_eq]
  exact .mapM fun f _ => filterComparison_concur f

theorem conditions_concur (q : Query) :
    Concur d.Lacks d'.Lacks Eq (s.conditions d q) (s.conditions d' q) := by
  have hgroups : Concur d.Lacks d'.Lacks Eq
      (q.orGroups.mapM fun g => g.mapM (s.filterComparison d))
      (q.orGroups.mapM fun g => g.mapM (s.filterComparison d')) := by
    rw [← List.forall₂_eq_eq_eq]
    exact .mapM fun g _ => filterComparisons_concur g
  unfold conditions
  refine (filterComparisons_concur q.filters).bind fun filters _ hfilters => ?_
  refine hgroups.bind fun groups _ hgroups => ?_
  subst hfilters hgroups
  exact .refl (fun _ => rfl) _

end Schema

/-- A settled request in two dialects. -/
structure Resolved.Respelled (r r' : Resolved) : Prop where
  columns : Forall₂ Column.Respelled r.columns r'.columns
  conditions_eq : r.conditions = r'.conditions
  groups_eq : r.groups = r'.groups
  orders : Forall₂ OrderTerm.Respelled r.orders r'.orders
  strip_eq : r.strip = r'.strip

namespace Resolved.Respelled

variable {r r' : Resolved} (h : r.Respelled r')

include h

theorem exprs_eq : r.exprs = r'.exprs := by
  simp only [exprs, h.conditions_eq]

theorem rowExprs_eq (ordered : Bool) : r.rowExprs ordered = r'.rowExprs ordered := by
  have horders : (r.ordersIf ordered).map OrderTerm.expr =
      (r'.ordersIf ordered).map OrderTerm.expr := by
    cases ordered with
    | false => rfl
    | true => exact map_eq_of_forall₂ h.orders fun _ _ ho => ho
  simp only [rowExprs, Column.exprs_respelled h.columns, h.exprs_eq, h.groups_eq, horders]

theorem isGrouped_eq : r.isGrouped = r'.isGrouped := by
  simp only [isGrouped, Column.any_aggregate_respelled h.columns, h.groups_eq]

end Resolved.Respelled

theorem Schema.resolve_concur {s : Schema} {d d' : Dialect} (q : Query) (includes : List String) :
    Concur d.Lacks d'.Lacks Resolved.Respelled (s.resolve d q includes)
      (s.resolve d' q includes) := by
  unfold resolve
  refine (columns_concur q).bind fun selected selected' hselected => ?_
  refine (addTemplateColumns_concur hselected [] _).bind fun (cs, strip) (cs', strip') hcs => ?_
  obtain ⟨hcs, rfl⟩ := hcs
  refine (conditions_concur q).bind fun conditions _ hconditions => ?_
  subst hconditions
  rw [groupExprs_respelled hcs]
  refine (Concur.refl (fun _ => rfl) (s.groupExprs q cs')).bind fun groups _ hgroups => ?_
  subst hgroups
  refine (orderTerms_concur q).bind fun orders orders' horders => ?_
  exact .pure ⟨hcs, rfl, rfl, keepOrders_respelled hcs groups horders, rfl⟩

/-! ## What is bound -/

section Binding

variable (d d' : Dialect)

/-- Both conditions bind the same values in the same order. -/
def Predicate.BindsAlike (p p' : Predicate) : Prop :=
  Fragment.params (p.fragments d) = Fragment.params (p'.fragments d')

def Conjunct.BindsAlike (c c' : Conjunct) : Prop :=
  Fragment.params (c.fragments d) = Fragment.params (c'.fragments d')

def Join.BindsAlike (j j' : Join) : Prop :=
  Fragment.params (j.fragments d) = Fragment.params (j'.fragments d')

def Select.BindsAlike (t t' : Select) : Prop :=
  Fragment.params (t.fragments d) = Fragment.params (t'.fragments d')

def Count.BindsAlike (c c' : Count) : Prop :=
  Fragment.params (c.fragments d) = Fragment.params (c'.fragments d')

end Binding

section Written

variable {d d' : Dialect}

theorem Predicate.params_sides (lhs : String) (parts : String × String × String) (rhs : Fragment) :
    Fragment.params (sides lhs parts rhs) = Fragment.params [rhs] := by
  have hend : Fragment.params (if parts.2.2 = "" then [] else [.text parts.2.2]) = [] := by
    split <;> rfl
  rw [sides, Fragment.params_append, hend, List.append_nil]
  rfl

theorem Side.params_fragment (x : Side) (lowered lowered' : Bool) :
    Fragment.params [x.fragment d lowered] = Fragment.params [x.fragment d' lowered'] := by
  cases x <;> rfl

theorem Predicate.bindsAlike_refl (p : Predicate) : p.BindsAlike d d' p := by
  unfold BindsAlike
  cases p with
  | null lhs negated => simp [fragments]
  | member lhs negated values =>
      cases values with
      | nil => simp [fragments]
      | cons v vs => simp [fragments, Fragment.params_joinWith]
  | compare lhs op rhs =>
      simp only [fragments, params_sides]
      exact rhs.params_fragment _ _
  | regexp lhs parts rhs =>
      simp only [fragments, params_sides]
      exact rhs.params_fragment _ _

/-- However a regular expression is written, it binds its pattern. -/
theorem Predicate.bindsAlike_regexp (lhs : SqlTerm) (parts parts' : String × String × String)
    (rhs : Side) : Predicate.BindsAlike d d' (.regexp lhs parts rhs) (.regexp lhs parts' rhs) := by
  simp only [BindsAlike, fragments, params_sides]
  exact rhs.params_fragment _ _

theorem Fragment.params_flatMap_eq {α β : Type} {f : α → List Fragment} {g : β → List Fragment}
    {xs : List α} {ys : List β}
    (h : Forall₂ (fun x y => Fragment.params (f x) = Fragment.params (g y)) xs ys) :
    (xs.flatMap fun x => Fragment.params (f x)) = ys.flatMap fun y => Fragment.params (g y) := by
  rw [List.flatMap_def, List.flatMap_def, map_eq_of_forall₂ h fun _ _ hxy => hxy]

theorem Fragment.params_joinWith_eq {α β : Type} {f : α → List Fragment} {g : β → List Fragment}
    {xs : List α} {ys : List β}
    (h : Forall₂ (fun x y => Fragment.params (f x) = Fragment.params (g y)) xs ys)
    (sep sep' : String) :
    Fragment.params (Fragment.joinWith sep (xs.map f)) =
      Fragment.params (Fragment.joinWith sep' (ys.map g)) := by
  simp only [Fragment.params_joinWith, List.flatMap_map]
  exact Fragment.params_flatMap_eq h

theorem Conjunct.bindsAlike_any {ps ps' : List Predicate}
    (h : Forall₂ (Predicate.BindsAlike d d') ps ps') :
    Conjunct.BindsAlike d d' (.any ps) (.any ps') := by
  have hparts := Fragment.params_joinWith_eq h " OR " " OR "
  simp [BindsAlike, fragments, hparts]

theorem Conjunct.params_clause_eq {cs cs' : List Conjunct}
    (h : Forall₂ (Conjunct.BindsAlike d d') cs cs') :
    Fragment.params (clause d cs) = Fragment.params (clause d' cs') := by
  rw [params_clause, params_clause]
  exact Fragment.params_flatMap_eq h

def JoinHead.BindsAlike (d d' : Dialect) (h h' : JoinHead) : Prop :=
  Forall₂ (Predicate.BindsAlike d d') h.on h'.on

theorem JoinHead.BindsAlike.tail {h h' : JoinHead} (hon : h.BindsAlike d d' h') :
    Fragment.params (h.tail d) = Fragment.params (h'.tail d') := by
  have hparts := Fragment.params_joinWith_eq hon " AND " " AND "
  obtain ⟨_, _, on⟩ := h
  obtain ⟨_, _, on'⟩ := h'
  change Forall₂ _ on on' at hon
  cases hon with
  | nil => rfl
  | cons hp hps => simpa [JoinHead.tail] using hparts

theorem Join.params_fragmentsAll {joins joins' : List Join}
    (h : Forall₂ (Join.BindsAlike d d') joins joins') :
    Fragment.params (Join.fragmentsAll d joins) = Fragment.params (Join.fragmentsAll d' joins') := by
  induction h with
  | nil => simp [Join.fragmentsAll]
  | cons hj _ ih => rw [Join.fragmentsAll, Join.fragmentsAll, Fragment.params_append,
      Fragment.params_append, ih, show _ = _ from hj]

theorem Select.bindsAlike_mk {b b' : SelectBody} {joins joins' : List Join}
    (hjoins : Forall₂ (Join.BindsAlike d d') joins joins')
    (hconjuncts : Forall₂ (Conjunct.BindsAlike d d') b.conjuncts b'.conjuncts) :
    Select.BindsAlike d d' (.mk b joins) (.mk b' joins') := by
  simp only [BindsAlike, Select.fragments, SelectBody.opening, SelectBody.closing, tableSql,
    Fragment.params_append, Fragment.params_text, Fragment.params_nil, List.nil_append,
    List.cons_append, List.append_nil, Join.params_fragmentsAll hjoins,
    Conjunct.params_clause_eq hconjuncts]

theorem Count.bindsAlike_groups {t t' : Select} (h : t.BindsAlike d d' t') :
    Count.BindsAlike d d' (.groups t) (.groups t') := by
  have hparts : Fragment.params (t.fragments d) = Fragment.params (t'.fragments d') := h
  simp [BindsAlike, Count.fragments, hparts]

theorem Count.bindsAlike_rows {distinct distinct' : Option SqlTerm}
    {table table' asName asName' : String} {joins joins' : List Join}
    {conjuncts conjuncts' : List Conjunct}
    (hjoins : Forall₂ (Join.BindsAlike d d') joins joins')
    (hconjuncts : Forall₂ (Conjunct.BindsAlike d d') conjuncts conjuncts') :
    Count.BindsAlike d d' (.rows distinct table asName joins conjuncts)
      (.rows distinct' table' asName' joins' conjuncts') := by
  simp [BindsAlike, Count.fragments, tableSql, Join.params_fragmentsAll hjoins,
    Conjunct.params_clause_eq hconjuncts]

end Written

/-! ## Statements -/

namespace Comparison

variable {d d' : Dialect}

theorem withSide_concur (c : Comparison) (side : Side) :
    Concur d.Lacks d'.Lacks (Predicate.BindsAlike d d') (c.withSide d side)
      (c.withSide d' side) := by
  cases hop : comparator? c.op with
  | some op =>
      simp only [withSide, hop]
      exact .ok (Predicate.bindsAlike_refl _)
  | none =>
      cases hregexp : regexp? c.op with
      | none =>
          simp only [withSide, hop, hregexp]
          exact .same_error _
      | some negated =>
          simp only [withSide, hop, hregexp]
          cases hd : d.regexpParts? negated with
          | none =>
              have hlacks := Dialect.regexpParts?_eq_none_iff.mp hd
              cases d'.regexpParts? negated with
              | none => exact .same_error _
              | some parts => exact .left ⟨hlacks, rfl⟩
          | some parts =>
              cases hd' : d'.regexpParts? negated with
              | none => exact .right ⟨Dialect.regexpParts?_eq_none_iff.mp hd', rfl⟩
              | some parts' => exact .ok (Predicate.bindsAlike_regexp c.lhs parts parts' side)

theorem predicate_concur (c : Comparison) :
    Concur d.Lacks d'.Lacks (Predicate.BindsAlike d d') (c.predicate d) (c.predicate d') := by
  unfold predicate
  cases c.rhs with
  | null => cases nullTest? c.op <;> exact .refl Predicate.bindsAlike_refl _
  | list vs => cases membership? c.op <;> exact .refl Predicate.bindsAlike_refl _
  | value v =>
      cases membership? c.op with
      | some negated => exact .ok (Predicate.bindsAlike_refl _)
      | none => exact c.withSide_concur (.value v)
  | column t =>
      cases membership? c.op with
      | some negated => exact .same_error _
      | none => exact c.withSide_concur (.column t)

end Comparison

theorem Condition.conjunct_concur {d d' : Dialect} (c : Condition) :
    Concur d.Lacks d'.Lacks (Conjunct.BindsAlike d d') (c.conjunct d) (c.conjunct d') := by
  cases c with
  | one c => exact c.predicate_concur.map fun _ _ hp => hp
  | any cs =>
      refine (Concur.mapM fun c _ => c.predicate_concur).map fun ps ps' hps => ?_
      exact Conjunct.bindsAlike_any hps

namespace Schema

variable {s : Schema} {d d' : Dialect} {derived derived' : String → Except QueryError Select}

theorem joinHead_concur (r : Relation) :
    Concur d.Lacks d'.Lacks (JoinHead.BindsAlike d d') (joinHead d r) (joinHead d' r) := by
  unfold joinHead
  refine (Concur.mapM fun c _ => (clauseComparison c).predicate_concur).bind fun on on' hon => ?_
  exact .pure hon

section Derived

variable (hderived : ∀ name,
  Concur d.Lacks d'.Lacks (Select.BindsAlike d d') (derived name) (derived' name))

include hderived

theorem join_concur (r : Relation) :
    Concur d.Lacks d'.Lacks (Join.BindsAlike d d') (join d derived r) (join d' derived' r) := by
  unfold join
  cases r.source with
  | table name =>
      refine (joinHead_concur r).bind fun head head' hhead => .pure ?_
      simpa [Join.BindsAlike, Join.fragments] using hhead.tail
  | entity name =>
      refine (hderived name).bind fun t t' ht => ?_
      refine (joinHead_concur r).bind fun head head' hhead => .pure ?_
      have hparts : Fragment.params (t.fragments d) = Fragment.params (t'.fragments d') := ht
      simp [Join.BindsAlike, Join.fragments, hparts, hhead.tail]

theorem rowSelect_concur {r r' : Resolved} (h : r.Respelled r') (window : Option Window)
    (ordered : Bool) :
    Concur d.Lacks d'.Lacks (Select.BindsAlike d d') (s.rowSelect d derived r window ordered)
      (s.rowSelect d' derived' r' window ordered) := by
  unfold rowSelect
  rw [h.rowExprs_eq, h.conditions_eq]
  refine (Concur.mapM fun r _ => join_concur hderived r).bind fun joins joins' hjoins => ?_
  refine (Concur.mapM fun c _ => c.conjunct_concur).bind fun cs cs' hcs => ?_
  exact .pure (Select.bindsAlike_mk hjoins hcs)

theorem countSelect_concur {r r' : Resolved} (h : r.Respelled r') :
    Concur d.Lacks d'.Lacks (Count.BindsAlike d d') (s.countSelect d derived r)
      (s.countSelect d' derived' r') := by
  unfold countSelect
  rw [h.isGrouped_eq, h.exprs_eq, h.conditions_eq]
  split
  · exact (rowSelect_concur hderived h none false).map fun _ _ => Count.bindsAlike_groups
  · refine (Concur.mapM fun r _ => join_concur hderived r).bind fun joins joins' hjoins => ?_
    refine (Concur.mapM fun c _ => c.conjunct_concur).bind fun cs cs' hcs => ?_
    exact .pure (Count.bindsAlike_rows hjoins hcs)

theorem countIf_concur {r r' : Resolved} (h : r.Respelled r') (asked : Bool) :
    Concur d.Lacks d'.Lacks (Option.Rel (Count.BindsAlike d d')) (s.countIf d derived r asked)
      (s.countIf d' derived' r' asked) := by
  unfold countIf
  split
  · exact (countSelect_concur hderived h).map fun _ _ hc => .some hc
  · exact .ok .none

end Derived

end Schema

/-! ## Plans -/

/-- Plans in two dialects whose statements bind the same values in the same order, with the same
page, the same child lists and the same keys to take out again. -/
structure Plan.BindsAlike (d d' : Dialect) (p p' : Plan) : Prop where
  select_params : (p.selectStatement d).params = (p'.selectStatement d').params
  count_params : (p.countStatement? d).map Statement.params =
    (p'.countStatement? d').map Statement.params
  page_eq : p.page = p'.page
  perPage_eq : p.perPage = p'.perPage
  includes_eq : p.includes = p'.includes
  strip_eq : p.strip = p'.strip

theorem Plan.BindsAlike.withPage {d d' : Dialect} {p p' : Plan} (h : p.BindsAlike d d' p')
    (page perPage : UInt64) :
    Plan.BindsAlike d d' { p with page, perPage } { p' with page, perPage } := by
  obtain ⟨select, count, _, _, includes, strip⟩ := p
  obtain ⟨select', count', _, _, includes', strip'⟩ := p'
  exact ⟨h.select_params, h.count_params, rfl, rfl, h.includes_eq, h.strip_eq⟩

namespace Registry

variable {reg : Registry} {d d' : Dialect}

theorem derivedSelect_concur (depth : Nat) (name : String) :
    Concur d.Lacks d'.Lacks (Select.BindsAlike d d') (reg.derivedSelect d depth name)
      (reg.derivedSelect d' depth name) := by
  induction depth generalizing name with
  | zero => exact .same_error _
  | succ depth ih =>
      rw [derivedSelect, derivedSelect]
      cases reg.get? name with
      | none => exact .same_error _
      | some s =>
          refine (Schema.resolve_concur {} []).bind fun r r' hr => ?_
          exact Schema.rowSelect_concur ih hr none true

theorem plan_concur (s : Schema) (q : Query) (window : Option Window) :
    Concur d.Lacks d'.Lacks (Plan.BindsAlike d d') (reg.plan d s q window)
      (reg.plan d' s q window) := by
  have hderived (name : String) :
      Concur d.Lacks d'.Lacks (Select.BindsAlike d d') (reg.derivedSelect d reg.size name)
        (reg.derivedSelect d' reg.size name) := derivedSelect_concur reg.size name
  unfold plan
  refine (Concur.refl (fun _ => rfl) (includeKeys s q)).bind fun includes _ hincludes => ?_
  subst hincludes
  refine (Schema.resolve_concur q includes).bind fun r r' hr => ?_
  refine (Schema.rowSelect_concur hderived hr window true).bind fun t t' ht => ?_
  refine (Schema.countIf_concur hderived hr _).bind fun count count' hcount => .pure ?_
  refine ⟨ht, ?_, rfl, rfl, rfl, hr.strip_eq⟩
  cases hcount with
  | none => simp [Plan.countStatement?]
  | some hc => exact congrArg some hc

theorem compileAs_concur (s : Schema) (q : Query) (m : ReadMode) :
    Concur d.Lacks d'.Lacks (Plan.BindsAlike d d') (reg.compileAs d s q m)
      (reg.compileAs d' s q m) := by
  cases m with
  | page o => exact (plan_concur s q _).bind fun p p' hp => .pure (hp.withPage _ _)
  | all => exact plan_concur s q none
  | one id => exact plan_concur s _ none

/-- A request is compiled in two dialects to plans that bind the same values in the same order.
Where only one of them compiles it, the other one is the dialect without regular expressions, and
says so. What both refuse, they refuse with the same error, unless one of them says that. -/
theorem bindsAlike_of_dialects (reg : Registry) (s : Schema) (q : Query) (m : ReadMode)
    (d d' : Dialect) :
    (∀ p p', reg.compileAs d s q m = .ok p → reg.compileAs d' s q m = .ok p' →
      p.BindsAlike d d' p') ∧
    (∀ p e, reg.compileAs d s q m = .ok p → reg.compileAs d' s q m = .error e →
      d' = .sqlserver ∧ e.fault = .unsupportedOperator) ∧
    ∀ e e', reg.compileAs d s q m = .error e → reg.compileAs d' s q m = .error e' →
      e = e' ∨ d.Lacks e ∨ d'.Lacks e' := by
  have hconcur : Concur d.Lacks d'.Lacks (Plan.BindsAlike d d') (reg.compileAs d s q m)
      (reg.compileAs d' s q m) := compileAs_concur s q m
  refine ⟨fun p p' hp hp' => ?_, fun p e hp he => ?_, fun e e' he he' => ?_⟩
  · rw [hp, hp'] at hconcur
    cases hconcur with
    | ok h => exact h
  · rw [hp, he] at hconcur
    cases hconcur with
    | right h => exact h
  · rw [he, he'] at hconcur
    cases hconcur with
    | error h => exact h

end Registry

namespace Shop

/-- A request of every kind of condition, and the same one with a regular expression as well. -/
theorem request_bindsAlike :
    (∃ p p', registry.compileAs .postgres orders (request "null" "1,2" "x" "1.5" "foo")
        (.page ⟨10, 100⟩) = .ok p ∧
      registry.compileAs .sqlserver orders (request "null" "1,2" "x" "1.5" "foo")
        (.page ⟨10, 100⟩) = .ok p' ∧
      p.count.isSome ∧ p.BindsAlike .postgres .sqlserver p') ∧
    ∃ p e, registry.compileAs .clickhouse orders
        { filters := [⟨"title.$regexp", "title", .regexp, "^a"⟩] } .all = .ok p ∧
      registry.compileAs .sqlserver orders
        { filters := [⟨"title.$regexp", "title", .regexp, "^a"⟩] } .all = .error e ∧
      e.fault = .unsupportedOperator := by
  constructor
  · obtain ⟨p, hp, hcount⟩ := exists_eq_ok (x := registry.compileAs .postgres orders
      (request "null" "1,2" "x" "1.5" "foo") (.page ⟨10, 100⟩)) (p := fun p => p.count.isSome)
      (by decide +kernel)
    obtain ⟨p', hp', -⟩ := exists_eq_ok (x := registry.compileAs .sqlserver orders
      (request "null" "1,2" "x" "1.5" "foo") (.page ⟨10, 100⟩)) (p := fun _ => true)
      (by decide +kernel)
    exact ⟨p, p', hp, hp', hcount, (registry.bindsAlike_of_dialects orders _ _ _ _).1 p p' hp hp'⟩
  · obtain ⟨p, hp, -⟩ := exists_eq_ok (x := registry.compileAs .clickhouse orders
      { filters := [⟨"title.$regexp", "title", .regexp, "^a"⟩] } .all) (p := fun _ => true)
      (by decide +kernel)
    obtain ⟨e, he⟩ := exists_eq_error (x := registry.compileAs .sqlserver orders
      { filters := [⟨"title.$regexp", "title", .regexp, "^a"⟩] } .all) (by decide +kernel)
    obtain ⟨-, hlacks, -⟩ := registry.bindsAlike_of_dialects orders
      { filters := [⟨"title.$regexp", "title", .regexp, "^a"⟩] } .all .clickhouse .sqlserver
    exact ⟨p, e, hp, he, (hlacks p e hp he).2⟩

end Shop

end EntityRest

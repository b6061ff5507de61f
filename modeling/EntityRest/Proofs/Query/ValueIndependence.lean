import EntityRest.Proofs.Query.Plan
import EntityRest.Proofs.Schema.Registry
import EntityRest.Proofs.Sql.Fragment

/-! # Values stay out of SQL text

Two requests that differ only in the values of filters, search terms and the id lead to the same
text, if they agree on which values are NULL and on how many values a list has. -/

namespace EntityRest

open List (Forall₂)

/-! ## Requests -/

/-- Is the text the word for NULL? -/
def IsNullWord (s : String) : Prop := Text.lowerAscii s = "null"

instance : DecidablePred IsNullWord := fun _ => inferInstanceAs (Decidable (_ = "null"))

/-- Filters of one comparison. The values may differ, but where NULL is tested they are both NULL
or both not, and where a list is given they have equally many entries. -/
structure Filter.Alike (f g : Filter) : Prop where
  param_eq : f.param = g.param
  key_eq : f.key = g.key
  op_eq : f.op = g.op
  null_iff : f.op = .eq ∨ f.op = .ne → (IsNullWord f.value ↔ IsNullWord g.value)
  length_eq : f.op = .within ∨ f.op = .without →
    (Text.items f.value).length = (Text.items g.value).length

/-- Requests that are equal except for the values of their filters and the terms looked for. -/
structure Query.Alike (q q' : Query) : Prop where
  select_eq : q.select = q'.select
  group_eq : q.group = q'.group
  filters : Forall₂ Filter.Alike q.filters q'.filters
  orGroups : Forall₂ (Forall₂ Filter.Alike) q.orGroups q'.orGroups
  searches : Forall₂ (fun x y => x.fields = y.fields) q.searches q'.searches
  sort_eq : q.sort = q'.sort
  page_eq : q.page = q'.page
  perPage_eq : q.perPage = q'.perPage
  includes_eq : q.includes = q'.includes

/-- The same mode, with ids that are both the word for NULL or both not. -/
inductive ReadMode.Alike : ReadMode → ReadMode → Prop where
  | page (o) : Alike (.page o) (.page o)
  | all : Alike .all .all
  | one {id id'} (h : IsNullWord id ↔ IsNullWord id') : Alike (.one id) (.one id')

theorem ReadMode.Alike.query {m m' : ReadMode} (hm : m.Alike m') {q q' : Query} (hq : q.Alike q')
    (s : Schema) : (m.query s q).Alike (m'.query s q') := by
  cases hm with
  | page => exact hq
  | all => exact hq
  | @one id id' h =>
      have hkey : (s.keyFilter id).Alike (s.keyFilter id') :=
        ⟨rfl, rfl, rfl, fun _ => h, by simp [Schema.keyFilter]⟩
      exact { hq with
        filters := List.rel_append hq.filters (.cons hkey .nil)
        page_eq := rfl
        perPage_eq := rfl }

theorem ReadMode.Alike.window {m m' : ReadMode} (hm : m.Alike m') {q q' : Query}
    (hq : q.Alike q') : m.window q = m'.window q' := by
  cases hm with
  | page => simp only [ReadMode.window, Registry.pageSize, hq.page_eq, hq.perPage_eq]
  | all => rfl
  | one => rfl

/-! ## Comparisons -/

/-- Both are NULL or both are not. -/
def SqlValue.Alike (v w : SqlValue) : Prop := v.isNull = w.isNull

theorem SqlValue.Alike.text (s t : String) : (SqlValue.text s).Alike (.text t) := rfl

theorem isNull_of_sqlOfText? {k : ScalarKind} {s : String} {v : SqlValue}
    (h : k.sqlOfText? s = some v) : v.isNull = false := by
  obtain ⟨p, _, rfl⟩ := Option.map_eq_some_iff.mp h
  cases k <;> rfl

theorem alike_of_sqlOfText? {k : ScalarKind} {s t : String} {v w : SqlValue}
    (hv : k.sqlOfText? s = some v) (hw : k.sqlOfText? t = some w) : v.Alike w :=
  (isNull_of_sqlOfText? hv).trans (isNull_of_sqlOfText? hw).symm

inductive Operands.Alike : Operands → Operands → Prop where
  | null : Alike .null .null
  | value {v w} (h : v.Alike w) : Alike (.value v) (.value w)
  | list {vs ws} (h : Forall₂ SqlValue.Alike vs ws) : Alike (.list vs) (.list ws)
  | column (t) : Alike (.column t) (.column t)

structure Comparison.Alike (c c' : Comparison) : Prop where
  lhs_eq : c.lhs = c'.lhs
  op_eq : c.op = c'.op
  rhs : c.rhs.Alike c'.rhs
  param_eq : c.param = c'.param

inductive Condition.Alike : Condition → Condition → Prop where
  | one {c c'} (h : c.Alike c') : Alike (.one c) (.one c')
  | any {cs cs'} (h : Forall₂ Comparison.Alike cs cs') : Alike (.any cs) (.any cs')

theorem Condition.Alike.leftExprs_eq {c c' : Condition} (h : c.Alike c') :
    c.leftExprs = c'.leftExprs := by
  cases h with
  | one h => simp only [leftExprs, h.lhs_eq]
  | any h =>
      simp only [leftExprs]
      induction h with
      | nil => rfl
      | cons h _ ih => rw [List.map_cons, List.map_cons, h.lhs_eq, ih]

theorem Operands.Alike.refl (o : Operands) : o.Alike o := by
  cases o with
  | null => exact .null
  | value v => exact .value rfl
  | list vs => exact .list (List.forall₂_same.mpr fun v _ => rfl)
  | column t => exact .column t

theorem Comparison.Alike.refl (c : Comparison) : c.Alike c := ⟨rfl, rfl, .refl c.rhs, rfl⟩

namespace Schema

variable {d : Dialect} {s : Schema}

/-- Lists with as many entries are read as lists with as many values, none of them NULL. -/
theorem listValues?_alike {k : ScalarKind} {xs ys : List String} {vs ws : List SqlValue}
    (hlen : xs.length = ys.length) (hv : xs.mapM k.sqlOfText? = some vs)
    (hw : ys.mapM k.sqlOfText? = some ws) : Forall₂ SqlValue.Alike vs ws := by
  induction xs generalizing ys vs ws with
  | nil =>
      obtain rfl := List.length_eq_zero_iff.mp hlen.symm
      simp at hv hw
      subst hv hw
      exact .nil
  | cons x xs ih =>
      obtain ⟨y, ys, rfl⟩ := List.exists_cons_of_length_eq_add_one hlen.symm
      simp only [List.mapM_cons, Option.bind_eq_bind, Option.pure_def, Option.bind_eq_some_iff,
        Option.some.injEq] at hv hw
      obtain ⟨v, hx, vs, hxs, rfl⟩ := hv
      obtain ⟨w, hy, ws, hys, rfl⟩ := hw
      exact .cons (alike_of_sqlOfText? hx hy) (ih (by simpa using hlen) hxs hys)

theorem valueOperands_agree {k : ScalarKind} {f g : Filter} :
    Agree Operands.Alike (valueOperands k f) (valueOperands k g) := by
  intro o o' ho ho'
  unfold valueOperands at ho ho'
  split at ho <;> cases ho
  split at ho' <;> cases ho'
  exact .value (alike_of_sqlOfText? ‹_› ‹_›)

theorem listOperands_agree {k : ScalarKind} {f g : Filter}
    (hlen : (Text.items f.value).length = (Text.items g.value).length) :
    Agree Operands.Alike (listOperands k f) (listOperands k g) := by
  intro o o' ho ho'
  unfold listOperands at ho ho'
  split at ho <;> cases ho
  split at ho' <;> cases ho'
  exact .list (listValues?_alike hlen ‹_› ‹_›)

theorem filterOperands_agree {k : ScalarKind} {f g : Filter} (h : f.Alike g) :
    Agree Operands.Alike (filterOperands d k f) (filterOperands d k g) := by
  have text (v w : String) :
      Agree Operands.Alike (.ok (.value (.text v)) : Except QueryError Operands)
        (.ok (.value (.text w))) :=
    .ok (.value (.text v w))
  have null (hop : f.op = .eq ∨ f.op = .ne) :
      Agree Operands.Alike
        (if Text.lowerAscii f.value = "null" then .ok .null else valueOperands k f)
        (if Text.lowerAscii g.value = "null" then .ok .null else valueOperands k g) := by
    have hiff := h.null_iff hop
    unfold IsNullWord at hiff
    by_cases hf : Text.lowerAscii f.value = "null"
    · rw [if_pos hf, if_pos (hiff.mp hf)]
      exact .ok .null
    · rw [if_neg hf, if_neg (mt hiff.mpr hf)]
      exact valueOperands_agree
  unfold filterOperands
  rw [← h.op_eq]
  cases hop : f.op with
  | eq => exact null (.inl hop)
  | ne => exact null (.inr hop)
  | gt | gte | lt | lte => exact valueOperands_agree
  | like | nlike | ilike | nilike => exact text _ _
  | within => exact listOperands_agree (h.length_eq (.inl hop))
  | without => exact listOperands_agree (h.length_eq (.inr hop))
  | regexp | nregexp =>
      dsimp only
      split
      · exact .error_left
      · exact text _ _

theorem filterComparison_agree {f g : Filter} (h : f.Alike g) :
    Agree Comparison.Alike (s.filterComparison d f) (s.filterComparison d g) := by
  unfold filterComparison
  rw [← h.key_eq]
  cases s.target? f.key with
  | none => exact .error_left
  | some t =>
      refine (filterOperands_agree h).bind fun o o' ho => ?_
      exact .pure ⟨rfl, h.op_eq, ho, h.param_eq⟩

theorem searchComparison_agree (term term' key : String) :
    Agree Comparison.Alike (s.searchComparison term key) (s.searchComparison term' key) := by
  unfold searchComparison
  cases s.target? key with
  | none => exact .error_left
  | some t => exact .ok ⟨rfl, rfl, .value (.text _ _), rfl⟩

theorem search_agree {x y : Search} (h : x.fields = y.fields) :
    Agree (Forall₂ Comparison.Alike) (x.fields.mapM (s.searchComparison x.term))
      (y.fields.mapM (s.searchComparison y.term)) := by
  rw [h]
  refine Agree.mapM (List.forall₂_same.mpr fun key _ => rfl) fun key key' hkey => ?_
  subst hkey
  exact searchComparison_agree x.term y.term key

theorem conditions_agree {q q' : Query} (h : q.Alike q') :
    Agree (Forall₂ Condition.Alike) (s.conditions d q) (s.conditions d q') := by
  have static : Forall₂ Comparison.Alike (s.filters.map clauseComparison)
      (s.filters.map clauseComparison) := List.forall₂_same.mpr fun c _ => .refl c
  have one {cs cs' : List Comparison} (h : Forall₂ Comparison.Alike cs cs') :
      Forall₂ Condition.Alike (cs.map .one) (cs'.map .one) :=
    List.rel_map (fun _ _ hc => .one hc) h
  have any {cs cs' : List (List Comparison)} (h : Forall₂ (Forall₂ Comparison.Alike) cs cs') :
      Forall₂ Condition.Alike (cs.map .any) (cs'.map .any) :=
    List.rel_map (fun _ _ hc => .any hc) h
  unfold conditions
  refine (Agree.mapM h.filters fun _ _ => filterComparison_agree).bind fun cs cs' hcs => ?_
  refine (Agree.mapM h.orGroups fun _ _ hg =>
    Agree.mapM hg fun _ _ => filterComparison_agree).bind fun gs gs' hgs => ?_
  refine (Agree.mapM h.searches fun _ _ => search_agree).bind fun xs xs' hxs => ?_
  exact .pure (List.rel_append (List.rel_append (List.rel_append (one static) (one hcs))
    (any hgs)) (any hxs))

end Schema

/-! ## Statements -/

inductive Side.Alike : Side → Side → Prop where
  | value {v w} (h : v.Alike w) : Alike (.value v) (.value w)
  | column (t) : Alike (.column t) (.column t)

inductive Predicate.Alike : Predicate → Predicate → Prop where
  | null (lhs negated) : Alike (.null lhs negated) (.null lhs negated)
  | member (lhs negated) {vs ws} (h : Forall₂ SqlValue.Alike vs ws) :
      Alike (.member lhs negated vs) (.member lhs negated ws)
  | compare (lhs op) {x y} (h : x.Alike y) : Alike (.compare lhs op x) (.compare lhs op y)
  | regexp (lhs parts) {x y} (h : x.Alike y) : Alike (.regexp lhs parts x) (.regexp lhs parts y)

inductive Conjunct.Alike : Conjunct → Conjunct → Prop where
  | one {p p'} (h : p.Alike p') : Alike (.one p) (.one p')
  | any {ps ps'} (h : Forall₂ Predicate.Alike ps ps') : Alike (.any ps) (.any ps')

/-- The same statement but for the values in its conditions. -/
inductive Select.Alike : Select → Select → Prop where
  | mk (b joins) {cs} (h : Forall₂ Conjunct.Alike b.conjuncts cs) :
      Alike (.mk b joins) (.mk { b with conjuncts := cs } joins)

inductive Count.Alike : Count → Count → Prop where
  | groups {s s'} (h : s.Alike s') : Alike (.groups s) (.groups s')
  | rows (distinct table asName joins) {cs cs'} (h : Forall₂ Conjunct.Alike cs cs') :
      Alike (.rows distinct table asName joins cs) (.rows distinct table asName joins cs')

namespace Comparison

variable {d : Dialect}

theorem withSide_agree {c c' : Comparison} (h : c.Alike c') {x y : Side} (hxy : x.Alike y) :
    Agree Predicate.Alike (c.withSide d x) (c'.withSide d y) := by
  unfold withSide
  rw [← h.lhs_eq, ← h.op_eq, ← h.param_eq]
  split
  · exact .ok (.compare _ _ hxy)
  · split
    · exact .ok (.regexp _ _ hxy)
    · exact .error_left
  · exact .error_left

theorem predicate_agree {c c' : Comparison} (h : c.Alike c') :
    Agree Predicate.Alike (c.predicate d) (c'.predicate d) := by
  have side {x y : Side} (hxy : x.Alike y) := withSide_agree (d := d) h hxy
  obtain ⟨lhs, op, rhs, param⟩ := c
  obtain ⟨_, _, rhs', _⟩ := c'
  obtain ⟨rfl, rfl, hrhs, rfl⟩ := h
  cases hrhs with
  | null =>
      cases hop : nullTest? op with
      | none => simpa only [predicate, hop] using Agree.error_left
      | some negated => simpa only [predicate, hop] using Agree.ok (.null lhs negated)
  | list hvs =>
      cases hop : membership? op with
      | none => simpa only [predicate, hop] using Agree.error_left
      | some negated => simpa only [predicate, hop] using Agree.ok (.member lhs negated hvs)
  | value hvw =>
      cases hop : membership? op with
      | none => simpa only [predicate, hop] using side (.value hvw)
      | some negated =>
          simpa only [predicate, hop] using Agree.ok (.member lhs negated (.cons hvw .nil))
  | column t =>
      cases hop : membership? op with
      | none => simpa only [predicate, hop] using side (.column t)
      | some negated => simpa only [predicate, hop] using Agree.error_left

end Comparison

theorem Condition.conjunct_agree {d : Dialect} {c c' : Condition} (h : c.Alike c') :
    Agree Conjunct.Alike (c.conjunct d) (c'.conjunct d) := by
  cases h with
  | one h => exact (Comparison.predicate_agree h).map fun _ _ hp => .one hp
  | any h => exact (Agree.mapM h fun _ _ => Comparison.predicate_agree).map fun _ _ hp => .any hp

structure Resolved.Alike (r r' : Resolved) : Prop where
  columns_eq : r.columns = r'.columns
  conditions : Forall₂ Condition.Alike r.conditions r'.conditions
  groups_eq : r.groups = r'.groups
  orders_eq : r.orders = r'.orders
  strip_eq : r.strip = r'.strip

namespace Resolved.Alike

variable {r r' : Resolved} (h : r.Alike r')

include h

theorem exprs_eq : r.exprs = r'.exprs := by
  have left : r.conditions.map Condition.leftExprs = r'.conditions.map Condition.leftExprs := by
    rw [← List.forall₂_eq_eq_eq]
    exact List.rel_map (fun _ _ hc => hc.leftExprs_eq) h.conditions
  simp only [exprs, List.flatMap_def, left]

theorem rowExprs_eq (ordered : Bool) : r.rowExprs ordered = r'.rowExprs ordered := by
  simp only [rowExprs, ordersIf, h.columns_eq, h.exprs_eq, h.groups_eq, h.orders_eq]

theorem isGrouped_eq : r.isGrouped = r'.isGrouped := by
  simp only [isGrouped, h.columns_eq, h.groups_eq]

end Resolved.Alike

namespace Schema

variable {d : Dialect} {s : Schema} {derived : String → Except QueryError Select}

theorem resolve_agree {q q' : Query} (h : q.Alike q') (includes : List String) :
    Agree Resolved.Alike (s.resolve d q includes) (s.resolve d q' includes) := by
  have hcolumns : s.columns d q = s.columns d q' := by simp only [columns, h.select_eq]
  have hgroups (cs : List Column) : s.groupExprs q cs = s.groupExprs q' cs := by
    simp only [groupExprs, h.group_eq]
  have horders : s.orderTerms d q = s.orderTerms d q' := by simp only [orderTerms, h.sort_eq]
  unfold resolve
  rw [hcolumns, horders]
  refine .bind_same fun selected => .bind_same fun (cs, strip) => ?_
  refine (conditions_agree h).bind fun conds conds' hconds => ?_
  rw [hgroups]
  refine .bind_same fun groups => .bind_same fun orders => ?_
  exact .pure ⟨rfl, hconds, rfl, rfl, rfl⟩

theorem rowSelect_agree {r r' : Resolved} (h : r.Alike r') (window : Option Window)
    (ordered : Bool) :
    Agree Select.Alike (s.rowSelect d derived r window ordered)
      (s.rowSelect d derived r' window ordered) := by
  unfold rowSelect
  rw [h.rowExprs_eq]
  refine .bind_same fun joins => ?_
  refine (Agree.mapM h.conditions fun _ _ => Condition.conjunct_agree).bind fun cs cs' hcs => ?_
  simp only [Resolved.ordersIf, h.columns_eq, h.groups_eq, h.orders_eq]
  exact .pure (.mk ⟨_, _, _, cs, _, _, _⟩ joins hcs)

theorem countSelect_agree {r r' : Resolved} (h : r.Alike r') :
    Agree Count.Alike (s.countSelect d derived r) (s.countSelect d derived r') := by
  unfold countSelect
  rw [h.isGrouped_eq, h.exprs_eq]
  split
  · exact (rowSelect_agree h none false).map fun _ _ hs => .groups hs
  · refine .bind_same fun joins => ?_
    refine (Agree.mapM h.conditions fun _ _ => Condition.conjunct_agree).bind fun cs cs' hcs => ?_
    exact .pure (.rows _ _ _ joins hcs)

theorem countIf_agree {r r' : Resolved} (h : r.Alike r') (asked : Bool) :
    Agree (Option.Rel Count.Alike) (s.countIf d derived r asked)
      (s.countIf d derived r' asked) := by
  unfold countIf
  split
  · exact (countSelect_agree h).map fun _ _ hc => .some hc
  · exact .ok .none

end Schema

structure Plan.Alike (p p' : Plan) : Prop where
  select : p.select.Alike p'.select
  count : Option.Rel Count.Alike p.count p'.count
  includes_eq : p.includes = p'.includes
  strip_eq : p.strip = p'.strip

theorem Registry.plan_agree {reg : Registry} {d : Dialect} {s : Schema} {q q' : Query}
    (h : q.Alike q') (window : Option Window) :
    Agree Plan.Alike (reg.plan d s q window) (reg.plan d s q' window) := by
  have hincludes : includeKeys s q = includeKeys s q' := by
    simp only [includeKeys, h.includes_eq]
  have hpaginated : q.isPaginated = q'.isPaginated := by
    simp only [Query.isPaginated, h.page_eq, h.perPage_eq]
  unfold plan
  rw [hincludes, hpaginated]
  refine .bind_same fun includes => ?_
  refine (Schema.resolve_agree h includes).bind fun r r' hr => ?_
  refine (Schema.rowSelect_agree hr window true).bind fun sel sel' hsel => ?_
  refine (Schema.countIf_agree hr _).bind fun count count' hcount => ?_
  exact .pure ⟨hsel, hcount, rfl, hr.strip_eq⟩

/-! ## Text -/

theorem Fragment.alike_refl (fs : List Fragment) : Forall₂ Alike fs fs :=
  List.forall₂_same.mpr fun f _ => .refl f

theorem Fragment.alike_enclosed (before after : String) {fs gs : List Fragment}
    (h : Forall₂ Alike fs gs) :
    Forall₂ Alike ([.text before] ++ fs ++ [.text after])
      ([.text before] ++ gs ++ [.text after]) :=
  List.rel_append (.cons (.refl _) h) (alike_refl _)

theorem Side.Alike.fragment {x y : Side} (h : x.Alike y) (d : Dialect) (lowered : Bool) :
    (x.fragment d lowered).Alike (y.fragment d lowered) := by
  cases h with
  | value h => exact .bind h
  | column t => exact .refl _

theorem Predicate.sides_alike (lhs : String) (parts : String × String × String)
    {f g : Fragment} (h : f.Alike g) :
    Forall₂ Fragment.Alike (sides lhs parts f) (sides lhs parts g) :=
  List.rel_append (.cons (.refl _) (.cons h .nil)) (Fragment.alike_refl _)

theorem Predicate.Alike.fragments {p p' : Predicate} (h : p.Alike p') (d : Dialect) :
    Forall₂ Fragment.Alike (p.fragments d) (p'.fragments d) := by
  cases h with
  | null => exact Fragment.alike_refl _
  | member lhs negated h =>
      cases h with
      | nil => exact Fragment.alike_refl _
      | cons hv hvs =>
          refine Fragment.alike_enclosed _ _ (Fragment.Alike.joinWith "," ?_)
          exact List.rel_map (fun _ _ hv => .cons (.bind hv) .nil) (.cons hv hvs)
  | compare lhs op h => exact sides_alike _ _ (h.fragment d _)
  | regexp lhs parts h => exact sides_alike _ _ (h.fragment d _)

theorem Conjunct.Alike.fragments {c c' : Conjunct} (h : c.Alike c') (d : Dialect) :
    Forall₂ Fragment.Alike (c.fragments d) (c'.fragments d) := by
  cases h with
  | one h => exact h.fragments d
  | any h =>
      refine Fragment.alike_enclosed "(" ")" (Fragment.Alike.joinWith " OR " ?_)
      exact List.rel_map (fun _ _ hp => hp.fragments d) h

theorem Conjunct.clause_alike {cs cs' : List Conjunct} (h : Forall₂ Alike cs cs') (d : Dialect) :
    Forall₂ Fragment.Alike (clause d cs) (clause d cs') := by
  cases h with
  | nil => exact .nil
  | cons hc hcs =>
      refine .cons (.refl _) (Fragment.Alike.joinWith " AND " ?_)
      exact List.rel_map (fun _ _ hc => hc.fragments d) (.cons hc hcs)

theorem Select.Alike.fragments {s s' : Select} (h : s.Alike s') (d : Dialect) :
    Forall₂ Fragment.Alike (s.fragments d) (s'.fragments d) := by
  cases h with
  | mk b joins hcs =>
      simp only [Select.fragments, SelectBody.closing]
      refine List.rel_append (List.rel_append (Fragment.alike_refl _) (Fragment.alike_refl _)) ?_
      exact List.rel_append (Conjunct.clause_alike hcs d) (Fragment.alike_refl _)

theorem Count.Alike.fragments {c c' : Count} (h : c.Alike c') (d : Dialect) :
    Forall₂ Fragment.Alike (c.fragments d) (c'.fragments d) := by
  cases h with
  | groups h => exact .cons (.refl _) (List.rel_append (h.fragments d) (Fragment.alike_refl _))
  | rows distinct table asName joins hcs =>
      exact List.rel_append (Fragment.alike_refl _) (Conjunct.clause_alike hcs d)

/-- What is fixed of two plans before any value is bound: their texts, how many parameters these
take, the child lists and the keys that are taken out again. -/
structure Plan.SameText (d : Dialect) (p p' : Plan) : Prop where
  select_sql : (p.selectStatement d).sql = (p'.selectStatement d).sql
  select_params : (p.selectStatement d).params.length = (p'.selectStatement d).params.length
  count_sql : (p.countStatement? d).map Statement.sql = (p'.countStatement? d).map Statement.sql
  count_params : (p.countStatement? d).map (·.params.length) =
    (p'.countStatement? d).map (·.params.length)
  includes_eq : p.includes = p'.includes
  strip_eq : p.strip = p'.strip

theorem Plan.Alike.sameText {p p' : Plan} (h : p.Alike p') (d : Dialect) : p.SameText d p' := by
  obtain ⟨hselect, hcount, hincludes, hstrip⟩ := h
  have fragments := hselect.fragments d
  refine ⟨Fragment.Alike.statement_sql_eq d fragments, Fragment.Alike.params_length fragments,
    ?_, ?_, hincludes, hstrip⟩
  all_goals
    simp only [countStatement?]
    generalize p.count = c at hcount ⊢
    generalize p'.count = c' at hcount ⊢
    cases hcount with
    | none => rfl
    | some hc => ?_
  · exact congrArg some (Fragment.Alike.statement_sql_eq d (hc.fragments d))
  · exact congrArg some (Fragment.Alike.params_length (hc.fragments d))

/-- The values of filters and searches and the id have no influence on SQL text. -/
theorem Registry.sameText_of_alike (reg : Registry) (d : Dialect) (s : Schema) {q q' : Query}
    (hq : q.Alike q') {m m' : ReadMode} (hm : m.Alike m') {p p' : Plan}
    (hp : reg.compileAs d s q m = .ok p) (hp' : reg.compileAs d s q' m' = .ok p') :
    p.SameText d p' := by
  obtain ⟨page, perPage, hplan⟩ := plan_of_compileAs hp
  obtain ⟨page', perPage', hplan'⟩ := plan_of_compileAs hp'
  rw [← hm.window hq] at hplan'
  obtain ⟨hselect, hcount, hincludes, hstrip⟩ :=
    plan_agree (hm.query hq s) _ _ _ hplan hplan'
  have h : p.Alike p' := ⟨hselect, hcount, hincludes, hstrip⟩
  exact h.sameText d

namespace Shop

theorem request_alike :
    (request "null" "1,2" "x" "1.5" "foo").Alike (request "NULL" " 7 ,, 9" "'; --" "2" "%") where
  select_eq := rfl
  group_eq := rfl
  filters := by
    refine .cons ⟨rfl, rfl, rfl, fun _ => by decide +kernel, by simp⟩ ?_
    refine .cons ⟨rfl, rfl, rfl, by simp, fun _ => by decide +kernel⟩ ?_
    exact .cons ⟨rfl, rfl, rfl, fun _ => by decide +kernel, by simp⟩ .nil
  orGroups := .cons (.cons ⟨rfl, rfl, rfl, by simp, by simp⟩
    (.cons ⟨rfl, rfl, rfl, by simp, by simp⟩ .nil)) .nil
  searches := .cons rfl .nil
  sort_eq := rfl
  page_eq := rfl
  perPage_eq := rfl
  includes_eq := rfl

theorem sameText_request :
    ∃ p p',
      registry.compileAs .postgres orders (request "null" "1,2" "x" "1.5" "foo")
        (.page ⟨10, 100⟩) = .ok p ∧
      registry.compileAs .postgres orders (request "NULL" " 7 ,, 9" "'; --" "2" "%")
        (.page ⟨10, 100⟩) = .ok p' ∧
      p.SameText .postgres p' := by
  obtain ⟨p, hp, -⟩ := exists_eq_ok (x := registry.compileAs .postgres orders
    (request "null" "1,2" "x" "1.5" "foo") (.page ⟨10, 100⟩)) (p := fun _ => true)
    (by decide +kernel)
  obtain ⟨p', hp', -⟩ := exists_eq_ok (x := registry.compileAs .postgres orders
    (request "NULL" " 7 ,, 9" "'; --" "2" "%") (.page ⟨10, 100⟩)) (p := fun _ => true)
    (by decide +kernel)
  exact ⟨p, p', hp, hp', registry.sameText_of_alike .postgres orders request_alike (.page _) hp hp'⟩

end Shop

end EntityRest

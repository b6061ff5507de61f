import EntityRest.Proofs.Query.Order
import EntityRest.Proofs.Query.ValueIndependence
import EntityRest.Proofs.Query.Where
import EntityRest.Proofs.Text.Split

/-! # Filters by the key of a field

A parameter that is named by the key of a field asks for rows in which the field has the value that
the text means. The condition binds that value, unless the text is the word for NULL. -/

namespace EntityRest

open List (Forall₂)

/-! ## Conditions on a field -/

namespace Field

/-- The field is equal to a value, which is bound. -/
def isValue (d : Dialect) (f : Field) (w : SqlValue) : List Fragment :=
  [.text (Expr.render d f.expr ++ "="), .value w]

def isNull (d : Dialect) (f : Field) : List Fragment := [.text (Expr.render d f.expr ++ " IS NULL")]

end Field

/-- The condition is a member of the conjunction of the statement. -/
def Select.Requires (d : Dialect) (t : Select) (fs : List Fragment) : Prop :=
  fs ∈ t.body.conjuncts.map (Conjunct.fragments d)

instance (d : Dialect) (t : Select) (fs : List Fragment) : Decidable (t.Requires d fs) :=
  inferInstanceAs (Decidable (_ ∈ List.map _ _))

/-- The statement requires that the field has the value which a text means, and binds that value. -/
def Select.Binds (d : Dialect) (t : Select) (f : Field) (text : String) : Prop :=
  ∃ w, f.kind.sqlOfText? text = some w ∧ t.Requires d (f.isValue d w)

/-- Neither a reserved parameter nor one with an operator. -/
structure IsPlainParam (k : String) : Prop where
  ne : k ≠ ""
  not_reserved : Text.startsWith "$" k = false
  no_operator : ¬ ".$".toList <:+: k.toList

theorem IsPlainParam.ne_reserved {k name : String} (hk : IsPlainParam k)
    (hname : Text.startsWith "$" name = true) : k ≠ name := by
  rintro rfl
  cases hk.not_reserved.symm.trans hname

namespace Filter

/-- The filter of a parameter without an operator. -/
def ofKey (k text : String) : Filter := ⟨k, k, .eq, text⟩

theorem ofPair_eq_ofKey {k : String} (hk : IsPlainParam k) (text : String) :
    ofPair k text = .ok (ofKey k text) := by
  rw [ofPair, Text.cutLast?_eq_none hk.no_operator]
  simp [hk.ne, hk.not_reserved, ofKey, pure_bind]
  rfl

end Filter

namespace Query

open Pairs

variable {k text : String} {pre post : Pairs} {q q' : Query}

theorem addPair_eq_ofKey (hk : IsPlainParam k) (q : Query) (text : String) :
    addPair q (k, text) = .ok { q with filters := q.filters ++ [Filter.ofKey k text] } := by
  simp only [addPair]
  split
  case h_9 =>
    rw [if_neg (by simp [hk.not_reserved]), Filter.ofPair_eq_ofKey hk]
    rfl
  all_goals exact absurd rfl (hk.ne_reserved (by decide))

theorem ofKey_mem_filters (hk : IsPlainParam k) {ps : Pairs} (h : ofPairs ps = .ok q)
    (hmem : (k, text) ∈ ps) : Filter.ofKey k text ∈ q.filters := by
  have hplain : (k, text) ∈ plain ps := List.mem_filter.mpr ⟨hmem, by simp [hk.not_reserved]⟩
  have hfilters := mapM_eq_ok.mp (takenFrom_of_ofPairs h).filters
  obtain ⟨f, hf, hread⟩ := exists_of_mem_left hfilters hplain
  exact Except.ok.inj ((Filter.ofPair_eq_ofKey hk text).symm.trans hread) ▸ hf

theorem exists_ofPairs_replace (hk : IsPlainParam k) {other : String}
    (h : ofPairs (pre ++ (k, other) :: post) = .ok q) (text : String) :
    ∃ fs gs, q.filters = fs ++ Filter.ofKey k other :: gs ∧ ofPairs (pre ++ (k, text) :: post) =
      .ok { q with filters := fs ++ Filter.ofKey k text :: gs } := by
  have htaken := takenFrom_of_ofPairs h
  have hplain (x : String) :
      plain (pre ++ (k, x) :: post) = plain pre ++ (k, x) :: plain post := by
    have hcons : plain ((k, x) :: post) = (k, x) :: plain post :=
      List.filter_cons_of_pos (by simp [hk.not_reserved])
    rw [← hcons]
    exact List.filter_append ..
  obtain ⟨fs, gs', hsplit, hfs, hrest⟩ :=
    exists_append_of_forall₂ (mapM_eq_ok.mp (hplain other ▸ htaken.filters))
  obtain ⟨g, gs, hother, hgs, rfl⟩ := List.forall₂_cons_left_iff.mp hrest
  obtain rfl := Except.ok.inj ((Filter.ofPair_eq_ofKey hk other).symm.trans hother)
  refine ⟨fs, gs, hsplit, ?_⟩
  -- the other parts of the request come from parameters of reserved names
  have hvalues {name : String} (hname : Text.startsWith "$" name = true) :
      valuesOf name (pre ++ (k, text) :: post) = valuesOf name (pre ++ (k, other) :: post) := by
    simp only [valuesOf_append, valuesOf_cons, if_neg (hk.ne_reserved hname)]
  have hmore : TakenFrom (pre ++ (k, text) :: post)
      { q with filters := fs ++ Filter.ofKey k text :: gs } := by
    constructor
    case filters =>
      rw [hplain]
      exact mapM_eq_ok.mpr (List.rel_append hfs (.cons (Filter.ofPair_eq_ofKey hk text) hgs))
    all_goals simp (disch := decide) only [hvalues]
    · exact htaken.select
    · exact htaken.group
    · exact htaken.orGroups
    · exact htaken.searches
    · exact htaken.sort
    · exact htaken.page
    · exact htaken.perPage
    · exact htaken.includes
  obtain ⟨q₁, hq₁⟩ : ∃ q₁, ofPairs (pre ++ (k, text) :: post) = .ok q₁ := by
    have hall := (exists_foldlM_iff {}).mp ⟨q, h⟩
    refine (exists_foldlM_iff {}).mpr fun p hp => ?_
    rw [List.mem_append, List.mem_cons] at hp
    rcases hp with hp | rfl | hp
    · exact hall p (List.mem_append_left _ hp)
    · exact ⟨_, addPair_eq_ofKey hk {} text⟩
    · exact hall p (List.mem_append_right _ (List.mem_cons_of_mem _ hp))
  rw [hq₁, (takenFrom_of_ofPairs hq₁).unique hmore]

end Query

namespace Schema

variable {d : Dialect} {s : Schema} {f : Field} {k text : String}

theorem filterComparison_ofKey (hf : s.field? k = some f) :
    s.filterComparison d (Filter.ofKey k text) =
      (if IsNullWord text then .ok .null else valueOperands f.kind (Filter.ofKey k text)).map
        fun rhs => ⟨.plain f.expr, .eq, rhs, k⟩ := by
  have htarget : s.target? k = some ⟨.plain f.expr, f.kind⟩ := by rw [target?, hf]
  simp only [filterComparison, Filter.ofKey, htarget, filterOperands, IsNullWord]
  rfl

/-- A filter by a key is refused exactly where its text is neither the word for NULL nor a value. -/
theorem filterComparison_ofKey_error (hf : s.field? k = some f) (hword : ¬ IsNullWord text)
    (hvalue : f.kind.sqlOfText? text = none) :
    s.filterComparison d (Filter.ofKey k text) = .error ⟨.invalidValue, k⟩ := by
  have hnone : f.kind.sqlOfText? (Filter.ofKey k text).value = none := hvalue
  rw [filterComparison_ofKey hf, if_neg hword, valueOperands, hnone]
  rfl

theorem filterComparison_ofKey_ok (hf : s.field? k = some f) (hword : ¬ IsNullWord text)
    {w : SqlValue} (hvalue : f.kind.sqlOfText? text = some w) :
    s.filterComparison d (Filter.ofKey k text) = .ok ⟨.plain f.expr, .eq, .value w, k⟩ := by
  have hsome : f.kind.sqlOfText? (Filter.ofKey k text).value = some w := hvalue
  rw [filterComparison_ofKey hf, if_neg hword, valueOperands, hsome]
  rfl

theorem lhs_of_ofKey (hf : s.field? k = some f) {c : Comparison}
    (hc : s.filterComparison d (Filter.ofKey k text) = .ok c) : c.lhs = .plain f.expr := by
  rw [filterComparison_ofKey hf] at hc
  obtain ⟨_, -, rfl⟩ := map_eq_ok.mp hc
  rfl

/-- Its condition tests for NULL or binds the value. -/
theorem fragments_of_ofKey (hf : s.field? k = some f) {c : Comparison} {p : Predicate}
    (hc : s.filterComparison d (Filter.ofKey k text) = .ok c) (hp : c.predicate d = .ok p) :
    (IsNullWord text ∧ p.fragments d = f.isNull d) ∨
      (¬ IsNullWord text ∧
        ∃ w, f.kind.sqlOfText? text = some w ∧ p.fragments d = f.isValue d w) := by
  rw [filterComparison_ofKey hf] at hc
  obtain ⟨rhs, hrhs, rfl⟩ := map_eq_ok.mp hc
  by_cases hword : IsNullWord text
  · rw [if_pos hword] at hrhs
    cases hrhs
    cases hp
    exact .inl ⟨hword, rfl⟩
  · rw [if_neg hword, valueOperands] at hrhs
    split at hrhs
    · rename_i w hw
      cases hrhs
      cases hp
      refine .inr ⟨hword, w, hw, ?_⟩
      have hbind : Fragment.bind w = .value w := by
        rw [Fragment.bind, isNull_of_sqlOfText? hw]
        rfl
      simp [Predicate.fragments, Predicate.sides, Comparator.parts, Side.fragment, hbind,
        Field.isValue, SqlTerm.sql]
    · cases hrhs

section Replace

variable {q : Query} {includes : List String} {r : Resolved} {fs gs : List Filter} {x y : Filter}

theorem resolve_replace_error {e : QueryError} (h : s.resolve d q includes = .ok r)
    (hsplit : q.filters = fs ++ x :: gs) (hy : s.filterComparison d y = .error e) :
    s.resolve d { q with filters := fs ++ y :: gs } includes = .error e := by
  obtain ⟨selected, columns, strip, conditions, -, -, hcolumns, htemplate, hconditions, -⟩ :=
    resolve_eq_ok.mp h
  obtain ⟨cs, -, -, hcs, -⟩ := conditions_eq_ok.mp hconditions
  obtain ⟨us, _, -, hus, -⟩ := exists_append_of_forall₂ (hsplit ▸ hcs)
  have herror : s.conditions d { q with filters := fs ++ y :: gs } = .error e :=
    bind_eq_error.mpr (.inl (mapM_append_cons_eq_error (mapM_eq_ok.mpr hus) hy gs))
  refine bind_eq_error.mpr (.inr ⟨selected, hcolumns, ?_⟩)
  exact bind_eq_error.mpr (.inr ⟨(columns, strip), htemplate, bind_eq_error.mpr (.inl herror)⟩)

/-- Another filter in its place changes one condition. -/
theorem conditions_replace {cs : List Condition} (h : s.conditions d q = .ok cs)
    (hsplit : q.filters = fs ++ x :: gs) {b : Comparison} (hy : s.filterComparison d y = .ok b) :
    ∃ a us vs, s.filterComparison d x = .ok a ∧ cs = us ++ .one a :: vs ∧
      s.conditions d { q with filters := fs ++ y :: gs } = .ok (us ++ .one b :: vs) := by
  obtain ⟨filters, groups, searches, hfilters, hgroups, hsearches, rfl⟩ := conditions_eq_ok.mp h
  obtain ⟨us, vs', rfl, hus, hrest⟩ := exists_append_of_forall₂ (hsplit ▸ hfilters)
  obtain ⟨a, vs, hx, hvs, rfl⟩ := List.forall₂_cons_left_iff.mp hrest
  refine ⟨a, (s.filters.map clauseComparison).map .one ++ us.map .one,
    vs.map .one ++ groups.map .any ++ searches.map .any, hx, by simp, ?_⟩
  refine conditions_eq_ok.mpr ⟨us ++ b :: vs, groups, searches, ?_, hgroups, hsearches, by simp⟩
  exact List.rel_append hus (.cons hy hvs)

theorem resolve_replace (h : s.resolve d q includes = .ok r) (hsplit : q.filters = fs ++ x :: gs)
    {b : Comparison} (hy : s.filterComparison d y = .ok b) :
    ∃ a us vs, s.filterComparison d x = .ok a ∧ r.conditions = us ++ .one a :: vs ∧
      s.resolve d { q with filters := fs ++ y :: gs } includes =
        .ok { r with conditions := us ++ .one b :: vs } := by
  obtain ⟨selected, columns, strip, conditions, groups, orders, hselected, hcolumns, hconditions,
    hgroups, horders, rfl⟩ := resolve_eq_ok.mp h
  obtain ⟨a, us, vs, hx, hcs, hreplaced⟩ := conditions_replace hconditions hsplit hy
  refine ⟨a, us, vs, hx, hcs, resolve_eq_ok.mpr ?_⟩
  exact ⟨selected, columns, strip, _, groups, orders, hselected, hcolumns, hreplaced, hgroups,
    horders, rfl⟩

theorem exists_rowSelect_replace {derived : String → Except QueryError Select}
    {window : Option Window} {ordered : Bool} {sel : Select}
    (h : s.rowSelect d derived r window ordered = .ok sel) {us vs : List Condition}
    {a b : Comparison} (hsplit : r.conditions = us ++ .one a :: vs) (hlhs : a.lhs = b.lhs)
    {p : Predicate} (hb : b.predicate d = .ok p) :
    ∃ sel', s.rowSelect d derived { r with conditions := us ++ .one b :: vs } window ordered =
      .ok sel' := by
  obtain ⟨joins, conjuncts, hjoins, hconjuncts, -⟩ := rowSelect_eq_ok.mp h
  obtain ⟨front, rest, -, hfront, hrest⟩ := exists_append_of_forall₂ (hsplit ▸ hconjuncts)
  obtain ⟨-, back, -, hback, -⟩ := List.forall₂_cons_left_iff.mp hrest
  have hexprs : Resolved.rowExprs { r with conditions := us ++ .one b :: vs } ordered =
      r.rowExprs ordered := by
    simp only [Resolved.rowExprs, Resolved.exprs, Resolved.ordersIf, hsplit, List.flatMap_append,
      List.flatMap_cons, Condition.leftExprs, hlhs]
  have hone : Condition.conjunct d (.one b) = .ok (.one p) := map_eq_ok.mpr ⟨p, hb, rfl⟩
  refine ⟨_, rowSelect_eq_ok.mpr ⟨joins, front ++ .one p :: back, hexprs ▸ hjoins, ?_, rfl⟩⟩
  exact List.rel_append hfront (.cons hone hback)

end Replace

end Schema

namespace Registry

variable {reg : Registry} {d : Dialect} {s : Schema} {q : Query} {f : Field} {k text : String}

theorem count_of_compileAll {p : Plan} (h : reg.compileAll d s q = .ok p) : p.count = none := by
  obtain ⟨_, _, _, count, -, -, -, hcount, rfl⟩ := plan_eq_ok.mp h
  rcases Schema.countIf_eq_ok.mp hcount with ⟨hasked, -⟩ | ⟨-, hnone⟩
  · cases hasked
  · exact hnone

section Replace

variable {p : Plan} {fs gs : List Filter} {other : String}

/-- Where a request can be compiled with some text of a field, it is refused with one that is
neither the word for NULL nor a value. -/
theorem compileAll_replace_error (h : reg.compileAll d s q = .ok p)
    (hsplit : q.filters = fs ++ Filter.ofKey k other :: gs) (hf : s.field? k = some f)
    (hword : ¬ IsNullWord text) (hvalue : f.kind.sqlOfText? text = none) :
    reg.compileAll d s { q with filters := fs ++ Filter.ofKey k text :: gs } =
      .error ⟨.invalidValue, k⟩ := by
  obtain ⟨includes, r, -, -, hincludes, hr, -⟩ := plan_eq_ok.mp h
  have hrefused := Schema.filterComparison_ofKey_error (d := d) hf hword hvalue
  refine bind_eq_error.mpr (.inr ⟨includes, hincludes, ?_⟩)
  exact bind_eq_error.mpr (.inl (Schema.resolve_replace_error hr hsplit hrefused))

/-- Where a request can be compiled with some text of a field, it can be with one that means a
value. -/
theorem exists_compileAll_replace (h : reg.compileAll d s q = .ok p)
    (hsplit : q.filters = fs ++ Filter.ofKey k other :: gs) (hf : s.field? k = some f)
    (hword : ¬ IsNullWord text) {w : SqlValue} (hvalue : f.kind.sqlOfText? text = some w) :
    ∃ p', reg.compileAll d s { q with filters := fs ++ Filter.ofKey k text :: gs } = .ok p' := by
  obtain ⟨includes, r, select, -, hincludes, hr, hselect, -, -⟩ := plan_eq_ok.mp h
  have hread := Schema.filterComparison_ofKey_ok (d := d) hf hword hvalue
  obtain ⟨a, us, vs, ha, hconditions, hresolved⟩ := Schema.resolve_replace hr hsplit hread
  obtain ⟨condition, hcondition⟩ :
      ∃ c, Comparison.predicate d ⟨.plain f.expr, .eq, .value w, k⟩ = .ok c := ⟨_, rfl⟩
  obtain ⟨select', hselect'⟩ :=
    Schema.exists_rowSelect_replace hselect hconditions (Schema.lhs_of_ofKey hf ha) hcondition
  exact ⟨_, plan_eq_ok.mpr ⟨includes, _, select', none, hincludes, hresolved, hselect', rfl, rfl⟩⟩

end Replace

/-- A statement that reads a filter by a key requires its condition. -/
theorem Reads.requires_ofKey {t : Select} (h : reg.Reads d s q t) (hf : s.field? k = some f)
    (hmem : Filter.ofKey k text ∈ q.filters) :
    (IsNullWord text ∧ t.Requires d (f.isNull d)) ∨ (¬ IsNullWord text ∧ t.Binds d f text) := by
  obtain ⟨cs, hconditions, hconjuncts⟩ := h.exists_conditions
  obtain ⟨filters, groups, searches, hfilters, -, -, rfl⟩ :=
    Schema.conditions_eq_ok.mp hconditions
  obtain ⟨c, hcmem, hc⟩ := exists_of_mem_left hfilters hmem
  obtain ⟨conjunct, hconjunct, hone⟩ := exists_of_mem_left hconjuncts (x := .one c) (by
    simp only [List.mem_append, List.mem_map]
    exact .inl (.inl (.inr ⟨c, hcmem, rfl⟩)))
  obtain ⟨p, hp, rfl⟩ := map_eq_ok.mp hone
  have hrequires : t.Requires d (p.fragments d) := List.mem_map_of_mem hconjunct
  refine (Schema.fragments_of_ofKey hf hc hp).imp ?_ ?_
  · rintro ⟨hword, heq⟩
    exact ⟨hword, heq ▸ hrequires⟩
  · rintro ⟨hword, w, hw, heq⟩
    exact ⟨hword, w, hw, heq ▸ hrequires⟩

end Registry

end EntityRest

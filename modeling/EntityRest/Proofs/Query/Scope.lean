import EntityRest.Proofs.Query.Join
import EntityRest.Proofs.Query.Resolve
import EntityRest.Proofs.Query.Statements
import EntityRest.Proofs.Schema.Expr
import EntityRest.Proofs.Schema.Registry

/-! # Aliases in scope

Which aliases the parts of a statement use, and which of them are sure to be joined: those of all
expressions that decide about the joins, but not those on the right of a static filter. -/

namespace EntityRest

open List (Forall₂)

/-! ## Expressions of statements -/

def Side.exprs : Side → List String
  | value _ => []
  | column t => [t.expr]

namespace Predicate

/-- The expression on the left. -/
def leftExpr : Predicate → String
  | null lhs _ | member lhs _ _ | compare lhs _ _ | regexp lhs _ _ => lhs.expr

/-- The expression on the right, if there is one. -/
def rightExprs : Predicate → List String
  | null _ _ | member _ _ _ => []
  | compare _ _ rhs | regexp _ _ rhs => rhs.exprs

def exprs (p : Predicate) : List String := p.leftExpr :: p.rightExprs

end Predicate

def Conjunct.predicates : Conjunct → List Predicate
  | one p => [p]
  | any ps => ps

def Condition.comparisons : Condition → List Comparison
  | one c => [c]
  | any cs => cs

def Operands.exprs : Operands → List String
  | null | value _ | list _ => []
  | column t => [t.expr]

/-! ## Scopes -/

/-- A statement without those nested in it: its own alias with those it joins, the expressions that
decide about the joins or stand in their conditions, and the other expressions. -/
structure Scope where
  asNames : List String
  heeded : List String
  unheeded : List String
deriving DecidableEq

namespace Scope

def exprs (sc : Scope) : List String := sc.heeded ++ sc.unheeded

/-- Every alias that is used is there. -/
def Closed (sc : Scope) : Prop := Schema.Covers sc.asNames sc.exprs

instance (sc : Scope) : Decidable sc.Closed :=
  inferInstanceAs (Decidable (∀ e ∈ sc.exprs, ∀ a ∈ Expr.aliases e, a ∈ sc.asNames))

end Scope

def leftExprs (cs : List Conjunct) : List String :=
  (cs.flatMap Conjunct.predicates).map Predicate.leftExpr

def rightExprs (cs : List Conjunct) : List String :=
  (cs.flatMap Conjunct.predicates).flatMap Predicate.rightExprs

def onExprs (joins : List Join) : List String :=
  joins.flatMap fun j => j.head.on.flatMap Predicate.exprs

def joinNames (joins : List Join) : List String := joins.map fun j => j.head.asName

def Select.scope : Select → Scope
  | .mk b joins =>
    { asNames := b.asName :: joinNames joins
      heeded := b.columns.map Column.expr ++ leftExprs b.conjuncts ++ b.groups ++
        b.orders.map OrderTerm.expr ++ onExprs joins
      unheeded := rightExprs b.conjuncts }

/-- The scope of a count of rows. Groups are counted as the rows of another statement. -/
def Count.scope? : Count → Option Scope
  | .groups _ => none
  | .rows distinct _ asName joins conjuncts =>
    some {
      asNames := asName :: joinNames joins
      heeded := leftExprs conjuncts ++ onExprs joins
      unheeded := rightExprs conjuncts ++ (distinct.map SqlTerm.expr).toList }

/-- The scopes of the statements of a plan, however deep they are nested. -/
def Plan.scopes (p : Plan) : List Scope :=
  p.selects.map Select.scope ++ (p.count.bind Count.scope?).toList

/-! ## Conditions keep their expressions -/

variable {d : Dialect}

theorem Comparison.exprs_of_withSide {c : Comparison} {side : Side} {p : Predicate}
    (h : c.withSide d side = .ok p) :
    p.leftExpr = c.lhs.expr ∧ p.rightExprs = side.exprs := by
  unfold withSide at h
  split at h
  · obtain rfl := Except.ok.inj h
    exact ⟨rfl, rfl⟩
  · split at h
    · obtain rfl := Except.ok.inj h
      exact ⟨rfl, rfl⟩
    · cases h
  · cases h

theorem Comparison.exprs_of_predicate {c : Comparison} {p : Predicate}
    (h : c.predicate d = .ok p) : p.leftExpr = c.lhs.expr ∧ p.rightExprs = c.rhs.exprs := by
  unfold predicate at h
  split at h
  · rename_i hrhs
    split at h
    · obtain rfl := Except.ok.inj h
      exact ⟨rfl, by rw [hrhs]; rfl⟩
    · cases h
  · rename_i vs hrhs
    split at h
    · obtain rfl := Except.ok.inj h
      exact ⟨rfl, by rw [hrhs]; rfl⟩
    · cases h
  · rename_i v hrhs
    split at h
    · obtain rfl := Except.ok.inj h
      exact ⟨rfl, by rw [hrhs]; rfl⟩
    · rw [hrhs]
      exact exprs_of_withSide h
  · rename_i t hrhs
    split at h
    · cases h
    · rw [hrhs]
      exact exprs_of_withSide h

theorem Condition.forall₂_of_conjunct {c : Condition} {p : Conjunct}
    (h : c.conjunct d = .ok p) :
    Forall₂ (fun c p => c.predicate d = .ok p) c.comparisons p.predicates := by
  cases c with
  | one c =>
      obtain ⟨p, hp, rfl⟩ := map_eq_ok.mp h
      exact .cons hp .nil
  | any cs =>
      obtain ⟨ps, hps, rfl⟩ := map_eq_ok.mp h
      exact mapM_eq_ok.mp hps

theorem exists_comparison {cs : List Condition} {conjuncts : List Conjunct}
    (h : Forall₂ (fun c p => Condition.conjunct d c = .ok p) cs conjuncts) {p : Predicate}
    (hp : p ∈ conjuncts.flatMap Conjunct.predicates) :
    ∃ c ∈ cs, ∃ x ∈ c.comparisons, x.predicate d = .ok p := by
  obtain ⟨conj, hconj, hp⟩ := List.mem_flatMap.mp hp
  obtain ⟨c, hc, hok⟩ := exists_of_mem_right h hconj
  obtain ⟨x, hx, hpred⟩ := exists_of_mem_right (Condition.forall₂_of_conjunct hok) hp
  exact ⟨c, hc, x, hx, hpred⟩

theorem mem_leftExprs {c : Condition} {x : Comparison} (hx : x ∈ c.comparisons) :
    x.lhs.expr ∈ c.leftExprs := by
  cases c with
  | one c =>
      obtain rfl := List.mem_singleton.mp hx
      exact List.mem_singleton_self _
  | any cs => exact List.mem_map_of_mem hx

theorem leftExprs_subset {r : Resolved} {conjuncts : List Conjunct}
    (h : Forall₂ (fun c p => Condition.conjunct d c = .ok p) r.conditions conjuncts) :
    leftExprs conjuncts ⊆ r.exprs := by
  intro e he
  obtain ⟨p, hp, rfl⟩ := List.mem_map.mp he
  obtain ⟨c, hc, x, hx, hpred⟩ := exists_comparison h hp
  rw [(Comparison.exprs_of_predicate hpred).1]
  exact Schema.mem_addAllNew.mpr (.inr (List.mem_flatMap.mpr ⟨c, hc, mem_leftExprs hx⟩))

theorem Condition.leftExprs_eq (c : Condition) :
    c.leftExprs = c.comparisons.map fun x => x.lhs.expr := by
  cases c with
  | one c => rfl
  | any cs => rfl

/-- Whatever the request reads in its conditions, the statement reads there. -/
theorem subset_leftExprs {r : Resolved} {conjuncts : List Conjunct}
    (h : Forall₂ (fun c p => Condition.conjunct d c = .ok p) r.conditions conjuncts) :
    r.exprs ⊆ leftExprs conjuncts := by
  intro e he
  rcases Schema.mem_addAllNew.mp he with hnil | hmem
  · cases hnil
  obtain ⟨c, hc, he⟩ := List.mem_flatMap.mp hmem
  obtain ⟨conjunct, hconjunct, hok⟩ := exists_of_mem_left h hc
  rw [Condition.leftExprs_eq] at he
  obtain ⟨x, hx, rfl⟩ := List.mem_map.mp he
  obtain ⟨p, hp, hpred⟩ := exists_of_mem_left (Condition.forall₂_of_conjunct hok) hx
  refine List.mem_map.mpr ⟨p, List.mem_flatMap.mpr ⟨conjunct, hconjunct, hp⟩, ?_⟩
  exact (Comparison.exprs_of_predicate hpred).1

namespace Schema

/-- Expressions that are read although no relation is joined for them: what static filters compare
with, and the primary key where its values are counted. -/
def Unheeded (s : Schema) (e : String) : Prop :=
  (∃ c ∈ s.filters, c.operand = .column e) ∨ ∃ f, s.primaryField? = some f ∧ f.expr = e

/-- Requests compare with values only. -/
theorem exprs_of_filterOperands {k : ScalarKind} {f : Filter} {o : Operands}
    (h : filterOperands d k f = .ok o) : o.exprs = [] := by
  have hvalue {o : Operands} (h : valueOperands k f = .ok o) : o.exprs = [] := by
    unfold valueOperands at h
    split at h <;> cases h
    rfl
  have hlist {o : Operands} (h : listOperands k f = .ok o) : o.exprs = [] := by
    unfold listOperands at h
    split at h <;> cases h
    rfl
  unfold filterOperands at h
  cases hop : f.op with
  | eq | ne =>
      simp only [hop] at h
      split at h
      · cases h
        rfl
      · exact hvalue h
  | gt | gte | lt | lte =>
      simp only [hop] at h
      exact hvalue h
  | like | nlike | ilike | nilike =>
      simp only [hop] at h
      cases h
      rfl
  | within | without =>
      simp only [hop] at h
      exact hlist h
  | regexp | nregexp =>
      simp only [hop] at h
      split at h <;> cases h
      rfl

theorem exprs_of_filterComparison {s : Schema} {f : Filter} {c : Comparison}
    (h : s.filterComparison d f = .ok c) : c.rhs.exprs = [] := by
  unfold filterComparison at h
  split at h
  · cases h
  · obtain ⟨rhs, hrhs, hc⟩ := bind_eq_ok.mp h
    obtain rfl := pure_eq_ok.mp hc
    exact exprs_of_filterOperands hrhs

theorem exprs_of_searchComparison {s : Schema} {term key : String} {c : Comparison}
    (h : s.searchComparison term key = .ok c) : c.rhs.exprs = [] := by
  unfold searchComparison at h
  split at h <;> cases h
  rfl

theorem operand_of_clauseComparison {c : Clause} {e : String}
    (h : e ∈ (clauseComparison c).rhs.exprs) : c.operand = .column e := by
  obtain ⟨column, op, operand⟩ := c
  cases operand with
  | column x => exact congrArg Operand.column (List.mem_singleton.mp h).symm
  | value v =>
      cases v with
      | null | array => cases h
      | _ => cases op <;> cases h

/-- A comparison with a column is a static filter. -/
theorem unheeded_of_conditions {s : Schema} {q : Query} {cs : List Condition}
    (h : s.conditions d q = .ok cs) {c : Condition} (hc : c ∈ cs) {x : Comparison}
    (hx : x ∈ c.comparisons) {e : String} (he : e ∈ x.rhs.exprs) : s.Unheeded e := by
  obtain ⟨filters, groups, searches, hfilters, hgroups, hsearches, rfl⟩ := conditions_eq_ok.mp h
  simp only [List.mem_append, List.mem_map] at hc
  rcases hc with ((⟨_, ⟨clause, hclause, rfl⟩, rfl⟩ | ⟨c, hc, rfl⟩) | ⟨g, hg, rfl⟩) | ⟨g, hg, rfl⟩
  · obtain rfl := List.mem_singleton.mp hx
    exact .inl ⟨clause, hclause, operand_of_clauseComparison he⟩
  · obtain rfl := List.mem_singleton.mp hx
    obtain ⟨f, -, hf⟩ := exists_of_mem_right hfilters hc
    rw [exprs_of_filterComparison hf] at he
    cases he
  · obtain ⟨fs, -, hfs⟩ := exists_of_mem_right hgroups hg
    obtain ⟨f, -, hf⟩ := exists_of_mem_right hfs hx
    rw [exprs_of_filterComparison hf] at he
    cases he
  · obtain ⟨y, -, hy⟩ := exists_of_mem_right hsearches hg
    obtain ⟨key, -, hkey⟩ := exists_of_mem_right hy hx
    rw [exprs_of_searchComparison hkey] at he
    cases he

theorem unheeded_of_rightExprs {s : Schema} {q : Query} {includes : List String} {r : Resolved}
    (hr : s.resolve d q includes = .ok r) {conjuncts : List Conjunct}
    (h : Forall₂ (fun c p => Condition.conjunct d c = .ok p) r.conditions conjuncts) {e : String}
    (he : e ∈ rightExprs conjuncts) : s.Unheeded e := by
  obtain ⟨_, _, _, conditions, _, _, -, -, hconditions, -, -, rfl⟩ := resolve_eq_ok.mp hr
  obtain ⟨p, hp, he⟩ := List.mem_flatMap.mp he
  obtain ⟨c, hc, x, hx, hpred⟩ := exists_comparison h hp
  rw [(Comparison.exprs_of_predicate hpred).2] at he
  exact unheeded_of_conditions hconditions hc hx he

end Schema

/-! ## Joins keep their aliases and expressions -/

theorem Schema.exprs_clauseComparison (c : Clause) :
    (clauseComparison c).lhs.expr :: (clauseComparison c).rhs.exprs = c.exprs := by
  obtain ⟨column, op, operand⟩ := c
  cases operand with
  | column x => rfl
  | value v =>
      cases v with
      | null | array => rfl
      | _ => cases op <;> rfl

namespace Schema

variable {derived : String → Except QueryError Select} {s : Schema}

theorem onExprs_of_joinHead {r : Relation} {h : JoinHead} (hh : joinHead d r = .ok h) :
    h.asName = r.asName ∧ h.on.flatMap Predicate.exprs = r.conditions.flatMap Clause.exprs := by
  obtain ⟨on, hon, rfl⟩ := joinHead_eq_ok.mp hh
  refine ⟨rfl, ?_⟩
  clear hh
  dsimp only
  generalize r.conditions = conditions at hon
  induction hon with
  | nil => rfl
  | @cons c p _ _ hpred _ ih =>
      obtain ⟨hleft, hright⟩ := Comparison.exprs_of_predicate hpred
      rw [List.flatMap_cons, List.flatMap_cons, Predicate.exprs, hleft, hright,
        exprs_clauseComparison, ih]

theorem join_spec {r : Relation} {j : Join} (h : join d derived r = .ok j) :
    j.head.asName = r.asName ∧
      j.head.on.flatMap Predicate.exprs = r.conditions.flatMap Clause.exprs := by
  cases hsource : r.source with
  | table name =>
      obtain ⟨head, hhead, rfl⟩ := (join_table_eq_ok hsource).mp h
      exact onExprs_of_joinHead hhead
  | entity name =>
      obtain ⟨sel, head, -, hhead, rfl⟩ := (join_entity_eq_ok hsource).mp h
      exact onExprs_of_joinHead hhead

variable {relations : List Relation} {joins : List Join}

theorem joinNames_eq (h : Forall₂ (fun r j => join d derived r = .ok j) relations joins) :
    joinNames joins = relations.map Relation.asName := by
  induction h with
  | nil => rfl
  | cons hj _ ih => exact congrArg₂ List.cons (join_spec hj).1 ih

theorem covers_onExprs (hdecl : Covers s.aliases s.exprs) {exprs : List String}
    (h : Forall₂ (fun r j => join d derived r = .ok j) (s.requiredJoins exprs) joins) :
    Covers (s.joinedNames exprs) (onExprs joins) := by
  intro e he
  obtain ⟨j, hj, he⟩ := List.mem_flatMap.mp he
  obtain ⟨r, hr, hjoin⟩ := exists_of_mem_right h hj
  have hmem : r ∈ s.relations := (List.mem_filter.mp hr).1
  exact covers_conditions hr (fun e he => hdecl e (mem_exprs_of_relation hmem he)) e
    ((join_spec hjoin).2 ▸ he)

theorem unheeded_of_countedTerm {e : String}
    (he : e ∈ ((s.countedTerm relations).map SqlTerm.expr).toList) : s.Unheeded e := by
  obtain ⟨t, ht, rfl⟩ := Option.map_eq_some_iff.mp (Option.mem_toList.mp he)
  unfold countedTerm at ht
  split at ht
  · cases ht
  · obtain ⟨f, hf, rfl⟩ := Option.map_eq_some_iff.mp ht
    exact .inr ⟨f, hf, rfl⟩

/-! ## Statements are closed but for what is not heeded -/

theorem Covers.mono {asNames xs ys : List String} (h : Covers asNames ys) (hsub : xs ⊆ ys) :
    Covers asNames xs := fun e he => h e (hsub he)

theorem Covers.append {asNames xs ys : List String} (hxs : Covers asNames xs)
    (hys : Covers asNames ys) : Covers asNames (xs ++ ys) := by
  intro e he
  exact (List.mem_append.mp he).elim (hxs e) (hys e)

end Schema

/-- The expressions that decide about the joins have their aliases, and only certain others of the
schema are read. -/
structure Scope.Accounted (reg : Registry) (sc : Scope) : Prop where
  heeded : Schema.Covers sc.asNames sc.heeded
  unheeded : ∃ t ∈ reg.schemas, t.asName ∈ sc.asNames ∧ ∀ e ∈ sc.unheeded, t.Unheeded e

namespace Registry

variable {es : List EntityConfig} {reg : Registry} {s : Schema}

theorem covers_exprs (hreg : build es = .ok reg) (hs : s ∈ reg.schemas) :
    Schema.Covers s.aliases s.exprs :=
  fun _ he _ ha => mem_aliases_of_build hreg hs he ha

theorem accounted_of_reads (hreg : build es = .ok reg) (hs : s ∈ reg.schemas) {q : Query}
    {t : Select} (h : reg.Reads d s q t) : t.scope.Accounted reg := by
  obtain ⟨includes, r, depth, window, ordered, hr, hrow⟩ := h
  obtain ⟨joins, conjuncts, hjoins, hconjuncts, rfl⟩ := Schema.rowSelect_eq_ok.mp hrow
  have hdecl := covers_exprs hreg hs
  have hnames : s.asName :: joinNames joins = s.joinedNames (r.rowExprs ordered) :=
    congrArg (s.asName :: ·) (Schema.joinNames_eq hjoins)
  have hread : Schema.Covers (s.joinedNames (r.rowExprs ordered)) (r.rowExprs ordered) :=
    Schema.covers_joinedNames (hdecl.mono (Schema.rowExprs_subset hr ordered))
  refine ⟨?_, s, hs, List.mem_cons_self, fun e he =>
    Schema.unheeded_of_rightExprs hr hconjuncts he⟩
  simp only [Select.scope, hnames]
  refine Schema.Covers.append (hread.mono ?_) (Schema.covers_onExprs hdecl hjoins)
  intro e he
  have hleft := leftExprs_subset hconjuncts
  simp only [Resolved.rowExprs, List.mem_append] at he ⊢
  exact he.imp_left (Or.imp_left (Or.imp_right (hleft ·)))

theorem accounted_of_counts (hreg : build es = .ok reg) (hs : s ∈ reg.schemas) {q : Query}
    {c : Count} (h : reg.Counts d s q c) : ∀ sc ∈ c.scope?, sc.Accounted reg := by
  obtain ⟨includes, r, depth, hr, hcount⟩ := h
  intro sc hsc
  cases hgrouped : r.isGrouped with
  | true =>
      obtain ⟨inner, -, rfl⟩ := (Schema.countSelect_eq_ok_of_isGrouped hgrouped).mp hcount
      cases hsc
  | false =>
      obtain ⟨joins, conjuncts, hjoins, hconjuncts, rfl⟩ :=
        (Schema.countSelect_eq_ok_of_not_isGrouped hgrouped).mp hcount
      obtain rfl := Option.some.inj hsc
      have hdecl := covers_exprs hreg hs
      have hnames : s.asName :: joinNames joins = s.joinedNames r.exprs :=
        congrArg (s.asName :: ·) (Schema.joinNames_eq hjoins)
      have hread : Schema.Covers (s.joinedNames r.exprs) r.exprs :=
        Schema.covers_joinedNames (hdecl.mono (Schema.exprs_subset hr))
      refine ⟨?_, s, hs, List.mem_cons_self, fun e he => ?_⟩
      · simp only [hnames]
        exact (hread.mono (leftExprs_subset hconjuncts)).append
          (Schema.covers_onExprs hdecl hjoins)
      · rcases List.mem_append.mp he with hright | hcounted
        · exact Schema.unheeded_of_rightExprs hr hconjuncts hright
        · exact Schema.unheeded_of_countedTerm hcounted

theorem accounted_of_compileAs (hreg : build es = .ok reg) (hs : s ∈ reg.schemas) {q : Query}
    {m : ReadMode} {p : Plan} (hp : reg.compileAs d s q m = .ok p) :
    ∀ sc ∈ p.scopes, sc.Accounted reg := by
  intro sc hsc
  rcases List.mem_append.mp hsc with hsc | hsc
  · obtain ⟨t, ht, rfl⟩ := List.mem_map.mp hsc
    rcases reads_of_mem_selects hp ht with hreads | ⟨s', hs', hreads⟩
    · exact accounted_of_reads hreg hs hreads
    · exact accounted_of_reads hreg hs' hreads
  · obtain ⟨c, hc, hsc⟩ := Option.bind_eq_some_iff.mp (Option.mem_toList.mp hsc)
    exact accounted_of_counts hreg hs ((reads_of_compileAs hp).2 c hc) sc hsc

/-- A primary key that is counted uses the own alias. -/
theorem covers_primaryField (hreg : build es = .ok reg) (hs : s ∈ reg.schemas)
    (hname : Expr.isName s.asName.toList = true) {f : Field} (hf : s.primaryField? = some f) :
    Schema.Covers [s.asName] [f.expr] := by
  obtain ⟨-, -, -, -, -, -, hcolumn⟩ := Schema.validate_eq_ok.mp (validate_of_build hreg s hs)
  obtain ⟨column, hcolumn⟩ := Option.isSome_iff_exists.mp hcolumn
  rw [Schema.primaryColumn?, hf, Option.bind_some] at hcolumn
  intro e he a ha
  rw [List.mem_singleton.mp he, Field.aliases_of_columnOf? hcolumn hname] at ha
  exact ha

/-- Where static filters compare with values only, everything that is used is joined. -/
theorem closed_of_values (hreg : build es = .ok reg) (hs : s ∈ reg.schemas)
    (hnames : ∀ t ∈ reg.schemas, Expr.isName t.asName.toList = true)
    (hvalues : ∀ t ∈ reg.schemas, ∀ c ∈ t.filters, ∀ e, c.operand ≠ .column e) {q : Query}
    {m : ReadMode} {p : Plan} (hp : reg.compileAs d s q m = .ok p) :
    ∀ sc ∈ p.scopes, sc.Closed := by
  intro sc hsc
  obtain ⟨hheeded, t, ht, hown, hunheeded⟩ := accounted_of_compileAs hreg hs hp sc hsc
  refine hheeded.append fun e he a ha => ?_
  rcases hunheeded e he with ⟨c, hc, hcolumn⟩ | ⟨f, hf, rfl⟩
  · exact absurd hcolumn (hvalues t ht c hc e)
  · have hkey := covers_primaryField hreg ht (hnames t ht) hf
    obtain rfl := List.mem_singleton.mp (hkey _ (List.mem_singleton_self _) a ha)
    exact hown

/-- A statement has all aliases it uses exactly when it has those of what static filters compare
with and of a primary key that is counted. -/
theorem closed_iff (hreg : build es = .ok reg) (hs : s ∈ reg.schemas) {q : Query} {m : ReadMode}
    {p : Plan} (hp : reg.compileAs d s q m = .ok p) :
    ((∀ sc ∈ p.scopes, sc.Closed) ↔ ∀ sc ∈ p.scopes, Schema.Covers sc.asNames sc.unheeded) ∧
      ∀ sc ∈ p.scopes, ∃ t ∈ reg.schemas, t.asName ∈ sc.asNames ∧
        ∀ e ∈ sc.unheeded, t.Unheeded e := by
  have haccounted := accounted_of_compileAs hreg hs hp
  refine ⟨⟨fun h sc hsc => ?_, fun h sc hsc => ?_⟩, fun sc hsc => (haccounted sc hsc).unheeded⟩
  · exact (h sc hsc).mono (List.subset_append_right _ _)
  · exact (haccounted sc hsc).heeded.append (h sc hsc)

end Registry

/-- Orders have the payments joined that they read. -/
theorem Shop.orders_closed :
    ∃ p, Registry.compileAs registry .postgres orders (request "null" "1,2" "x" "1.5" "foo")
        (.page ⟨10, 100⟩) = .ok p ∧
      ∀ sc ∈ p.scopes, sc.Closed := by
  obtain ⟨p, hp, hcovers⟩ := exists_eq_ok (x := registry.compileAs .postgres orders
    (request "null" "1,2" "x" "1.5" "foo") (.page ⟨10, 100⟩))
    (p := fun p => p.scopes.all fun sc => sc.unheeded.all fun e =>
      (Expr.aliases e).all sc.asNames.contains) (by decide +kernel)
  refine ⟨p, hp, (Registry.closed_iff build_eq (by simp [registry]) hp).1.mpr ?_⟩
  simpa [Schema.Covers] using hcovers

/-! ## A static filter that compares with a relation

Documents of the tenant of their owner. -/

namespace Docs

def config : EntityConfig where
  name := "docs"
  table := "docs"
  asName := "d"
  version := "1"
  fields := [⟨"id", "d.id", .int, none⟩]
  relations := [⟨.inner, some "owners", none, "o", [⟨"o.id", .eq, .null, some "d.owner_id"⟩]⟩]
  filters := [⟨"d.tenant", .eq, .null, some "o.tenant"⟩]

def schema : Schema where
  name := "docs"
  table := "docs"
  asName := "d"
  version := "1"
  primaryKey := "id"
  flat := false
  fields := [⟨"id", "d.id", .int, false, false, {}⟩]
  relations := [⟨.inner, .table "owners", "o", [⟨"o.id", .eq, .column "d.owner_id"⟩]⟩]
  filters := [⟨"d.tenant", .eq, .column "o.tenant"⟩]
  sorts := []
  groups := []
  children := []

theorem build_eq : Registry.build [config] = .ok ⟨[schema]⟩ := by
  cbv

/-- Nothing else uses the owners, so they are not joined. -/
theorem not_closed :
    ∃ p, Registry.build [config] = .ok ⟨[schema]⟩ ∧
      Registry.compileAs ⟨[schema]⟩ .postgres schema {} .all = .ok p ∧
      ¬ ∀ sc ∈ p.scopes, sc.Closed := by
  obtain ⟨p, hp, hopen⟩ := exists_eq_ok
    (x := Registry.compileAs ⟨[schema]⟩ .postgres schema {} .all)
    (p := fun p => decide (¬ ∀ sc ∈ p.scopes, sc.Closed)) (by decide +kernel)
  exact ⟨p, build_eq, hp, of_decide_eq_true hopen⟩

end Docs

end EntityRest

import EntityRest.Proofs.Query.Params
import EntityRest.Proofs.Query.Resolve
import EntityRest.Proofs.Query.Statements
import EntityRest.Proofs.Sql.Fragment

/-! # The condition of a statement

The condition of every statement is a conjunction that starts with all static filters. What a
request asks for only adds further members. -/

namespace EntityRest

open List (Forall₂)

/-! ## The shape of conditions -/

/-- A comparison as it is written. Between the parentheses of a list there is a value, and only a
comparison with no values is a constant. -/
inductive IsComparison (d : Dialect) : Predicate → List Fragment → Prop where
  | null (lhs : SqlTerm) (negated : Bool) :
      IsComparison d (.null lhs negated)
        [.text (lhs.sql d ++ if negated then " IS NOT NULL" else " IS NULL")]
  | constant (lhs : SqlTerm) (negated : Bool) :
      IsComparison d (.member lhs negated []) [.text (if negated then "1=1" else "1=0")]
  | member (lhs : SqlTerm) (negated : Bool) {vs : List SqlValue} (hvs : vs ≠ []) :
      IsComparison d (.member lhs negated vs)
        ([.text (lhs.sql d ++ if negated then " NOT IN (" else " IN (")] ++
          Fragment.joinWith "," (vs.map fun v => [.bind v]) ++ [.text ")"])
  | compare (lhs : SqlTerm) (op : Comparator) (rhs : Side) :
      IsComparison d (.compare lhs op rhs)
        (Predicate.sides (lhs.sql d) op.parts (rhs.fragment d (Predicate.ignoresCase op)))
  | regexp (lhs : SqlTerm) (parts : String × String × String) (rhs : Side) :
      IsComparison d (.regexp lhs parts rhs)
        (Predicate.sides (lhs.sql d) parts (rhs.fragment d false))

/-- A member of a conjunction as it is written. Between its parentheses there is a comparison. -/
inductive IsConjunct (d : Dialect) : Conjunct → List Fragment → Prop where
  | one {p fs} (h : IsComparison d p fs) : IsConjunct d (.one p) fs
  | any {ps fss} (hne : ps ≠ []) (h : Forall₂ (IsComparison d) ps fss) :
      IsConjunct d (.any ps) ([.text "("] ++ Fragment.joinWith " OR " fss ++ [.text ")"])

theorem Predicate.isComparison (d : Dialect) (p : Predicate) :
    IsComparison d p (p.fragments d) := by
  cases p with
  | null lhs negated => exact .null lhs negated
  | member lhs negated vs =>
      cases vs with
      | nil => exact .constant lhs negated
      | cons v vs => exact .member lhs negated (List.cons_ne_nil v vs)
  | compare lhs op rhs => exact .compare lhs op rhs
  | regexp lhs parts rhs => exact .regexp lhs parts rhs

theorem Conjunct.isConjunct_any (d : Dialect) {ps : List Predicate} (hne : ps ≠ []) :
    IsConjunct d (.any ps) ((Conjunct.any ps).fragments d) :=
  .any hne (List.forall₂_map_right_iff.mpr (List.forall₂_same.mpr fun p _ => p.isComparison d))

/-! ## Conjunctions of requests -/

/-- The comparison, written by its operator. -/
def Comparison.WrittenAs (d : Dialect) (c : Comparison) (fs : List Fragment) : Prop :=
  ∃ p, c.predicate d = .ok p ∧ IsComparison d p fs

/-- Every item is written, and they stand in parentheses with `OR` between them. -/
def Alternatives {α : Type} (R : α → List Fragment → Prop) (xs : List α) (fs : List Fragment) :
    Prop :=
  ∃ members, members ≠ [] ∧ Forall₂ R xs members ∧
    fs = [.text "("] ++ Fragment.joinWith " OR " members ++ [.text ")"]

namespace Schema

variable (d : Dialect) (s : Schema)

/-- A filter, written as a comparison of what its key leads to. -/
def FilterWrittenAs (f : Filter) (fs : List Fragment) : Prop :=
  ∃ c, s.filterComparison d f = .ok c ∧ c.WrittenAs d fs

/-- One field of a search, written as a comparison. -/
def SearchWrittenAs (term key : String) (fs : List Fragment) : Prop :=
  ∃ c, s.searchComparison term key = .ok c ∧ c.WrittenAs d fs

/-- The members are the static filters, then one comparison for each filter, then alternatives for
each group and for each search. -/
def Conjoined (filters : List Filter) (orGroups : List (List Filter)) (searches : List Search)
    (conjuncts : List (List Fragment)) : Prop :=
  ∃ statics asked groups found, conjuncts = statics ++ asked ++ groups ++ found ∧
    Forall₂ (fun c => (clauseComparison c).WrittenAs d) s.filters statics ∧
    Forall₂ (s.FilterWrittenAs d) filters asked ∧
    Forall₂ (Alternatives (s.FilterWrittenAs d)) orGroups groups ∧
    Forall₂ (fun x => Alternatives (s.SearchWrittenAs d x.term) x.fields) searches found

end Schema

/-- The members with `AND` between them. -/
def whereClause : List (List Fragment) → List Fragment
  | [] => []
  | conjuncts => .text " WHERE " :: Fragment.joinWith " AND " conjuncts

theorem Conjunct.clause_eq (d : Dialect) (cs : List Conjunct) :
    clause d cs = whereClause (cs.map (Conjunct.fragments d)) := by
  cases cs with
  | nil => rfl
  | cons c cs => rfl

theorem Alternatives.comp {α β : Type} {R : α → β → Prop} {S : β → List Fragment → Prop}
    {T : α → List Fragment → Prop} {xs : List α} {ys : List β} {fs : List Fragment}
    (hxy : Forall₂ R xs ys) (h : Alternatives S ys fs)
    (hT : ∀ x y gs, R x y → S y gs → T x gs) : Alternatives T xs fs := by
  obtain ⟨members, hne, hmembers, rfl⟩ := h
  exact ⟨members, hne, forall₂_comp hxy hmembers hT, rfl⟩

theorem Comparison.writtenAs {d : Dialect} {c : Comparison} {p : Predicate}
    (h : c.predicate d = .ok p) : c.WrittenAs d (p.fragments d) :=
  ⟨p, h, p.isComparison d⟩

namespace Condition

variable {d : Dialect}

theorem writtenAs_of_one {cs : List Comparison} {ps : List Conjunct}
    (h : Forall₂ (fun c p => conjunct d c = .ok p) (cs.map .one) ps) :
    Forall₂ (Comparison.WrittenAs d) cs (ps.map (Conjunct.fragments d)) := by
  refine List.forall₂_map_right_iff.mpr ((List.forall₂_map_left_iff.mp h).imp fun c p hp => ?_)
  obtain ⟨pred, hpred, rfl⟩ := map_eq_ok.mp hp
  exact Comparison.writtenAs hpred

theorem alternatives_of_any {cs : List Comparison} {p : Conjunct} (hne : cs ≠ [])
    (h : conjunct d (.any cs) = .ok p) :
    Alternatives (Comparison.WrittenAs d) cs (p.fragments d) := by
  obtain ⟨ps, hps, rfl⟩ := map_eq_ok.mp h
  have hall := mapM_eq_ok.mp hps
  refine ⟨ps.map (Predicate.fragments d), fun hnil => ?_, ?_, rfl⟩
  · obtain rfl := List.map_eq_nil_iff.mp hnil
    exact hne (List.forall₂_nil_right_iff.mp hall)
  · exact List.forall₂_map_right_iff.mpr (hall.imp fun c p hp => Comparison.writtenAs hp)

theorem writtenAs_of_any {α : Type} {A : α → List Comparison → Prop}
    {W : α → List Fragment → Prop} {xs : List α} {gs : List (List Comparison)} {ps : List Conjunct}
    (hxs : Forall₂ (fun x g => g ≠ [] ∧ A x g) xs gs)
    (h : Forall₂ (fun c p => conjunct d c = .ok p) (gs.map .any) ps)
    (hW : ∀ x g fs, A x g → Alternatives (Comparison.WrittenAs d) g fs → W x fs) :
    Forall₂ W xs (ps.map (Conjunct.fragments d)) := by
  have hgs := List.forall₂_map_left_iff.mp h
  exact List.forall₂_map_right_iff.mpr (forall₂_comp hxs hgs fun x g p hx hp =>
    hW x g _ hx.2 (alternatives_of_any hx.1 hp))

end Condition

/-- Lists that are related to lists with items have items. -/
theorem forall₂_ne_nil {α β γ : Type} {R : α → β → γ → Prop} (f : α → List β) {xs : List α}
    {zss : List (List γ)} (h : Forall₂ (fun x => Forall₂ (R x) (f x)) xs zss)
    (hne : ∀ x ∈ xs, f x ≠ []) :
    Forall₂ (fun x zs => zs ≠ [] ∧ Forall₂ (R x) (f x) zs) xs zss := by
  refine ((List.forall₂_and_left _ _).mpr ⟨hne, h⟩).imp fun x zs hx => ⟨?_, hx.2⟩
  rintro rfl
  exact hx.1 (List.forall₂_nil_right_iff.mp hx.2)

namespace Schema

variable {d : Dialect} {s : Schema}

theorem conjoined_of_conditions {q : Query} (hq : q.Filled) {cs : List Condition}
    (h : s.conditions d q = .ok cs) {ps : List Conjunct}
    (hps : Forall₂ (fun c p => Condition.conjunct d c = .ok p) cs ps) :
    s.Conjoined d q.filters q.orGroups q.searches (ps.map (Conjunct.fragments d)) := by
  obtain ⟨filters, groups, searches, hfilters, hgroups, hsearches, rfl⟩ := conditions_eq_ok.mp h
  obtain ⟨ps, found, rfl, hps, hfound⟩ := exists_append_of_forall₂ hps
  obtain ⟨ps, grouped, rfl, hps, hgrouped⟩ := exists_append_of_forall₂ hps
  obtain ⟨statics, asked, rfl, hstatics, hasked⟩ := exists_append_of_forall₂ hps
  simp only [List.map_append]
  refine ⟨_, _, _, _, rfl, ?_, ?_, ?_, ?_⟩
  · exact List.forall₂_map_left_iff.mp (Condition.writtenAs_of_one hstatics)
  · exact forall₂_comp hfilters (Condition.writtenAs_of_one hasked) fun f c fs hc hw => ⟨c, hc, hw⟩
  · refine Condition.writtenAs_of_any (forall₂_ne_nil id hgroups hq.orGroups) hgrouped ?_
    exact fun g cs fs hg hw => hw.comp hg fun f c fs hc hw => ⟨c, hc, hw⟩
  · refine Condition.writtenAs_of_any (forall₂_ne_nil Search.fields hsearches hq.searches)
      hfound ?_
    exact fun x cs fs hx hw => hw.comp hx fun key c fs hc hw => ⟨c, hc, hw⟩

end Schema

/-! ## No empty parentheses -/

namespace Condition

variable {d : Dialect}

theorem isConjunct {c : Condition} {p : Conjunct} (hc : c ≠ .any []) (h : conjunct d c = .ok p) :
    IsConjunct d p (p.fragments d) := by
  cases c with
  | one c =>
      obtain ⟨pred, -, rfl⟩ := map_eq_ok.mp h
      exact .one (pred.isComparison d)
  | any cs =>
      obtain ⟨ps, hps, rfl⟩ := map_eq_ok.mp h
      refine Conjunct.isConjunct_any d ?_
      rintro rfl
      exact hc (congrArg any (List.forall₂_nil_right_iff.mp (mapM_eq_ok.mp hps)))

end Condition

namespace Schema

variable {d : Dialect} {s : Schema}

/-- A filled request has no empty group of alternatives and no search without fields. -/
theorem any_nil_notMem_conditions {q : Query} (hq : q.Filled) {cs : List Condition}
    (h : s.conditions d q = .ok cs) : .any [] ∉ cs := by
  obtain ⟨filters, groups, searches, -, hgroups, hsearches, rfl⟩ := conditions_eq_ok.mp h
  intro hmem
  simp only [List.mem_append, List.mem_map, reduceCtorEq, and_false, exists_false, false_or,
    Condition.any.injEq, exists_eq_right] at hmem
  rcases hmem with hempty | hempty
  · obtain ⟨g, hg, hall⟩ := exists_of_mem_right hgroups hempty
    exact hq.orGroups g hg (List.forall₂_nil_right_iff.mp hall)
  · obtain ⟨x, hx, hall⟩ := exists_of_mem_right hsearches hempty
    exact hq.searches x hx (List.forall₂_nil_right_iff.mp hall)

theorem isConjunct_of_conditions {q : Query} (hq : q.Filled) {cs : List Condition}
    (h : s.conditions d q = .ok cs) {ps : List Conjunct}
    (hps : Forall₂ (fun c p => Condition.conjunct d c = .ok p) cs ps) :
    ∀ p ∈ ps, IsConjunct d p (p.fragments d) := by
  intro p hp
  obtain ⟨c, hc, hconjunct⟩ := exists_of_mem_right hps hp
  exact Condition.isConjunct (fun hnil => any_nil_notMem_conditions hq h (hnil ▸ hc)) hconjunct

end Schema

/-! ## Statements around their conditions -/

namespace Select

/-- A statement up to its condition: columns, table and joins. -/
def front (d : Dialect) : Select → List Fragment
  | mk b joins => b.opening d ++ tableSql d b.table b.asName :: Join.fragmentsAll d joins

/-- A statement after its condition: groups, orders and the window. -/
def back (d : Dialect) : Select → List Fragment
  | mk b _ => [.text (b.groupClause d ++ b.orderClause ++ b.windowClause d)]

/-- The conditions of a statement and of its joins. -/
def conditions : Select → List Conjunct
  | mk b joins => b.conjuncts ++ joins.flatMap fun j => j.head.on.map .one

theorem fragments_eq (d : Dialect) (t : Select) :
    t.fragments d =
      t.front d ++ whereClause (t.body.conjuncts.map (Conjunct.fragments d)) ++ t.back d := by
  obtain ⟨b, joins⟩ := t
  rw [Select.fragments, SelectBody.closing, Conjunct.clause_eq, front, back, body]
  simp only [List.append_assoc]

end Select

namespace Count

def front (d : Dialect) : Count → List Fragment
  | groups inner => .text "SELECT COUNT(*) FROM (" :: inner.front d
  | rows distinct table asName joins _ =>
    .text ("SELECT " ++ counted d distinct ++ " FROM ") :: tableSql d table asName ::
      Join.fragmentsAll d joins

def back (d : Dialect) : Count → List Fragment
  | groups inner => inner.back d ++ [.text (") AS " ++ d.quote "_grouped")]
  | rows .. => []

def conjuncts : Count → List Conjunct
  | groups inner => inner.body.conjuncts
  | rows _ _ _ _ cs => cs

def conditions : Count → List Conjunct
  | groups _ => []
  | rows _ _ _ joins cs => cs ++ joins.flatMap fun j => j.head.on.map .one

theorem fragments_eq (d : Dialect) (c : Count) :
    c.fragments d =
      c.front d ++ whereClause (c.conjuncts.map (Conjunct.fragments d)) ++ c.back d := by
  cases c with
  | groups inner =>
      rw [Count.fragments, Select.fragments_eq, front, back, conjuncts]
      simp only [List.append_assoc, List.cons_append]
  | rows distinct table asName joins cs =>
      rw [Count.fragments, Conjunct.clause_eq, front, back, conjuncts]
      simp only [List.append_nil, List.cons_append]

end Count

/-- Every condition in the statements of a plan, however deep these are nested. -/
def Plan.conditions (p : Plan) : List Conjunct :=
  p.selects.flatMap Select.conditions ++ (p.count.map Count.conditions).getD []

/-- A statement with a conjunction between its front and its back, that of the static filters of the
schema and of what is asked for. -/
def Statement.GuardedBy (d : Dialect) (s : Schema) (filters : List Filter)
    (orGroups : List (List Filter)) (searches : List Search) (front back : List Fragment)
    (st : Statement) : Prop :=
  ∃ conjuncts : List Conjunct,
    st = Fragment.statement d
      (front ++ whereClause (conjuncts.map (Conjunct.fragments d)) ++ back) ∧
    s.Conjoined d filters orGroups searches (conjuncts.map (Conjunct.fragments d)) ∧
    ∀ c ∈ conjuncts, IsConjunct d c (c.fragments d)

namespace Registry

variable {reg : Registry} {d : Dialect} {s : Schema} {q : Query}

/-- The conjunction of a row statement is made of the conditions of its request. -/
theorem Reads.exists_conditions {t : Select} (h : reg.Reads d s q t) :
    ∃ cs, s.conditions d q = .ok cs ∧
      Forall₂ (fun c p => Condition.conjunct d c = .ok p) cs t.body.conjuncts := by
  obtain ⟨includes, r, depth, window, ordered, hr, hrow⟩ := h
  obtain ⟨joins, conjuncts, -, hconjuncts, rfl⟩ := Schema.rowSelect_eq_ok.mp hrow
  obtain ⟨_, _, _, conditions, _, _, -, -, hconditions, -, -, rfl⟩ := Schema.resolve_eq_ok.mp hr
  exact ⟨conditions, hconditions, hconjuncts⟩

theorem Counts.exists_conditions {c : Count} (h : reg.Counts d s q c) :
    ∃ cs, s.conditions d q = .ok cs ∧
      Forall₂ (fun c p => Condition.conjunct d c = .ok p) cs c.conjuncts := by
  obtain ⟨includes, r, depth, hr, hcount⟩ := h
  cases hgrouped : r.isGrouped with
  | true =>
      obtain ⟨inner, hinner, rfl⟩ := (Schema.countSelect_eq_ok_of_isGrouped hgrouped).mp hcount
      have hreads : reg.Reads d s q inner := ⟨includes, r, depth, none, false, hr, hinner⟩
      exact hreads.exists_conditions
  | false =>
      obtain ⟨joins, conjuncts, -, hconjuncts, rfl⟩ :=
        (Schema.countSelect_eq_ok_of_not_isGrouped hgrouped).mp hcount
      obtain ⟨_, _, _, conditions, _, _, -, -, hconditions, -, -, rfl⟩ :=
        Schema.resolve_eq_ok.mp hr
      exact ⟨conditions, hconditions, hconjuncts⟩

theorem Reads.conjoined {t : Select} (h : reg.Reads d s q t) (hq : q.Filled) :
    s.Conjoined d q.filters q.orGroups q.searches
        (t.body.conjuncts.map (Conjunct.fragments d)) ∧
      ∀ c ∈ t.body.conjuncts, IsConjunct d c (c.fragments d) := by
  obtain ⟨cs, hconditions, hconjuncts⟩ := h.exists_conditions
  exact ⟨Schema.conjoined_of_conditions hq hconditions hconjuncts,
    Schema.isConjunct_of_conditions hq hconditions hconjuncts⟩

theorem Counts.conjoined {c : Count} (h : reg.Counts d s q c) (hq : q.Filled) :
    s.Conjoined d q.filters q.orGroups q.searches (c.conjuncts.map (Conjunct.fragments d)) ∧
      ∀ x ∈ c.conjuncts, IsConjunct d x (x.fragments d) := by
  obtain ⟨cs, hconditions, hconjuncts⟩ := h.exists_conditions
  exact ⟨Schema.conjoined_of_conditions hq hconditions hconjuncts,
    Schema.isConjunct_of_conditions hq hconditions hconjuncts⟩

theorem isConjunct_of_mem {cs : List Conjunct} {joins : List Join}
    (h : ∀ c ∈ cs, IsConjunct d c (c.fragments d)) {c : Conjunct}
    (hc : c ∈ cs ++ joins.flatMap fun j => j.head.on.map .one) :
    IsConjunct d c (c.fragments d) := by
  rcases List.mem_append.mp hc with hc | hon
  · exact h c hc
  · obtain ⟨j, -, hj⟩ := List.mem_flatMap.mp hon
    obtain ⟨p, -, rfl⟩ := List.mem_map.mp hj
    exact .one (p.isComparison d)

theorem Reads.isConjunct {t : Select} (h : reg.Reads d s q t) (hq : q.Filled) :
    ∀ c ∈ t.conditions, IsConjunct d c (c.fragments d) := by
  obtain ⟨b, joins⟩ := t
  exact fun c hc => isConjunct_of_mem (h.conjoined hq).2 hc

theorem Counts.isConjunct {c : Count} (h : reg.Counts d s q c) (hq : q.Filled) :
    ∀ x ∈ c.conditions, IsConjunct d x (x.fragments d) := by
  intro x hx
  cases c with
  | groups inner => cases hx
  | rows distinct table asName joins cs => exact isConjunct_of_mem (h.conjoined hq).2 hx

/-- No empty parentheses and no empty list in any statement of a plan. -/
theorem isConjunct_of_compileAs {m : ReadMode} {p : Plan} (hp : reg.compileAs d s q m = .ok p)
    (hq : (m.query s q).Filled) : ∀ c ∈ p.conditions, IsConjunct d c (c.fragments d) := by
  intro c hc
  rcases List.mem_append.mp hc with hc | hc
  · obtain ⟨t, ht, hc⟩ := List.mem_flatMap.mp hc
    rcases reads_of_mem_selects hp ht with hreads | ⟨s', -, hreads⟩
    · exact hreads.isConjunct hq c hc
    · exact hreads.isConjunct Query.filled_empty c hc
  · cases hcount : p.count with
    | none => simp [hcount] at hc
    | some count =>
        rw [hcount, Option.map_some, Option.getD_some] at hc
        exact ((reads_of_compileAs hp).2 count hcount).isConjunct hq c hc

end Registry

namespace ReadMode

def keyFilters (s : Schema) : ReadMode → List Filter
  | page _ | all => []
  | one id => [s.keyFilter id]

theorem query_filters (s : Schema) (q : Query) (m : ReadMode) :
    (m.query s q).filters = q.filters ++ m.keyFilters s := by
  cases m with
  | page | all => exact (List.append_nil q.filters).symm
  | one id => rfl

theorem query_orGroups (s : Schema) (q : Query) (m : ReadMode) :
    (m.query s q).orGroups = q.orGroups := by
  cases m <;> rfl

theorem query_searches (s : Schema) (q : Query) (m : ReadMode) :
    (m.query s q).searches = q.searches := by
  cases m <;> rfl

end ReadMode

namespace Registry

variable {reg : Registry} {d : Dialect} {s : Schema} {pairs : Pairs} {q : Query} {m : ReadMode}
  {p : Plan}

/-- The row statement and the count start their conditions with all static filters of the schema,
and what a parsed request asks for stands beside them. -/
theorem guardedBy_of_compileAs (hq : Query.ofPairs pairs = .ok q)
    (hp : reg.compileAs d s q m = .ok p) :
    (p.selectStatement d).GuardedBy d s (q.filters ++ m.keyFilters s) q.orGroups q.searches
        (p.select.front d) (p.select.back d) ∧
      (∀ st ∈ p.countStatement? d, ∃ c ∈ p.count, st.GuardedBy d s
        (q.filters ++ m.keyFilters s) q.orGroups q.searches (c.front d) (c.back d)) ∧
      ∀ c ∈ p.conditions, IsConjunct d c (c.fragments d) := by
  have hparsed := Query.filled_of_ofPairs hq
  have hfilled : (m.query s q).Filled := by
    refine ⟨?_, ?_⟩
    · rw [m.query_orGroups]
      exact hparsed.orGroups
    · rw [m.query_searches]
      exact hparsed.searches
  obtain ⟨hreads, hcounts⟩ := reads_of_compileAs hp
  rw [← m.query_filters, ← m.query_orGroups s q, ← m.query_searches s q]
  refine ⟨?_, fun st hst => ?_, isConjunct_of_compileAs hp hfilled⟩
  · exact ⟨_, congrArg (Fragment.statement d) (p.select.fragments_eq d),
      hreads.conjoined hfilled⟩
  · obtain ⟨c, hc, rfl⟩ := Option.map_eq_some_iff.mp hst
    exact ⟨c, hc, _, congrArg (Fragment.statement d) (c.fragments_eq d),
      (hcounts c hc).conjoined hfilled⟩

end Registry

namespace Shop

theorem request_guardedBy :
    ∃ q p, Query.ofPairs (pairs "null" "1,2" "x" "1.5" "foo") = .ok q ∧
      q = request "null" "1,2" "x" "1.5" "foo" ∧
      registry.compileAs .postgres orders q (.one "7") = .ok p ∧
      (p.selectStatement .postgres).GuardedBy .postgres orders
        (q.filters ++ [⟨"id", "id", .eq, "7"⟩]) q.orGroups q.searches
        (p.select.front .postgres) (p.select.back .postgres) := by
  obtain ⟨q, hq, hrequest⟩ := exists_eq_ok
    (x := Query.ofPairs (pairs "null" "1,2" "x" "1.5" "foo"))
    (p := fun q => decide (q = request "null" "1,2" "x" "1.5" "foo")) (by decide +kernel)
  obtain rfl := of_decide_eq_true hrequest
  obtain ⟨p, hp, -⟩ := exists_eq_ok (x := registry.compileAs .postgres orders
    (request "null" "1,2" "x" "1.5" "foo") (.one "7")) (p := fun _ => true) (by decide +kernel)
  exact ⟨_, p, hq, rfl, hp, (registry.guardedBy_of_compileAs hq hp).1⟩

end Shop

end EntityRest

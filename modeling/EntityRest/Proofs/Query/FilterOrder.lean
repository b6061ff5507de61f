import EntityRest.Proofs.Query.Order
import EntityRest.Proofs.Query.Where

/-! # Parameters in another order

Lists of parameters that give every name the same values in the same order ask for the same thing.
The conditions of their plain filters stand where the filters stood, each with its own values, and
nothing else of the statements moves. -/

namespace EntityRest

open List (Forall₂)

/-! ## The same values under every name -/

namespace Pairs

theorem valuesOf_eq_nil {name : String} {ps : Pairs} (h : ∀ p ∈ ps, p.1 ≠ name) :
    valuesOf name ps = [] := by
  simpa [valuesOf] using h

theorem same_iff {ps qs : Pairs} :
    Same ps qs ↔ ∀ p ∈ ps ++ qs, valuesOf p.1 ps = valuesOf p.1 qs := by
  constructor
  · exact fun h p _ => h p.1
  · intro h name
    by_cases hname : ∃ p ∈ ps ++ qs, p.1 = name
    · obtain ⟨p, hp, rfl⟩ := hname
      exact h p hp
    · have hnot : ∀ p ∈ ps ++ qs, p.1 ≠ name := fun p hp heq => hname ⟨p, hp, heq⟩
      obtain ⟨hps, hqs⟩ := List.forall_mem_append.mp hnot
      rw [valuesOf_eq_nil hps, valuesOf_eq_nil hqs]

instance (ps qs : Pairs) : Decidable (Same ps qs) := decidable_of_iff _ same_iff.symm

end Pairs

/-! ## The members of a conjunction -/

namespace Schema

variable (d : Dialect) (s : Schema)

def clauseConjunct (c : Clause) : Except QueryError Conjunct :=
  Condition.conjunct d (.one (clauseComparison c))

def filterConjunct (f : Filter) : Except QueryError Conjunct := do
  Condition.conjunct d (.one (← s.filterComparison d f))

/-- The member of a plain parameter. -/
def pairConjunct (p : String × String) : Except QueryError Conjunct := do
  s.filterConjunct d (← Filter.ofPair p.1 p.2)

def groupConjunct (g : List Filter) : Except QueryError Conjunct := do
  Condition.conjunct d (.any (← g.mapM (s.filterComparison d)))

def searchConjunct (x : Search) : Except QueryError Conjunct := do
  Condition.conjunct d (.any (← x.fields.mapM (s.searchComparison x.term)))

/-- The members of two conjunctions are the same but for those of plain parameters, which stand in
the order of the parameters. -/
def FiltersMoved (ps qs : Pairs) (cs cs' : List Conjunct) : Prop :=
  ∃ statics asked asked' others,
    cs = statics ++ asked ++ others ∧ cs' = statics ++ asked' ++ others ∧
    s.filters.mapM (clauseConjunct d) = .ok statics ∧
    ps.plain.mapM (s.pairConjunct d) = .ok asked ∧
    qs.plain.mapM (s.pairConjunct d) = .ok asked' ∧
    asked.Perm asked'

end Schema

/-- Both statements are the same but for the order of the conditions of plain parameters. -/
def Statement.FiltersMoved (d : Dialect) (s : Schema) (ps qs : Pairs) (st st' : Statement) : Prop :=
  ∃ front back cs cs', s.FiltersMoved d ps qs cs cs' ∧
    st = Fragment.statement d (front ++ Conjunct.clause d cs ++ back) ∧
    st' = Fragment.statement d (front ++ Conjunct.clause d cs' ++ back)

/-- Both plans are the same but for the order of the conditions of plain parameters. -/
structure Plan.FiltersMoved (d : Dialect) (s : Schema) (ps qs : Pairs) (p p' : Plan) : Prop
    extends Plan.Reordered p p' where
  rows : s.FiltersMoved d ps qs p.select.body.conjuncts p'.select.body.conjuncts
  counted : ∀ c ∈ p.count, ∀ c' ∈ p'.count, s.FiltersMoved d ps qs c.conjuncts c'.conjuncts

namespace Schema

variable {d : Dialect} {s : Schema}

/-- The members of a request are made one by one: of the static clauses, of the filters, of the
groups and of the searches. -/
theorem conjuncts_of_conditions {q : Query} {conditions : List Condition}
    (h : s.conditions d q = .ok conditions) {cs : List Conjunct}
    (hcs : Forall₂ (fun c p => Condition.conjunct d c = .ok p) conditions cs) :
    ∃ statics asked groups found, cs = statics ++ asked ++ groups ++ found ∧
      s.filters.mapM (clauseConjunct d) = .ok statics ∧
      q.filters.mapM (s.filterConjunct d) = .ok asked ∧
      q.orGroups.mapM (s.groupConjunct d) = .ok groups ∧
      q.searches.mapM (s.searchConjunct d) = .ok found := by
  obtain ⟨filters, groups, searches, hfilters, hgroups, hsearches, rfl⟩ := conditions_eq_ok.mp h
  obtain ⟨cs, found, rfl, hcs, hfound⟩ := exists_append_of_forall₂ hcs
  obtain ⟨cs, grouped, rfl, hcs, hgrouped⟩ := exists_append_of_forall₂ hcs
  obtain ⟨statics, asked, rfl, hstatics, hasked⟩ := exists_append_of_forall₂ hcs
  have hmap {α : Type} {f : α → Condition} {xs : List α} {ps : List Conjunct}
      (hps : Forall₂ (fun c p => Condition.conjunct d c = .ok p) (xs.map f) ps) :
      (xs.mapM fun x => Condition.conjunct d (f x)) = .ok ps :=
    mapM_eq_ok.mpr (List.forall₂_map_left_iff.mp hps)
  refine ⟨statics, asked, grouped, found, rfl, ?_, ?_, ?_, ?_⟩
  · exact hmap (f := fun c => .one (clauseComparison c)) (List.map_map.symm ▸ hstatics)
  · exact mapM_bind (mapM_eq_ok.mpr hfilters) (hmap hasked)
  · exact mapM_bind (mapM_eq_ok.mpr (hgroups.imp fun _ _ hg => mapM_eq_ok.mpr hg)) (hmap hgrouped)
  · exact mapM_bind (mapM_eq_ok.mpr (hsearches.imp fun _ _ hx => mapM_eq_ok.mpr hx)) (hmap hfound)

end Schema

/-! ## Two lists of parameters -/

namespace Registry

variable {reg : Registry} {d : Dialect} {s : Schema} {m : ReadMode} {ps qs : Pairs} {p p' : Plan}

/-- Reads parameters and compiles what they ask for. -/
def compilePairs (reg : Registry) (d : Dialect) (s : Schema) (m : ReadMode) (ps : Pairs) :
    Except QueryError Plan := do
  reg.compileAs d s (← Query.ofPairs ps) m

/-- Members made of both requests are the same, but for those of the plain parameters. -/
theorem filtersMoved_of_conditions {q q' : Query} (hq : Query.ofPairs ps = .ok q)
    (hq' : Query.ofPairs qs = .ok q') (hsame : Pairs.Same ps qs)
    {conditions conditions' : List Condition}
    (h : s.conditions d (m.query s q) = .ok conditions)
    (h' : s.conditions d (m.query s q') = .ok conditions') {cs cs' : List Conjunct}
    (hcs : Forall₂ (fun c p => Condition.conjunct d c = .ok p) conditions cs)
    (hcs' : Forall₂ (fun c p => Condition.conjunct d c = .ok p) conditions' cs') :
    s.FiltersMoved d ps qs cs cs' := by
  obtain ⟨statics, asked, groups, found, rfl, hstatics, hasked, hgroups, hfound⟩ :=
    Schema.conjuncts_of_conditions h hcs
  obtain ⟨statics', asked', groups', found', rfl, hstatics', hasked', hgroups', hfound'⟩ :=
    Schema.conjuncts_of_conditions h' hcs'
  have htaken := Query.takenFrom_of_ofPairs hq
  have htaken' := Query.takenFrom_of_ofPairs hq'
  obtain ⟨hperm, hrest⟩ := htaken.reordered htaken' hsame
  -- only the filters differ, so the other members are made of the same parts
  obtain rfl := Except.ok.inj (hstatics.symm.trans hstatics')
  have hor : q'.orGroups = q.orGroups := by rw [hrest]
  have hsearch : q'.searches = q.searches := by rw [hrest]
  rw [m.query_orGroups] at hgroups hgroups'
  rw [m.query_searches] at hfound hfound'
  obtain rfl := Except.ok.inj (hgroups.symm.trans (hor ▸ hgroups'))
  obtain rfl := Except.ok.inj (hfound.symm.trans (hsearch ▸ hfound'))
  -- the filter of an id stands behind the plain ones in both
  rw [m.query_filters, mapM_eq_ok] at hasked hasked'
  obtain ⟨plain, key, rfl, hplain, hkey⟩ := exists_append_of_forall₂ hasked
  obtain ⟨plain', key', rfl, hplain', hkey'⟩ := exists_append_of_forall₂ hasked'
  obtain rfl := Except.ok.inj ((mapM_eq_ok.mpr hkey).symm.trans (mapM_eq_ok.mpr hkey'))
  obtain ⟨moved, hmoved, hpermuted⟩ := List.perm_comp_forall₂ hperm hplain'
  obtain rfl := Except.ok.inj ((mapM_eq_ok.mpr hplain).symm.trans (mapM_eq_ok.mpr hmoved))
  refine ⟨statics, plain, plain', key ++ groups ++ found, ?_, ?_, hstatics, ?_, ?_, hpermuted⟩
  · simp only [List.append_assoc]
  · simp only [List.append_assoc]
  · exact mapM_bind htaken.filters (mapM_eq_ok.mpr hplain)
  · exact mapM_bind htaken'.filters (mapM_eq_ok.mpr hplain')

theorem filtersMoved_of_compilePairs (hsame : Pairs.Same ps qs)
    (h : reg.compilePairs d s m ps = .ok p) (h' : reg.compilePairs d s m qs = .ok p') :
    p.FiltersMoved d s ps qs p' := by
  obtain ⟨q, hq, hp⟩ := bind_eq_ok.mp h
  obtain ⟨q', hq', hp'⟩ := bind_eq_ok.mp h'
  have hreordered : p.Reordered p' := by
    have htaken' := Query.takenFrom_of_ofPairs hq'
    have hqueries := (Query.takenFrom_of_ofPairs hq).reordered htaken' hsame
    obtain ⟨p₁, hp₁, hplans⟩ := exists_compileAs_of_reordered hqueries hp
    obtain rfl := Except.ok.inj (hp₁.symm.trans hp')
    exact hplans
  obtain ⟨hreads, hcounts⟩ := reads_of_compileAs hp
  obtain ⟨hreads', hcounts'⟩ := reads_of_compileAs hp'
  refine { hreordered with rows := ?_, counted := fun c hc c' hc' => ?_ }
  · obtain ⟨_, hconditions, hconjuncts⟩ := hreads.exists_conditions
    obtain ⟨_, hconditions', hconjuncts'⟩ := hreads'.exists_conditions
    exact filtersMoved_of_conditions hq hq' hsame hconditions hconditions' hconjuncts hconjuncts'
  · obtain ⟨_, hconditions, hconjuncts⟩ := (hcounts c hc).exists_conditions
    obtain ⟨_, hconditions', hconjuncts'⟩ := (hcounts' c' hc').exists_conditions
    exact filtersMoved_of_conditions hq hq' hsame hconditions hconditions' hconjuncts hconjuncts'

theorem exists_compilePairs_of_same (hsame : Pairs.Same ps qs)
    (h : reg.compilePairs d s m ps = .ok p) : ∃ p', reg.compilePairs d s m qs = .ok p' := by
  obtain ⟨q, hq, hp⟩ := bind_eq_ok.mp h
  obtain ⟨q', hq', hqueries⟩ := Query.exists_ofPairs_of_same hsame hq
  obtain ⟨p', hp', -⟩ := exists_compileAs_of_reordered hqueries hp
  exact ⟨p', bind_eq_ok.mpr ⟨q', hq', hp'⟩⟩

end Registry

/-! ## The statements of both plans -/

section Statements

variable {d : Dialect} {s : Schema} {ps qs : Pairs}

theorem Select.Reordered.around_eq {t t' : Select} (h : t.Reordered t') :
    t.front d = t'.front d ∧ t.back d = t'.back d := by
  obtain ⟨body, joins⟩ := t
  rw [h.2]
  exact ⟨rfl, rfl⟩

theorem Count.Reordered.around_eq {c c' : Count} (h : c.Reordered c') :
    c.front d = c'.front d ∧ c.back d = c'.back d := by
  cases h with
  | groups h =>
      obtain ⟨hfront, hback⟩ := h.around_eq (d := d)
      simp only [Count.front, Count.back, hfront, hback, and_self]
  | rows h => exact ⟨rfl, rfl⟩

theorem Select.Reordered.statement {t t' : Select} (h : t.Reordered t')
    (hmoved : s.FiltersMoved d ps qs t.body.conjuncts t'.body.conjuncts) :
    (Fragment.statement d (t.fragments d)).FiltersMoved d s ps qs
      (Fragment.statement d (t'.fragments d)) := by
  obtain ⟨hfront, hback⟩ := h.around_eq (d := d)
  refine ⟨t.front d, t.back d, _, _, hmoved, ?_, ?_⟩
  · rw [Select.fragments_eq, Conjunct.clause_eq]
  · rw [Select.fragments_eq, Conjunct.clause_eq, hfront, hback]

theorem Count.Reordered.statement {c c' : Count} (h : c.Reordered c')
    (hmoved : s.FiltersMoved d ps qs c.conjuncts c'.conjuncts) :
    (Fragment.statement d (c.fragments d)).FiltersMoved d s ps qs
      (Fragment.statement d (c'.fragments d)) := by
  obtain ⟨hfront, hback⟩ := h.around_eq (d := d)
  refine ⟨c.front d, c.back d, _, _, hmoved, ?_, ?_⟩
  · rw [Count.fragments_eq, Conjunct.clause_eq]
  · rw [Count.fragments_eq, Conjunct.clause_eq, hfront, hback]

theorem Plan.FiltersMoved.countStatement? {p p' : Plan} (h : p.FiltersMoved d s ps qs p') :
    Option.Rel (Statement.FiltersMoved d s ps qs) (p.countStatement? d) (p'.countStatement? d) := by
  obtain ⟨_, count, _, _, _, _⟩ := p
  obtain ⟨_, count', _, _, _, _⟩ := p'
  have hcounted := h.counted
  cases h.count with
  | none => exact .none
  | some hreordered => exact .some (hreordered.statement (hcounted _ rfl _ rfl))

end Statements

/-- Parameters of different names may change places. Either both lists can be read and compiled or
neither can, and then the plans and their statements differ at most in the order of the conditions
of plain filters. -/
theorem Registry.compilePairs_of_same {ps qs : Pairs} (hsame : Pairs.Same ps qs) (reg : Registry)
    (d : Dialect) (s : Schema) (m : ReadMode) :
    ((∃ p, reg.compilePairs d s m ps = .ok p) ↔ ∃ p', reg.compilePairs d s m qs = .ok p') ∧
      ∀ p p', reg.compilePairs d s m ps = .ok p → reg.compilePairs d s m qs = .ok p' →
        p.FiltersMoved d s ps qs p' ∧
        (p.selectStatement d).FiltersMoved d s ps qs (p'.selectStatement d) ∧
        Option.Rel (Statement.FiltersMoved d s ps qs) (p.countStatement? d)
          (p'.countStatement? d) := by
  have hsame' : Pairs.Same qs ps := fun name => (hsame name).symm
  refine ⟨⟨fun ⟨p, hp⟩ => exists_compilePairs_of_same hsame hp,
    fun ⟨p', hp'⟩ => exists_compilePairs_of_same hsame' hp'⟩, fun p p' hp hp' => ?_⟩
  have hmoved := filtersMoved_of_compilePairs hsame hp hp'
  exact ⟨hmoved, hmoved.select.statement hmoved.rows, hmoved.countStatement?⟩

namespace Shop

/-- Two filters of one name, in their order among parameters in another order. -/
def shuffled : Pairs :=
  [("$page", "2"), ("extra.a.b", "x"), ("title.$ne", "null"), ("$search", "title,extra.c=foo"),
    ("title.$ne", "old"), ("$or", "paid.$gt=1.5||title.$ilike=1.5"), ("id.$in", "1,2")]

theorem shuffled_filtersMoved :
    Pairs.Same (pairs "null" "1,2" "x" "1.5" "foo" ++ [("title.$ne", "old")]) shuffled ∧
      ∃ p p', registry.compilePairs .postgres orders (.page ⟨10, 50⟩)
          (pairs "null" "1,2" "x" "1.5" "foo" ++ [("title.$ne", "old")]) = .ok p ∧
        registry.compilePairs .postgres orders (.page ⟨10, 50⟩) shuffled = .ok p' ∧
        p.FiltersMoved .postgres orders
          (pairs "null" "1,2" "x" "1.5" "foo" ++ [("title.$ne", "old")]) shuffled p' := by
  have hsame : Pairs.Same (pairs "null" "1,2" "x" "1.5" "foo" ++ [("title.$ne", "old")])
      shuffled := by decide +kernel
  obtain ⟨hiff, hmoved⟩ := registry.compilePairs_of_same hsame .postgres orders (.page ⟨10, 50⟩)
  obtain ⟨p, hp, -⟩ := exists_eq_ok (x := registry.compilePairs .postgres orders (.page ⟨10, 50⟩)
    (pairs "null" "1,2" "x" "1.5" "foo" ++ [("title.$ne", "old")])) (p := fun _ => true)
    (by decide +kernel)
  obtain ⟨p', hp'⟩ := hiff.mp ⟨p, hp⟩
  exact ⟨hsame, p, p', hp, hp', (hmoved p p' hp hp').1⟩

end Shop

end EntityRest

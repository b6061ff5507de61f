import EntityRest.Proofs.Query.FilterOrder
import EntityRest.Proofs.Query.Mentions
import EntityRest.Proofs.Query.Nesting

/-! # Refused requests

A request is refused for a text of its own, which the error names, or for a clause of a schema that
does not suit its operator or the dialect. The request without parameters is refused exactly where
its statement uses such a clause. -/

namespace EntityRest

/-! ## Comparisons -/

namespace Comparison

variable {d : Dialect} {c : Comparison}

/-- The operator takes such a right-hand side, and the dialect has the operator. -/
def suits (d : Dialect) (c : Comparison) : Bool :=
  let written := decide (d ≠ .sqlserver) || decide (c.op ≠ .regexp ∧ c.op ≠ .nregexp)
  match c.rhs with
  | .null => decide (c.op = .eq ∨ c.op = .ne)
  | .list _ => decide (c.op = .within ∨ c.op = .without)
  | .value _ => written
  | .column _ => written && decide (c.op ≠ .within ∧ c.op ≠ .without)

theorem exists_withSide_iff {side : Side} (h : membership? c.op = none) :
    (∃ p, c.withSide d side = .ok p) ↔
      d ≠ .sqlserver ∨ (c.op ≠ .regexp ∧ c.op ≠ .nregexp) := by
  unfold withSide
  cases hop : c.op with
  | within | without => rw [hop] at h; cases h
  | regexp | nregexp => cases d <;> simp [comparator?, regexp?, Dialect.regexpParts?]
  | _ => simp [comparator?]

/-- Exactly the suitable comparisons become conditions. -/
theorem exists_predicate_iff : (∃ p, c.predicate d = .ok p) ↔ c.suits d = true := by
  unfold predicate suits
  cases hrhs : c.rhs with
  | null => cases c.op <;> simp [nullTest?]
  | list vs => cases c.op <;> simp [membership?]
  | value v =>
      cases hop : membership? c.op with
      | none => simp [exists_withSide_iff hop]
      | some negated =>
          have hmember : c.op ≠ .regexp ∧ c.op ≠ .nregexp := by
            constructor <;> intro h <;> rw [h] at hop <;> cases hop
          simp [hmember]
  | column t =>
      cases hop : membership? c.op with
      | none =>
          have hplain : c.op ≠ .within ∧ c.op ≠ .without := by
            constructor <;> intro h <;> rw [h] at hop <;> cases hop
          simp [exists_withSide_iff hop, hplain]
      | some negated =>
          have hmember : c.op = .within ∨ c.op = .without := by
            revert hop
            cases c.op <;> simp [membership?]
          simp [← not_or, hmember]

theorem key_of_withSide {side : Side} {e : QueryError} (h : c.withSide d side = .error e) :
    e.key = c.param := by
  unfold withSide at h
  split at h
  · cases h
  · split at h <;> cases h
    rfl
  · cases h
    rfl

/-- A comparison is refused by the name that it was given. -/
theorem key_of_predicate {e : QueryError} (h : c.predicate d = .error e) : e.key = c.param := by
  unfold predicate at h
  split at h
  · split at h <;> cases h
    rfl
  · split at h <;> cases h
    rfl
  · split at h
    · cases h
    · exact key_of_withSide h
  · split at h
    · cases h
      rfl
    · exact key_of_withSide h

theorem suits_of_predicate_error {e : QueryError} (h : c.predicate d = .error e) :
    c.suits d = false := by
  rw [Bool.eq_false_iff, Ne, ← exists_predicate_iff]
  rintro ⟨p, hp⟩
  cases hp.symm.trans h

end Comparison

/-! ## Static clauses -/

/-- The static clauses of a schema: its filters and the conditions of its relations. -/
def Schema.clauses (s : Schema) : List Clause :=
  s.filters ++ s.relations.flatMap Relation.conditions

/-- A static clause of a schema that reads the expression is not suitable. -/
def Registry.Faulty (reg : Registry) (d : Dialect) (expr : String) : Prop :=
  ∃ t ∈ reg.schemas, ∃ c ∈ t.clauses, c.column = expr ∧
    (Schema.clauseComparison c).suits d = false

/-! ## Compiling requests -/

/-- A comparison that does not become a condition is one of the condition. -/
theorem Condition.exists_of_conjunct_error {d : Dialect} {c : Condition} {e : QueryError}
    (h : c.conjunct d = .error e) : ∃ x ∈ c.comparisons, x.predicate d = .error e := by
  cases c with
  | one c => exact ⟨c, List.mem_singleton_self c, map_eq_error.mp h⟩
  | any cs => exact exists_of_mapM_eq_error (map_eq_error.mp h)

namespace Schema

variable {d : Dialect} {derived : String → Except QueryError Select} {s : Schema} {e : QueryError}

/-- A join that is refused has a condition that is, or the statement of its entity is. -/
theorem exists_of_join_error {rel : Relation} (h : join d derived rel = .error e) :
    (∃ c ∈ rel.conditions, (clauseComparison c).predicate d = .error e) ∨
      ∃ name, rel.source = .entity name ∧ derived name = .error e := by
  have hhead (h : joinHead d rel = .error e) :
      ∃ c ∈ rel.conditions, (clauseComparison c).predicate d = .error e := by
    rcases bind_eq_error.mp h with h | ⟨_, -, h⟩
    · exact exists_of_mapM_eq_error h
    · cases h
  unfold join at h
  split at h
  · rcases bind_eq_error.mp h with h | ⟨_, -, h⟩
    · exact .inl (hhead h)
    · cases h
  · rename_i name hsource
    rcases bind_eq_error.mp h with h | ⟨_, -, h⟩
    · exact .inr ⟨name, hsource, h⟩
    rcases bind_eq_error.mp h with h | ⟨_, -, h⟩
    · exact .inl (hhead h)
    · cases h

/-- What the statements of a settled request are refused for: one of its comparisons, a static
clause, or the statement of a joined entity. -/
inductive Refused (d : Dialect) (derived : String → Except QueryError Select) (s : Schema)
    (r : Resolved) (e : QueryError) : Prop
  | comparison {c x} (hc : c ∈ r.conditions) (hx : x ∈ c.comparisons)
      (h : x.predicate d = .error e)
  | clause {c} (hc : c ∈ s.clauses) (h : (clauseComparison c).predicate d = .error e)
  | joined {name} (hname : name ∈ s.dependencies) (h : derived name = .error e)

variable {r : Resolved}

theorem refused_of_joins {exprs : List String}
    (h : (s.requiredJoins exprs).mapM (join d derived) = .error e) : s.Refused d derived r e := by
  obtain ⟨rel, hrel, h⟩ := exists_of_mapM_eq_error h
  replace hrel := requiredJoins_subset exprs hrel
  rcases exists_of_join_error h with ⟨c, hc, h⟩ | ⟨name, hsource, h⟩
  · exact .clause (List.mem_append_right _ (List.mem_flatMap.mpr ⟨rel, hrel, hc⟩)) h
  · exact .joined (mem_dependencies.mpr ⟨rel, hrel, hsource⟩) h

theorem refused_of_conjuncts (h : r.conditions.mapM (Condition.conjunct d) = .error e) :
    s.Refused d derived r e := by
  obtain ⟨c, hc, h⟩ := exists_of_mapM_eq_error h
  obtain ⟨x, hx, h⟩ := Condition.exists_of_conjunct_error h
  exact .comparison hc hx h

theorem refused_of_rowSelect {window : Option Window} {ordered : Bool}
    (h : s.rowSelect d derived r window ordered = .error e) : s.Refused d derived r e := by
  rcases bind_eq_error.mp h with h | ⟨_, -, h⟩
  · exact refused_of_joins h
  rcases bind_eq_error.mp h with h | ⟨_, -, h⟩
  · exact refused_of_conjuncts h
  · cases h

theorem refused_of_countIf {asked : Bool} (h : s.countIf d derived r asked = .error e) :
    s.Refused d derived r e := by
  unfold countIf at h
  split at h
  · replace h := map_eq_error.mp h
    unfold countSelect at h
    split at h
    · exact refused_of_rowSelect (map_eq_error.mp h)
    · rcases bind_eq_error.mp h with h | ⟨_, -, h⟩
      · exact refused_of_joins h
      rcases bind_eq_error.mp h with h | ⟨_, -, h⟩
      · exact refused_of_conjuncts h
      · cases h
  · cases h

end Schema

namespace Registry

variable {es : List EntityConfig} {reg : Registry} {d : Dialect} {s : Schema} {q : Query}
  {e : QueryError}

/-- A static clause of a schema is refused in this way. -/
def Refuses (reg : Registry) (d : Dialect) (e : QueryError) : Prop :=
  ∃ t ∈ reg.schemas, ∃ c ∈ t.clauses, (Schema.clauseComparison c).predicate d = .error e

theorem Refuses.faulty (h : reg.Refuses d e) : reg.Faulty d e.key := by
  obtain ⟨t, ht, c, hc, h⟩ := h
  exact ⟨t, ht, c, hc, (Comparison.key_of_predicate h).symm, Comparison.suits_of_predicate_error h⟩

/-- In a registry that builds there is an order in which every entity has a place behind those that
it joins. -/
theorem exists_order_of_build (h : build es = .ok reg) :
    ∃ order, reg.DependenciesFirst order ∧ reg.names ⊆ order ∧ order.length = reg.size := by
  obtain ⟨-, -, order, horder⟩ := build_eq_ok.mp h
  obtain ⟨hperm, hfirst⟩ := spec_of_buildOrder (nodup_names_of_build h) horder
  refine ⟨order, hfirst, hperm.symm.subset, ?_⟩
  rw [hperm.length_eq, names, List.length_map, size]

/-- The statement of a joined entity is refused only for clauses of schemas: a depth above its place
is deep enough. -/
theorem refuses_of_derivedSelect (hreg : reg.WellFormed) {order : List String}
    (hfirst : reg.DependenciesFirst order) (hall : reg.names ⊆ order) {n : Nat} {name : String}
    (hname : name ∈ reg.names) (hplace : order.idxOf name < n)
    (h : reg.derivedSelect d n name = .error e) : reg.Refuses d e := by
  induction n generalizing name e with
  | zero => exact absurd hplace (Nat.not_lt_zero _)
  | succ n ih =>
      obtain ⟨s, hget⟩ := Option.isSome_iff_exists.mp (isSome_get?_iff.mpr hname)
      have hs := mem_of_get? hget
      rw [derivedSelect_succ, entitySelect, hget] at h
      rcases bind_eq_error.mp h with h | ⟨r, hr, h⟩
      · exact absurd (Schema.mentions_of_resolve (hreg.schemas s hs) h) Query.not_mentions_empty
      cases Schema.refused_of_rowSelect h with
      | comparison hc hx h =>
          obtain ⟨_, _, _, conditions, _, _, -, -, hconditions, -, -, rfl⟩ :=
            Schema.resolve_eq_ok.mp hr
          rcases Schema.clause_or_mentions hconditions hc hx with ⟨clause, hclause, rfl⟩ | hmentions
          · exact ⟨s, hs, clause, List.mem_append_left _ hclause, h⟩
          · exact absurd hmentions Query.not_mentions_empty
      | clause hc h => exact ⟨s, hs, _, hc, h⟩
      | @joined b hb h =>
          have hdep : reg.DependsOn name b := ⟨s, hget, hb⟩
          have hlt := hfirst.idxOf_lt (hall hname) hdep
          exact ih ((hreg.schemas s hs).joined b hb) (by omega) h

/-- A request is refused for a child list that is not there, because it cannot be settled, for one
of its comparisons, or for a clause of a schema. -/
theorem plan_error_cases (hreg : build es = .ok reg) (hs : s ∈ reg.schemas)
    {window : Option Window} (h : reg.plan d s q window = .error e) :
    (∃ key ∈ q.includes, e = ⟨.unknownInclude, key⟩) ∨
      (∃ includes, s.resolve d q includes = .error e) ∨
      (∃ conditions, s.conditions d q = .ok conditions ∧
        ∃ c ∈ conditions, ∃ x ∈ c.comparisons, x.predicate d = .error e) ∨
      reg.Refuses d e := by
  have hwf := (build_eq_ok_iff_wellFormed.mp hreg).2
  obtain ⟨order, hfirst, hall, hsize⟩ := exists_order_of_build hreg
  have hrefused {includes : List String} {r : Resolved} (hr : s.resolve d q includes = .ok r)
      (h : s.Refused d (reg.derivedSelect d reg.size) r e) :
      (∃ conditions, s.conditions d q = .ok conditions ∧
        ∃ c ∈ conditions, ∃ x ∈ c.comparisons, x.predicate d = .error e) ∨ reg.Refuses d e := by
    cases h with
    | comparison hc hx h =>
        obtain ⟨_, _, _, conditions, _, _, -, -, hconditions, -, -, rfl⟩ :=
          Schema.resolve_eq_ok.mp hr
        exact .inl ⟨conditions, hconditions, _, hc, _, hx, h⟩
    | clause hc h => exact .inr ⟨s, hs, _, hc, h⟩
    | @joined name hname h =>
        have hmem := (hwf.schemas s hs).joined name hname
        have hplace := hsize ▸ List.idxOf_lt_length_of_mem (hall hmem)
        exact .inr (refuses_of_derivedSelect hwf hfirst hall hmem hplace h)
  rcases bind_eq_error.mp h with h | ⟨includes, -, h⟩
  · unfold includeKeys at h
    split at h
    · rename_i key hfind
      cases h
      exact .inl ⟨key, List.mem_of_find?_eq_some hfind, rfl⟩
    · cases h
  rcases bind_eq_error.mp h with h | ⟨r, hr, h⟩
  · exact .inr (.inl ⟨includes, h⟩)
  rcases bind_eq_error.mp h with h | ⟨select, -, h⟩
  · exact .inr (.inr (hrefused hr (Schema.refused_of_rowSelect h)))
  rcases bind_eq_error.mp h with h | ⟨count, -, h⟩
  · exact .inr (.inr (hrefused hr (Schema.refused_of_countIf h)))
  · cases h

theorem mentions_or_faulty_of_plan (hreg : build es = .ok reg) (hs : s ∈ reg.schemas)
    {window : Option Window} (h : reg.plan d s q window = .error e) :
    q.Mentions e.key ∨ reg.Faulty d e.key := by
  have hwf := (build_eq_ok_iff_wellFormed.mp hreg).2
  rcases plan_error_cases hreg hs h with ⟨key, hkey, rfl⟩ | ⟨includes, h⟩ |
    ⟨conditions, hconditions, c, hc, x, hx, h⟩ | h
  · exact .inl (.included hkey)
  · exact .inl (Schema.mentions_of_resolve (hwf.schemas s hs) h)
  · rw [Comparison.key_of_predicate h]
    rcases Schema.clause_or_mentions hconditions hc hx with ⟨clause, hclause, rfl⟩ | hmentions
    · have hmem : clause ∈ s.clauses := List.mem_append_left _ hclause
      exact .inr ⟨s, hs, clause, hmem, rfl, Comparison.suits_of_predicate_error h⟩
    · exact .inl hmentions
  · exact .inr h.faulty

theorem exists_plan_of_compileAs_error {m : ReadMode} (h : reg.compileAs d s q m = .error e) :
    ∃ window, reg.plan d s (m.query s q) window = .error e := by
  cases m with
  | page o =>
      rcases bind_eq_error.mp h with h | ⟨_, -, h⟩
      · exact ⟨_, h⟩
      · cases h
  | all | one id => exact ⟨none, h⟩

/-- In every mode the request is refused for what it has, for the primary key of an id, or for a
clause of a schema. -/
theorem mentions_of_compileAs (hreg : build es = .ok reg) (hs : s ∈ reg.schemas) {m : ReadMode}
    (h : reg.compileAs d s q m = .error e) :
    q.Mentions e.key ∨ (∃ id, m = .one id ∧ e.key = s.primaryKey) ∨ reg.Faulty d e.key := by
  obtain ⟨window, hplan⟩ := exists_plan_of_compileAs_error h
  rcases mentions_or_faulty_of_plan hreg hs hplan with hmentions | hfaulty
  · cases m with
    | page o | all => exact .inl hmentions
    | one id =>
        generalize e.key = key at hmentions ⊢
        cases hmentions with
        | select h => exact .inl (.select h)
        | group h => exact .inl (.group h)
        | search h => exact .inl (.search h)
        | sort h => exact .inl (.sort h)
        | included h => exact .inl (.included h)
        | alternative hg hf => exact .inl (.alternative hg hf)
        | filter h =>
            rcases List.mem_append.mp h with hf | hid
            · exact .inl (.filter hf)
            · obtain rfl := List.mem_singleton.mp hid
              exact .inr (.inl ⟨id, rfl, rfl⟩)
  · exact .inr (.inr hfaulty)

end Registry

/-! ## The request without parameters -/

/-- The static clauses in the statement that reads every row of an entity, however deep they stand:
its filters, the conditions of the relations that are joined, and those of joined entities. -/
inductive Registry.Uses (reg : Registry) (d : Dialect) : Schema → Clause → Prop where
  | filter {s c} (h : c ∈ s.filters) : Uses reg d s c
  | join {s r rel c} (hr : s.resolve d {} [] = .ok r)
      (hrel : rel ∈ s.requiredJoins (r.rowExprs true)) (hc : c ∈ rel.conditions) : Uses reg d s c
  | joined {s r rel name t c} (hr : s.resolve d {} [] = .ok r)
      (hrel : rel ∈ s.requiredJoins (r.rowExprs true)) (hsource : rel.source = .entity name)
      (hget : reg.get? name = some t) (h : Uses reg d t c) : Uses reg d s c

namespace Schema

variable {d : Dialect} {derived : String → Except QueryError Select} {s : Schema}

theorem exists_resolve_empty (d : Dialect) (s : Schema) :
    ∃ r, s.resolve d {} [] = .ok r ∧
      r.conditions = (s.filters.map clauseComparison).map .one := by
  obtain ⟨groups, hgroups⟩ : ∃ groups, s.groupExprs {}
      ((s.fields.filter fun f => !f.hidden).map (fieldColumn d)) = .ok groups := by
    simp only [groupExprs, List.mapM_nil, pure_bind]
    split <;> exact ⟨_, rfl⟩
  refine ⟨_, resolve_eq_ok.mpr ⟨_, _, _, _, groups, _, rfl, rfl, rfl, hgroups, rfl, rfl⟩, ?_⟩
  simp

theorem exists_join_iff {rel : Relation} :
    (∃ j, join d derived rel = .ok j) ↔
      (∀ name, rel.source = .entity name → ∃ sel, derived name = .ok sel) ∧
        ∀ c ∈ rel.conditions, (clauseComparison c).suits d = true := by
  have hhead : (∃ h, joinHead d rel = .ok h) ↔
      ∀ c ∈ rel.conditions, (clauseComparison c).suits d = true := by
    simp only [← Comparison.exists_predicate_iff, ← exists_mapM_eq_ok, joinHead_eq_ok, mapM_eq_ok]
    constructor
    · rintro ⟨h, on, hon, rfl⟩
      exact ⟨on, hon⟩
    · rintro ⟨on, hon⟩
      exact ⟨_, on, hon, rfl⟩
  rw [← hhead]
  cases hsource : rel.source with
  | table name =>
      simp only [join_table_eq_ok hsource]
      constructor
      · rintro ⟨j, h, hh, rfl⟩
        exact ⟨nofun, h, hh⟩
      · rintro ⟨-, h, hh⟩
        exact ⟨_, h, hh, rfl⟩
  | entity name =>
      simp only [join_entity_eq_ok hsource]
      constructor
      · rintro ⟨j, sel, h, hsel, hh, rfl⟩
        refine ⟨fun name' hname => ?_, h, hh⟩
        obtain rfl := RelationSource.entity.inj hname
        exact ⟨sel, hsel⟩
      · rintro ⟨hsel, h, hh⟩
        obtain ⟨sel, hsel⟩ := hsel name rfl
        exact ⟨_, sel, h, hsel, hh, rfl⟩

theorem exists_rowSelect_iff {r : Resolved} {window : Option Window} {ordered : Bool} :
    (∃ sel, s.rowSelect d derived r window ordered = .ok sel) ↔
      (∀ rel ∈ s.requiredJoins (r.rowExprs ordered), ∃ j, join d derived rel = .ok j) ∧
        ∀ c ∈ r.conditions, ∃ p, c.conjunct d = .ok p := by
  rw [← exists_mapM_eq_ok, ← exists_mapM_eq_ok]
  simp only [rowSelect_eq_ok, mapM_eq_ok]
  constructor
  · rintro ⟨sel, joins, conjuncts, hjoins, hconjuncts, rfl⟩
    exact ⟨⟨joins, hjoins⟩, conjuncts, hconjuncts⟩
  · rintro ⟨⟨joins, hjoins⟩, conjuncts, hconjuncts⟩
    exact ⟨_, joins, conjuncts, hjoins, hconjuncts, rfl⟩

/-- The statement of every row is there exactly if every clause in it is suitable, where this is so
for the entities that are joined. -/
theorem exists_rowSelect_empty_iff {reg : Registry} {r : Resolved} (hr : s.resolve d {} [] = .ok r)
    (hderived : ∀ name ∈ s.dependencies, ∃ t, reg.get? name = some t ∧
      ((∃ sel, derived name = .ok sel) ↔
        ∀ c, reg.Uses d t c → (clauseComparison c).suits d = true)) (window : Option Window) :
    (∃ sel, s.rowSelect d derived r window true = .ok sel) ↔
      ∀ c, reg.Uses d s c → (clauseComparison c).suits d = true := by
  obtain ⟨r', hr', hconditions⟩ := exists_resolve_empty d s
  obtain rfl := Except.ok.inj (hr'.symm.trans hr)
  have hfilters : (∀ c ∈ r'.conditions, ∃ p, c.conjunct d = .ok p) ↔
      ∀ c ∈ s.filters, (clauseComparison c).suits d = true := by
    simp only [hconditions, List.map_map, List.forall_mem_map, Function.comp_apply,
      ← Comparison.exists_predicate_iff, Condition.conjunct, map_eq_ok]
    refine forall₂_congr fun c _ => ⟨?_, ?_⟩
    · rintro ⟨_, p, hp, -⟩
      exact ⟨p, hp⟩
    · rintro ⟨p, hp⟩
      exact ⟨_, p, hp, rfl⟩
  rw [exists_rowSelect_iff, hfilters]
  simp only [exists_join_iff]
  constructor
  · rintro ⟨hjoins, hown⟩ c huses
    cases huses with
    | filter hc => exact hown c hc
    | join hr' hrel hc =>
        obtain rfl := Except.ok.inj (hr'.symm.trans hr)
        exact (hjoins _ hrel).2 c hc
    | @joined _ _ rel name t _ hr' hrel hsource hget huses =>
        obtain rfl := Except.ok.inj (hr'.symm.trans hr)
        have hdep := mem_dependencies.mpr ⟨rel, requiredJoins_subset _ hrel, hsource⟩
        obtain ⟨t', hget', hiff⟩ := hderived name hdep
        obtain rfl := Option.some.inj (hget'.symm.trans hget)
        exact hiff.mp ((hjoins rel hrel).1 name hsource) c huses
  · intro hall
    refine ⟨fun rel hrel => ⟨fun name hsource => ?_, fun c hc => ?_⟩, fun c hc => ?_⟩
    · have hdep := mem_dependencies.mpr ⟨rel, requiredJoins_subset _ hrel, hsource⟩
      obtain ⟨t, hget, hiff⟩ := hderived name hdep
      exact hiff.mpr fun c huses => hall c (.joined hr hrel hsource hget huses)
    · exact hall c (.join hr hrel hc)
    · exact hall c (.filter hc)

end Schema

namespace Registry

variable {es : List EntityConfig} {reg : Registry} {d : Dialect} {s : Schema}

/-- The statement of a joined entity is there exactly if every clause in it is suitable. -/
theorem exists_derivedSelect_iff (hreg : reg.WellFormed) {order : List String}
    (hfirst : reg.DependenciesFirst order) (hall : reg.names ⊆ order) {n : Nat} {name : String}
    (hget : reg.get? name = some s) (hplace : order.idxOf name < n) :
    (∃ sel, reg.derivedSelect d n name = .ok sel) ↔
      ∀ c, reg.Uses d s c → (Schema.clauseComparison c).suits d = true := by
  induction n generalizing name s with
  | zero => exact absurd hplace (Nat.not_lt_zero _)
  | succ n ih =>
      obtain ⟨r, hr, -⟩ := Schema.exists_resolve_empty d s
      have hname : name ∈ reg.names := isSome_get?_iff.mp (by rw [hget]; rfl)
      have hderived : ∀ b ∈ s.dependencies, ∃ t, reg.get? b = some t ∧
          ((∃ sel, reg.derivedSelect d n b = .ok sel) ↔
            ∀ c, reg.Uses d t c → (Schema.clauseComparison c).suits d = true) := by
        intro b hb
        have hjoined := (hreg.schemas s (mem_of_get? hget)).joined b hb
        obtain ⟨t, ht⟩ := Option.isSome_iff_exists.mp (isSome_get?_iff.mpr hjoined)
        have hlt := hfirst.idxOf_lt (hall hname) ⟨s, hget, hb⟩
        exact ⟨t, ht, ih ht (by omega)⟩
      rw [← Schema.exists_rowSelect_empty_iff hr hderived none]
      constructor
      · rintro ⟨sel, hsel⟩
        obtain ⟨s', r', hget', hr', hrow⟩ := derivedSelect_succ_eq_ok.mp hsel
        obtain rfl := Option.some.inj (hget'.symm.trans hget)
        obtain rfl := Except.ok.inj (hr'.symm.trans hr)
        exact ⟨sel, hrow⟩
      · rintro ⟨sel, hrow⟩
        exact ⟨sel, derivedSelect_succ_eq_ok.mpr ⟨s, r, hget, hr, hrow⟩⟩

/-- The request without parameters is compiled exactly if every clause in its statement is
suitable. -/
theorem exists_plan_empty_iff (hreg : build es = .ok reg) (hs : s ∈ reg.schemas)
    (window : Option Window) :
    (∃ p, reg.plan d s {} window = .ok p) ↔
      ∀ c, reg.Uses d s c → (Schema.clauseComparison c).suits d = true := by
  have hwf := (build_eq_ok_iff_wellFormed.mp hreg).2
  obtain ⟨order, hfirst, hall, hsize⟩ := exists_order_of_build hreg
  obtain ⟨r, hr, -⟩ := Schema.exists_resolve_empty d s
  have hderived : ∀ name ∈ s.dependencies, ∃ t, reg.get? name = some t ∧
      ((∃ sel, reg.derivedSelect d reg.size name = .ok sel) ↔
        ∀ c, reg.Uses d t c → (Schema.clauseComparison c).suits d = true) := by
    intro name hname
    have hjoined := (hwf.schemas s hs).joined name hname
    obtain ⟨t, ht⟩ := Option.isSome_iff_exists.mp (isSome_get?_iff.mpr hjoined)
    exact ⟨t, ht, exists_derivedSelect_iff hwf hfirst hall ht
      (hsize ▸ List.idxOf_lt_length_of_mem (hall hjoined))⟩
  rw [← Schema.exists_rowSelect_empty_iff hr hderived window]
  constructor
  · rintro ⟨p, hp⟩
    obtain ⟨includes, r', select, -, hincludes, hr', hselect, -⟩ := plan_eq_ok.mp hp
    obtain rfl := Except.ok.inj (show Except.ok [] = Except.ok includes from hincludes)
    obtain rfl := Except.ok.inj (hr'.symm.trans hr)
    exact ⟨select, hselect⟩
  · rintro ⟨select, hselect⟩
    have hcount : s.countIf d (reg.derivedSelect d reg.size) r
        (window.isSome && ({} : Query).isPaginated) = .ok none :=
      Schema.countIf_eq_ok.mpr (.inr ⟨Bool.and_false _, rfl⟩)
    exact ⟨_, plan_eq_ok.mpr ⟨[], r, select, none, rfl, hr, hselect, hcount, rfl⟩⟩

/-- The clauses that are used are those of schemas of the registry. -/
theorem Uses.exists_mem {c : Clause} (h : reg.Uses d s c) (hs : s ∈ reg.schemas) :
    ∃ t ∈ reg.schemas, c ∈ t.clauses := by
  induction h with
  | filter hc => exact ⟨_, hs, List.mem_append_left _ hc⟩
  | join hr hrel hc =>
      refine ⟨_, hs, List.mem_append_right _ (List.mem_flatMap.mpr ⟨_, ?_, hc⟩)⟩
      exact Schema.requiredJoins_subset _ hrel
  | joined hr hrel hsource hget _ ih => exact ih (mem_of_get? hget)

/-- A request is refused for a text of its own or the primary key of its id, or for a clause of a
schema that does not suit its operator or the dialect. Without parameters it is refused exactly if
such a clause is in its statement. -/
theorem refused (hreg : build es = .ok reg) (hs : s ∈ reg.schemas) (d : Dialect) :
    (∀ m ps e, reg.compilePairs d s m ps = .error e →
      ps.Mentions e.key ∨ (∃ id, m = .one id ∧ e.key = s.primaryKey) ∨ reg.Faulty d e.key) ∧
    ∀ m, (∀ id, m ≠ .one id) → ((∃ p, reg.compilePairs d s m [] = .ok p) ↔
      ∀ c, reg.Uses d s c → (Schema.clauseComparison c).suits d = true) := by
  constructor
  · intro m ps e h
    rcases bind_eq_error.mp h with h | ⟨q, hq, h⟩
    · exact .inl (Query.mentions_of_ofPairs h)
    · exact (mentions_of_compileAs hreg hs h).imp_left (Query.takenFrom_of_ofPairs hq).mentions
  · intro m hm
    cases m with
    | page o =>
        change (∃ p, reg.compile d o s {} = .ok p) ↔ _
        rw [← exists_plan_empty_iff hreg hs (ReadMode.window {} (.page o))]
        constructor
        · rintro ⟨p, hp⟩
          obtain ⟨plan, hplan, -⟩ := bind_eq_ok.mp hp
          exact ⟨plan, hplan⟩
        · rintro ⟨plan, hplan⟩
          exact ⟨_, bind_eq_ok.mpr ⟨plan, hplan, rfl⟩⟩
    | all => exact exists_plan_empty_iff hreg hs none
    | one id => exact absurd rfl (hm id)

end Registry

/-- All clauses of orders and payments are suitable, so requests for orders are only refused for
their own texts. -/
theorem Shop.orders_refused :
    Registry.build [ordersConfig, paymentsConfig] = .ok registry ∧
      (∀ m ps e, registry.compilePairs .postgres orders m ps = .error e →
        ps.Mentions e.key ∨ ∃ id, m = .one id ∧ e.key = orders.primaryKey) ∧
      ∀ m, (∀ id, m ≠ .one id) → ∃ p, registry.compilePairs .postgres orders m [] = .ok p := by
  have hs : orders ∈ registry.schemas := by decide
  have hsuits : ∀ t ∈ registry.schemas, ∀ c ∈ t.clauses,
      (Schema.clauseComparison c).suits .postgres = true := by decide +kernel
  obtain ⟨hrefused, hempty⟩ := Registry.refused build_eq hs .postgres
  refine ⟨build_eq, fun m ps e h => ?_, fun m hm => (hempty m hm).mpr fun c huses => ?_⟩
  · rcases hrefused m ps e h with hmentions | hid | ⟨t, ht, c, hc, -, hnot⟩
    · exact .inl hmentions
    · exact .inr hid
    · cases (hsuits t ht c hc).symm.trans hnot
  · obtain ⟨t, ht, hc⟩ := huses.exists_mem hs
    exact hsuits t ht c hc

/-! ## A filter that compares with nothing

Documents that have been viewed more often than NULL. -/

namespace Views

def config : EntityConfig where
  name := "docs"
  table := "docs"
  asName := "d"
  version := "1"
  fields := [⟨"id", "d.id", .int, none⟩, ⟨"title", "d.title", .string, none⟩]
  filters := [⟨"d.views", .gt, .null, none⟩]

def schema : Schema where
  name := "docs"
  table := "docs"
  asName := "d"
  version := "1"
  primaryKey := "id"
  flat := false
  fields := [⟨"id", "d.id", .int, false, false, {}⟩,
    ⟨"title", "d.title", .string, false, false, {}⟩]
  relations := []
  filters := [⟨"d.views", .gt, .value .null⟩]
  sorts := []
  groups := []
  children := []

/-- The registry builds, and the request without parameters is refused. -/
theorem empty_refused :
    Registry.build [config] = .ok ⟨[schema]⟩ ∧
      Registry.compilePairs ⟨[schema]⟩ .postgres schema .all [] =
        .error ⟨.invalidValue, "d.views"⟩ ∧
      ¬ Pairs.Mentions [] "d.views" ∧ schema.primaryKey ≠ "d.views" := by
  have hbuild : Registry.build [config] = .ok ⟨[schema]⟩ := by cbv
  exact ⟨hbuild, by rfl, Pairs.not_mentions_nil, by decide⟩

end Views

end EntityRest

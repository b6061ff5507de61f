import EntityRest.Proofs.Query.Plan
import EntityRest.Proofs.Schema.WellFormed

/-! # How deep derived tables are nested

In a registry without cycles the statements of joined entities are derived without any bound, and
compiled reads nest no more derived tables than there are entities. -/

namespace EntityRest

open List (Forall₂)

/-! ## Depth -/

mutual

/-- How deep derived tables are nested in a statement. -/
def Select.depth : Select → Nat
  | .mk _ joins => Join.depthAll joins

def Join.depth : Join → Nat
  | .table _ _ => 0
  | .derived _ select => Select.depth select + 1

def Join.depthAll : List Join → Nat
  | [] => 0
  | j :: js => max (Join.depth j) (Join.depthAll js)

end

/-- How deep derived tables are nested in a count; groups are counted around one. -/
def Count.depth : Count → Nat
  | .groups inner => inner.depth + 1
  | .rows _ _ _ joins _ => Join.depthAll joins

theorem Join.depthAll_le {joins : List Join} {n : Nat} :
    Join.depthAll joins ≤ n ↔ ∀ j ∈ joins, j.depth ≤ n := by
  induction joins with
  | nil => simp [Join.depthAll]
  | cons j joins ih => simp [Join.depthAll, ih]

namespace Schema

variable {d : Dialect} {derived derived' : String → Except QueryError Select} {s : Schema} {n : Nat}

theorem mem_dependencies {name : String} :
    name ∈ s.dependencies ↔ ∃ r ∈ s.relations, r.source = .entity name := by
  simp only [dependencies, List.mem_filterMap]
  refine exists_congr fun r => and_congr_right fun _ => ?_
  cases r.source <;> simp

theorem depthAll_le_of_joins {relations : List Relation} {joins : List Join}
    (hrel : relations ⊆ s.relations)
    (hderived : ∀ b ∈ s.dependencies, ∀ sel, derived b = .ok sel → sel.depth < n)
    (h : Forall₂ (fun r j => join d derived r = .ok j) relations joins) :
    Join.depthAll joins ≤ n := by
  refine Join.depthAll_le.mpr fun j hj => ?_
  obtain ⟨r, hr, hjoin⟩ := exists_of_mem_right h hj
  cases hsource : r.source with
  | table name =>
      obtain ⟨head, -, rfl⟩ := (join_table_eq_ok hsource).mp hjoin
      exact Nat.zero_le n
  | entity name =>
      obtain ⟨sel, head, hsel, -, rfl⟩ := (join_entity_eq_ok hsource).mp hjoin
      exact hderived name (mem_dependencies.mpr ⟨r, hrel hr, hsource⟩) sel hsel

theorem requiredJoins_subset (exprs : List String) : s.requiredJoins exprs ⊆ s.relations :=
  fun _ h => (List.mem_filter.mp h).1

theorem depth_le_of_rowSelect
    (hderived : ∀ b ∈ s.dependencies, ∀ sel, derived b = .ok sel → sel.depth < n) {r : Resolved}
    {window : Option Window} {ordered : Bool} {sel : Select}
    (h : s.rowSelect d derived r window ordered = .ok sel) : sel.depth ≤ n := by
  obtain ⟨joins, conjuncts, hjoins, -, rfl⟩ := rowSelect_eq_ok.mp h
  exact depthAll_le_of_joins (requiredJoins_subset _) hderived hjoins

theorem depth_le_of_countSelect
    (hderived : ∀ b ∈ s.dependencies, ∀ sel, derived b = .ok sel → sel.depth < n) {r : Resolved}
    {c : Count} (h : s.countSelect d derived r = .ok c) : c.depth ≤ n + 1 := by
  cases hgrouped : r.isGrouped with
  | true =>
      obtain ⟨inner, hinner, rfl⟩ := (countSelect_eq_ok_of_isGrouped hgrouped).mp h
      exact Nat.succ_le_succ (depth_le_of_rowSelect hderived hinner)
  | false =>
      obtain ⟨joins, conjuncts, hjoins, -, rfl⟩ :=
        (countSelect_eq_ok_of_not_isGrouped hgrouped).mp h
      exact Nat.le_succ_of_le (depthAll_le_of_joins (requiredJoins_subset _) hderived hjoins)

/-- A row statement depends only on the statements of the entities that its schema joins. -/
theorem rowSelect_congr (h : ∀ b ∈ s.dependencies, derived b = derived' b) (r : Resolved)
    (window : Option Window) (ordered : Bool) :
    s.rowSelect d derived r window ordered = s.rowSelect d derived' r window ordered := by
  have hjoin : ∀ rel ∈ s.requiredJoins (r.rowExprs ordered),
      join d derived rel = join d derived' rel := by
    intro rel hrel
    cases hsource : rel.source with
    | table name => simp only [join, hsource]
    | entity name =>
        have hmem := mem_dependencies.mpr ⟨rel, requiredJoins_subset _ hrel, hsource⟩
        simp only [join, hsource, h name hmem]
  rw [rowSelect, rowSelect, mapM_congr hjoin]

end Schema

/-! ## Statements of joined entities -/

namespace Registry

variable {reg : Registry} {d : Dialect} {name : String}

/-- The statement of an entity, from those of the entities that it joins. -/
def entitySelect (reg : Registry) (d : Dialect) (derived : String → Except QueryError Select)
    (name : String) : Except QueryError Select :=
  match reg.get? name with
  | none => .error ⟨.unknownField, name⟩
  | some s => do s.rowSelect d derived (← s.resolve d {} []) none true

/-- What the recursion over joined entities gives, without a bound on its depth: each entity comes
after those that it joins. -/
inductive Derives (reg : Registry) (d : Dialect) : String → Except QueryError Select → Prop where
  | entity (name : String) (derived : String → Except QueryError Select)
      (h : ∀ b, reg.DependsOn name b → Derives reg d b (derived b)) :
      Derives reg d name (reg.entitySelect d derived name)

theorem derivedSelect_succ (n : Nat) (name : String) :
    reg.derivedSelect d (n + 1) name = reg.entitySelect d (reg.derivedSelect d n) name := rfl

theorem entitySelect_congr {f g : String → Except QueryError Select}
    (h : ∀ b, reg.DependsOn name b → f b = g b) :
    reg.entitySelect d f name = reg.entitySelect d g name := by
  unfold entitySelect
  cases hget : reg.get? name with
  | none => rfl
  | some s =>
      have hdeps : ∀ b ∈ s.dependencies, f b = g b := fun b hb => h b ⟨s, hget, hb⟩
      simp only [Schema.rowSelect_congr hdeps]

theorem entitySelect_of_not_mem (h : name ∉ reg.names)
    (derived : String → Except QueryError Select) :
    reg.entitySelect d derived name = .error ⟨.unknownField, name⟩ := by
  have hnone : reg.get? name = none := by simpa [← isSome_get?_iff] using h
  rw [entitySelect, hnone]

theorem Derives.unique {out out' : Except QueryError Select} (h : reg.Derives d name out)
    (h' : reg.Derives d name out') : out = out' := by
  induction h generalizing out' with
  | entity name derived _ ih =>
      obtain ⟨_, derived', hrest⟩ := h'
      exact entitySelect_congr fun b hb => ih b hb (hrest b hb)

section Order

variable {order : List String} (hfirst : reg.DependenciesFirst order) (hall : reg.names ⊆ order)

include hfirst hall

/-- An entity needs no more depth than its place in the order. -/
theorem derives_derivedSelect {n : Nat} (h : name ∈ reg.names → order.idxOf name < n) :
    reg.Derives d name (reg.derivedSelect d n name) := by
  induction n generalizing name with
  | zero =>
      have hnot : name ∉ reg.names := fun hname => Nat.not_lt_zero _ (h hname)
      have hsame := entitySelect_of_not_mem (d := d) hnot fun b => .error ⟨.unknownField, b⟩
      rw [derivedSelect, ← hsame]
      exact .entity name _ fun b hb => absurd (mem_names_of_dependsOn hb) hnot
  | succ n ih =>
      rw [derivedSelect_succ]
      refine .entity name _ fun b hb => ih fun _ => ?_
      have hname := mem_names_of_dependsOn hb
      have hlt := hfirst.idxOf_lt (hall hname) hb
      have hplace := h hname
      omega

theorem depth_le_of_derives {out : Except QueryError Select} (h : reg.Derives d name out)
    {sel : Select} (hsel : out = .ok sel) : sel.depth ≤ order.idxOf name := by
  induction h generalizing sel with
  | entity name derived _ ih =>
      unfold entitySelect at hsel
      split at hsel
      · cases hsel
      · rename_i s hget
        obtain ⟨r, -, hrow⟩ := bind_eq_ok.mp hsel
        refine Schema.depth_le_of_rowSelect (fun b hb sub hsub => ?_) hrow
        have hdep : reg.DependsOn name b := ⟨s, hget, hb⟩
        exact Nat.lt_of_le_of_lt (ih b hdep hsub)
          (hfirst.idxOf_lt (hall (mem_names_of_dependsOn hdep)) hdep)

/-- Every depth that is large enough gives the statement of the recursion without a bound. -/
theorem derives_iff {n : Nat} (h : order.length ≤ n) {out : Except QueryError Select} :
    reg.Derives d name out ↔ reg.derivedSelect d n name = out := by
  have hderives : reg.Derives d name (reg.derivedSelect d n name) :=
    derives_derivedSelect hfirst hall fun hname =>
      Nat.lt_of_lt_of_le (List.idxOf_lt_length_of_mem (hall hname)) h
  constructor
  · exact hderives.unique
  · rintro rfl
    exact hderives

end Order

/-- A statement that is derived within a depth has a smaller one. -/
theorem depth_lt_of_derivedSelect {n : Nat} {sel : Select}
    (h : reg.derivedSelect d n name = .ok sel) : sel.depth < n := by
  induction n generalizing name sel with
  | zero => cases h
  | succ n ih =>
      obtain ⟨s, r, -, -, hrow⟩ := derivedSelect_succ_eq_ok.mp h
      exact Nat.lt_succ_of_le (Schema.depth_le_of_rowSelect (fun b _ sub hsub => ih hsub) hrow)

/-! ## Plans -/

theorem depth_le_of_compileAs {s : Schema} {q : Query} {m : ReadMode} {p : Plan} {n : Nat}
    (hderived : ∀ b ∈ s.dependencies, ∀ sel, reg.derivedSelect d reg.size b = .ok sel →
      sel.depth < n) (hp : reg.compileAs d s q m = .ok p) :
    p.select.depth ≤ n ∧ ∀ c ∈ p.count, c.depth ≤ n + 1 := by
  obtain ⟨page, perPage, hplan⟩ := plan_of_compileAs hp
  obtain ⟨includes, r, select, count, -, -, hselect, hcount, hp⟩ := plan_eq_ok.mp hplan
  obtain ⟨rfl, rfl⟩ : p.select = select ∧ p.count = count := by
    simp only [Plan.mk.injEq] at hp
    exact ⟨hp.1, hp.2.1⟩
  refine ⟨Schema.depth_le_of_rowSelect hderived hselect, fun c hc => ?_⟩
  rcases Schema.countIf_eq_ok.mp hcount with ⟨-, c', hc', hsome⟩ | ⟨-, hnone⟩
  · rw [hsome] at hc
    exact Option.some.inj hc ▸ Schema.depth_le_of_countSelect hderived hc'
  · rw [hnone] at hc
    cases hc

/-! ## Registries with checked references -/

/-- Behind the other checks only the order decides. -/
theorem build_eq_map {es : List EntityConfig} (hadd : addAll [] es = .ok reg.schemas)
    (hrefs : ∀ s ∈ reg.schemas, reg.checkReferences s = .ok ()) :
    build es = reg.buildOrder.map fun _ => reg := by
  have hall : reg.schemas.forM reg.checkReferences = .ok () := forM_eq_ok.mpr hrefs
  rw [build, hadd]
  change (do reg.schemas.forM reg.checkReferences; let _ ← reg.buildOrder; return reg) = _
  rw [hall]
  cases reg.buildOrder <;> rfl

/-- Descriptions that pass all other checks make a registry exactly when no entity leads back to
itself through derived tables, and else an entity is reported that leads to a cycle. Building the
order ends, and so does the recursion of compiled reads: they nest at most as many derived tables as
there are entities. -/
theorem build_eq_ok_iff_acyclic {es : List EntityConfig}
    (hresolve : Forall₂ (fun e s => EntityConfig.resolve e = .ok s) es reg.schemas)
    (hnames : (es.map EntityConfig.name).Nodup)
    (hrefs : ∀ s ∈ reg.schemas, reg.checkReferences s = .ok ()) :
    (build es = .ok reg ↔ reg.Acyclic) ∧
    (¬ reg.Acyclic →
      ∃ name ∈ reg.names, build es = .error (.cycle name) ∧ reg.LeadsToCycle name) ∧
    (∀ out, reg.Passes reg.sortedNames [] out ↔ reg.buildOrder = out) ∧
    (∀ order, reg.buildOrder = .ok order → order.Perm reg.names ∧ reg.DependenciesFirst order) ∧
    (reg.Acyclic → ∀ d,
      (∀ name out, reg.Derives d name out ↔ reg.derivedSelect d reg.size name = out) ∧
      ∀ s q m p, reg.compileAs d s q m = .ok p →
        p.select.depth ≤ reg.size ∧ (s ∈ reg.schemas → ∀ c ∈ p.count, c.depth ≤ reg.size)) := by
  have hnodup : reg.names.Nodup := by
    rw [Registry.names, names_eq_of_resolve hresolve]
    exact hnames
  have hadd := addAll_nil_eq_ok.mpr ⟨hresolve, hnodup⟩
  have hbuild := build_eq_map hadd hrefs
  have hsupplied := supplied_of_checkReferences hrefs
  have horders := exists_buildOrder_iff hnodup hsupplied
  refine ⟨?_, fun hcyclic => ?_, fun out => passes_iff hnodup,
    fun order => spec_of_buildOrder hnodup, fun hacyclic d => ?_⟩
  · rw [hbuild, map_eq_ok, ← horders]
    simp
  · cases horder : reg.buildOrder with
    | ok order => exact absurd (horders.mp ⟨order, horder⟩) hcyclic
    | error e =>
        obtain ⟨name, hname, rfl, hleads⟩ := leadsToCycle_of_buildOrder hsupplied horder
        exact ⟨name, hname, by rw [hbuild, horder]; rfl, hleads⟩
  · obtain ⟨order, horder⟩ := horders.mpr hacyclic
    obtain ⟨hperm, hfirst⟩ := spec_of_buildOrder hnodup horder
    have hall : reg.names ⊆ order := hperm.symm.subset
    have hsize : order.length = reg.size := by
      rw [hperm.length_eq, Registry.names, List.length_map, size]
    have hderives (name : String) (out : Except QueryError Select) :
        reg.Derives d name out ↔ reg.derivedSelect d reg.size name = out :=
      derives_iff hfirst hall hsize.le
    refine ⟨hderives, fun s q m p hp => ⟨?_, fun hs => ?_⟩⟩
    · exact (depth_le_of_compileAs (fun b _ sel => depth_lt_of_derivedSelect) hp).1
    · -- whatever a schema joins has a smaller place than the schema
      have hget : reg.get? s.name = some s := (find?_key_eq_some_iff hnodup).mpr ⟨hs, rfl⟩
      have hplace : order.idxOf s.name < reg.size :=
        hsize ▸ List.idxOf_lt_length_of_mem (hall (List.mem_map_of_mem hs))
      refine fun c hc => Nat.le_trans ((depth_le_of_compileAs (fun b hb sel hsel => ?_) hp).2 c hc)
        hplace
      have hdep : reg.DependsOn s.name b := ⟨s, hget, hb⟩
      exact Nat.lt_of_le_of_lt
        (depth_le_of_derives hfirst hall ((hderives b _).mpr hsel) rfl)
        (hfirst.idxOf_lt (hall (mem_names_of_dependsOn hdep)) hdep)

end Registry

/-! ## Two entities that join each other -/

namespace Mirrors

def config (name other : String) : EntityConfig where
  name := name
  table := name
  asName := "m"
  version := "1"
  fields := [⟨"id", "m.id", .int, none⟩]
  relations := [⟨.left, none, some other, "x", []⟩]

def schema (name other : String) : Schema where
  name := name
  table := name
  asName := "m"
  version := "1"
  primaryKey := "id"
  flat := false
  fields := [⟨"id", "m.id", .int, false, false, {}⟩]
  relations := [⟨.left, .entity other, "x", []⟩]
  filters := []
  sorts := []
  groups := []
  children := []

def registry : Registry := ⟨[schema "a" "b", schema "b" "a"]⟩

theorem not_acyclic : ¬ registry.Acyclic := by
  intro hacyclic
  have there : registry.DependsOn "a" "b" :=
    ⟨schema "a" "b", by decide +kernel, by decide +kernel⟩
  have back : registry.DependsOn "b" "a" :=
    ⟨schema "b" "a", by decide +kernel, by decide +kernel⟩
  exact hacyclic "a" (.tail (.single there) back)

/-- Orders and payments make a registry as long as there is no cycle; here is one. -/
theorem build_or_cycle :
    (Registry.build [Shop.ordersConfig, Shop.paymentsConfig] = .ok Shop.registry ↔
      Shop.registry.Acyclic) ∧
    ∃ name ∈ registry.names,
      Registry.build [config "a" "b", config "b" "a"] = .error (.cycle name) ∧
        registry.LeadsToCycle name := by
  have hshop : Forall₂ (fun e s => EntityConfig.resolve e = .ok s)
      [Shop.ordersConfig, Shop.paymentsConfig] Shop.registry.schemas :=
    .cons (by cbv) (.cons (by cbv) .nil)
  have hmirrors : Forall₂ (fun e s => EntityConfig.resolve e = .ok s)
      [config "a" "b", config "b" "a"] registry.schemas :=
    .cons (by cbv) (.cons (by cbv) .nil)
  obtain ⟨hiff, -⟩ := Registry.build_eq_ok_iff_acyclic hshop (by decide) (by decide +kernel)
  obtain ⟨-, hcycle, -⟩ := Registry.build_eq_ok_iff_acyclic hmirrors (by decide) (by decide +kernel)
  exact ⟨hiff, hcycle not_acyclic⟩

end Mirrors

end EntityRest

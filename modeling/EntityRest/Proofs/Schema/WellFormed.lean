import EntityRest.Proofs.Query.Join
import EntityRest.Proofs.Schema.BuildOrder
import EntityRest.Proofs.Text.Split

/-! # Well-formed registries

A registry is built exactly when its schemas are well formed: keys and aliases are distinct, every
expression but those that static filters compare with uses declared aliases, the primary key is a
column of the own table, references lead somewhere, and derived tables form no cycle. -/

namespace EntityRest

open List (Forall₂)

/-- The expression that a clause compares with, if there is one. -/
def Operand.exprs : Operand → List String
  | value _ => []
  | column e => [e]

theorem Clause.exprs_eq (c : Clause) : c.exprs = c.column :: c.operand.exprs := by
  unfold exprs
  cases c.operand <;> rfl

namespace Schema

/-! ## Expressions -/

/-- Every expression of a schema: those of its fields, on both sides of join conditions and of
static filters, of its sorts and of its groups. -/
def allExprs (s : Schema) : List String :=
  s.fields.map Field.expr ++ s.relations.flatMap (fun r => r.conditions.flatMap Clause.exprs) ++
    s.filters.flatMap Clause.exprs ++ s.sorts.map SortRule.expr ++ s.groups

/-- The expressions that static filters compare with. -/
def comparedExprs (s : Schema) : List String := s.filters.flatMap fun c => c.operand.exprs

theorem mem_allExprs {s : Schema} {e : String} :
    e ∈ s.allExprs ↔ e ∈ s.exprs ∨ e ∈ s.comparedExprs := by
  simp only [allExprs, exprs, comparedExprs, List.mem_append, List.mem_flatMap, List.mem_map,
    Clause.exprs_eq, List.mem_cons]
  grind

/-! ## Keys and aliases -/

theorem firstRepeat?_eq_none {seen xs : List String} :
    firstRepeat? seen xs = none ↔ xs.Nodup ∧ ∀ x ∈ xs, x ∉ seen := by
  induction xs generalizing seen with
  | nil => simp [firstRepeat?]
  | cons x xs ih =>
      by_cases hx : x ∈ seen
      · simp [firstRepeat?, hx]
      · simp only [firstRepeat?, List.contains_eq_mem, hx, decide_false, Bool.false_eq_true,
          if_false, ih, List.nodup_cons, List.mem_cons]
        grind

theorem checkKeys_eq_ok {s : Schema} :
    s.checkKeys = .ok () ↔
      (s.fields.map Field.key ++ s.children.map Child.key).Nodup ∧ ∀ f ∈ s.fields, f.key ≠ "" := by
  have hnone : s.checkKeys = .ok () ↔ badFieldKey? [] (s.fields.map Field.key) = none ∧
      firstRepeat? (s.fields.map Field.key) (s.children.map Child.key) = none := by
    simp only [checkKeys]
    split
    · simp [*]
    · split <;> simp [*]
  rw [hnone, badFieldKey?_eq_none, firstRepeat?_eq_none, List.nodup_append', List.disjoint_right]
  simp only [List.not_mem_nil, not_false_eq_true, and_true, List.forall_mem_map]
  grind

theorem checkAliases_eq_ok {s : Schema} : s.checkAliases = .ok () ↔ s.aliases.Nodup := by
  have hnone : s.checkAliases = .ok () ↔ firstRepeat? [] s.aliases = none := by
    unfold checkAliases
    split <;> simp [*]
  rw [hnone, firstRepeat?_eq_none]
  simp

end Schema

/-! ## The primary key -/

/-- The expression of the field is the alias, a point and a plain name. -/
def Field.IsColumnOf (f : Field) (asName : String) : Prop :=
  '.' ∉ asName.toList ∧
    ∃ column, f.expr = asName ++ "." ++ column ∧ Expr.isIdent column.toList = true

theorem Field.isSome_columnOf?_iff {f : Field} {asName : String} :
    (f.columnOf? asName).isSome ↔ f.IsColumnOf asName := by
  have hcut (column : String) : Text.cutFirst? "." f.expr = some (asName, column) ↔
      f.expr = asName ++ "." ++ column ∧ '.' ∉ asName.toList :=
    Text.cutFirst?_eq_some_iff (by decide)
  constructor
  · intro h
    unfold columnOf? at h
    split at h
    · rename_i a column hfound
      split at h
      · rename_i hcond
        obtain ⟨rfl, hident⟩ : a = asName ∧ Expr.isIdent column.toList = true := by
          simpa using hcond
        obtain ⟨hexpr, hpoint⟩ := (hcut column).mp hfound
        exact ⟨hpoint, column, hexpr, hident⟩
      · cases h
    · cases h
  · rintro ⟨hpoint, column, hexpr, hident⟩
    simp [columnOf?, (hcut column).mpr ⟨hexpr, hpoint⟩, hident]

namespace Schema

theorem field?_eq_some_iff {s : Schema} (h : (s.fields.map Field.key).Nodup) {key : String}
    {f : Field} : s.field? key = some f ↔ f ∈ s.fields ∧ f.key = key :=
  find?_key_eq_some_iff h

theorem isSome_primaryColumn?_iff {s : Schema} (h : (s.fields.map Field.key).Nodup) :
    s.primaryColumn?.isSome ↔ ∃ f ∈ s.fields, f.key = s.primaryKey ∧ f.IsColumnOf s.asName := by
  simp only [← Field.isSome_columnOf?_iff, primaryColumn?, primaryField?]
  constructor
  · intro hsome
    obtain ⟨column, hcolumn⟩ := Option.isSome_iff_exists.mp hsome
    obtain ⟨f, hf, hcolumn⟩ := Option.bind_eq_some_iff.mp hcolumn
    obtain ⟨hmem, hkey⟩ := (field?_eq_some_iff h).mp hf
    exact ⟨f, hmem, hkey, by simp [hcolumn]⟩
  · rintro ⟨f, hmem, hkey, hcolumn⟩
    rw [(field?_eq_some_iff h).mpr ⟨hmem, hkey⟩]
    exact hcolumn

/-! ## Well-formed schemas -/

/-- What is checked of a schema in a registry. -/
structure WellFormed (reg : Registry) (s : Schema) : Prop where
  named : Text.trim s.name ≠ "" ∧ Text.trim s.table ≠ "" ∧ Text.trim s.version ≠ ""
  keys : (s.fields.map Field.key ++ s.children.map Child.key).Nodup
  key_ne : ∀ f ∈ s.fields, f.key ≠ ""
  aliases : s.aliases.Nodup
  /-- Expressions that static filters compare with are not among these. -/
  declared : Covers s.aliases s.exprs
  primary : ∃ f ∈ s.fields, f.key = s.primaryKey ∧ f.IsColumnOf s.asName
  joined : ∀ name ∈ s.dependencies, name ∈ reg.names
  children : ∀ c ∈ s.children,
    c.entity ∈ reg.names ∧ ∀ key ∈ c.placeholders, ∃ f ∈ s.fields, f.key = key

theorem isSome_field?_iff {s : Schema} {key : String} :
    (s.field? key).isSome ↔ ∃ f ∈ s.fields, f.key = key := by
  simp [field?]

theorem wellFormed_iff {reg : Registry} {s : Schema} :
    s.WellFormed reg ↔ s.validate = .ok () ∧ reg.checkReferences s = .ok () := by
  rw [validate_eq_ok, Registry.checkReferences_eq_ok, checkKeys_eq_ok, checkAliases_eq_ok]
  simp only [isSome_field?_iff]
  constructor
  · intro h
    have hprimary := (isSome_primaryColumn?_iff (List.nodup_append'.mp h.keys).1).mpr h.primary
    exact ⟨⟨h.named.1, h.named.2.1, h.named.2.2, ⟨h.keys, h.key_ne⟩, h.aliases, h.declared,
      hprimary⟩, h.joined, h.children⟩
  · rintro ⟨⟨hname, htable, hversion, ⟨hkeys, hne⟩, haliases, hdeclared, hprimary⟩, hjoined,
      hchildren⟩
    have hprimary := (isSome_primaryColumn?_iff (List.nodup_append'.mp hkeys).1).mp hprimary
    exact ⟨⟨hname, htable, hversion⟩, hkeys, hne, haliases, hdeclared, hprimary, hjoined, hchildren⟩

end Schema

/-! ## Descriptions -/

/-- The schema says what the description says. -/
structure EntityConfig.Describes (e : EntityConfig) (s : Schema) : Prop where
  fields : Forall₂ (fun c f => FieldConfig.resolve c = .ok f) e.fields s.fields
  relations : Forall₂ (fun c r => RelationConfig.resolve e.name c = .ok r) e.relations s.relations
  others : s =
    { name := e.name
      table := e.table
      asName := if e.asName = "" then e.table else e.asName
      version := e.version
      primaryKey := e.primaryKey
      flat := e.flat
      fields := s.fields
      relations := s.relations
      filters := e.filters.map ClauseConfig.resolve
      sorts := e.sorts.map fun c => ⟨c.column, c.desc, c.ignoreCase, c.required⟩
      groups := e.groups
      children := e.children.map fun c => ⟨c.key, c.entity, c.filter⟩ }

theorem EntityConfig.resolve_eq_ok {e : EntityConfig} {s : Schema} :
    e.resolve = .ok s ↔ e.Describes s ∧ s.validate = .ok () := by
  simp only [resolve, bind_eq_ok, pure_eq_ok, mapM_eq_ok]
  constructor
  · rintro ⟨fields, hfields, relations, hrelations, ⟨⟩, hvalid, rfl⟩
    exact ⟨⟨hfields, hrelations, rfl⟩, hvalid⟩
  · rintro ⟨⟨hfields, hrelations, hothers⟩, hvalid⟩
    rw [hothers] at hvalid
    exact ⟨s.fields, hfields, s.relations, hrelations, (), hvalid, hothers⟩

theorem EntityConfig.name_of_resolve {e : EntityConfig} {s : Schema} (h : e.resolve = .ok s) :
    s.name = e.name := by
  rw [(resolve_eq_ok.mp h).1.others]

namespace Registry

theorem addAll_eq_ok {es : List EntityConfig} {schemas all : List Schema}
    (hs : (schemas.map Schema.name).Nodup) :
    addAll schemas es = .ok all ↔
      ∃ more, Forall₂ (fun e s => EntityConfig.resolve e = .ok s) es more ∧
        all = schemas ++ more ∧ (all.map Schema.name).Nodup := by
  constructor
  · intro h
    have hnodup := addAll_nodup h hs
    clear hs
    induction es generalizing schemas with
    | nil => exact ⟨[], .nil, by rw [List.append_nil, Except.ok.inj h], hnodup⟩
    | cons e es ih =>
        simp only [addAll, bind_eq_ok] at h
        obtain ⟨s, he, ⟨⟩, -, h⟩ := h
        obtain ⟨more, hmore, hall, -⟩ := ih h
        exact ⟨s :: more, .cons he hmore, by rw [hall, List.append_assoc]; rfl, hnodup⟩
  · rintro ⟨more, hmore, rfl, hnodup⟩
    induction hmore generalizing schemas with
    | nil => simp [addAll]
    | @cons e s es more he _ ih =>
        rw [List.append_cons] at hnodup ⊢
        have hinit : ((schemas ++ [s]).map Schema.name).Nodup := by
          rw [List.map_append] at hnodup
          exact (List.nodup_append.mp hnodup).1
        have hnew : schemas.any (fun t => t.name = s.name) = false := by
          rw [List.map_append, List.map_singleton, List.nodup_append] at hinit
          simpa using hinit.2.2
        simp only [addAll, bind_eq_ok]
        exact ⟨s, he, (), refuseIf_eq_ok.mpr hnew, ih hinit hnodup⟩

theorem addAll_nil_eq_ok {es : List EntityConfig} {schemas : List Schema} :
    addAll [] es = .ok schemas ↔
      Forall₂ (fun e s => EntityConfig.resolve e = .ok s) es schemas ∧
        (schemas.map Schema.name).Nodup := by
  simp [addAll_eq_ok]

theorem names_eq_of_resolve {es : List EntityConfig} {schemas : List Schema}
    (h : Forall₂ (fun e s => EntityConfig.resolve e = .ok s) es schemas) :
    schemas.map Schema.name = es.map EntityConfig.name := by
  induction h with
  | nil => rfl
  | cons he _ ih => exact congrArg₂ List.cons (EntityConfig.name_of_resolve he) ih

/-! ## Well-formed registries -/

/-- What is checked of a registry. -/
structure WellFormed (reg : Registry) : Prop where
  names : reg.names.Nodup
  schemas : ∀ s ∈ reg.schemas, s.WellFormed reg
  acyclic : reg.Acyclic

variable {es : List EntityConfig} {reg : Registry}

/-- Exactly the well-formed registries are built. -/
theorem build_eq_ok_iff_wellFormed :
    build es = .ok reg ↔ Forall₂ EntityConfig.Describes es reg.schemas ∧ reg.WellFormed := by
  rw [build_eq_ok, addAll_nil_eq_ok]
  constructor
  · rintro ⟨⟨hresolve, hnames⟩, hrefs, horder⟩
    refine ⟨hresolve.imp fun e s h => (EntityConfig.resolve_eq_ok.mp h).1, hnames, ?_, ?_⟩
    · intro s hs
      obtain ⟨e, -, he⟩ := exists_of_mem_right hresolve hs
      exact Schema.wellFormed_iff.mpr ⟨(EntityConfig.resolve_eq_ok.mp he).2, hrefs s hs⟩
    · exact (exists_buildOrder_iff hnames (supplied_of_checkReferences hrefs)).mp horder
  · rintro ⟨hdescribes, hnames, hschemas, hacyclic⟩
    have hchecks := fun s hs => Schema.wellFormed_iff.mp (hschemas s hs)
    have hvalid := (List.forall₂_and_left _ _).mpr ⟨fun s hs => (hchecks s hs).1, hdescribes.flip⟩
    refine ⟨⟨hvalid.flip.imp fun e s h => EntityConfig.resolve_eq_ok.mpr ⟨h.2, h.1⟩, hnames⟩,
      fun s hs => (hchecks s hs).2, ?_⟩
    exact (exists_buildOrder_iff hnames
      (supplied_of_checkReferences fun s hs => (hchecks s hs).2)).mpr hacyclic

/-- A registry that builds is well formed. All its expressions use declared aliases exactly when
those do that static filters compare with. -/
theorem wellFormed_of_build (h : build es = .ok reg) :
    reg.WellFormed ∧
      ((∀ s ∈ reg.schemas, Schema.Covers s.aliases s.allExprs) ↔
        ∀ s ∈ reg.schemas, Schema.Covers s.aliases s.comparedExprs) := by
  have hreg := (build_eq_ok_iff_wellFormed.mp h).2
  refine ⟨hreg, fun hall s hs e he => ?_, fun hcompared s hs e he => ?_⟩
  · exact hall s hs e (Schema.mem_allExprs.mpr (.inr he))
  · rcases Schema.mem_allExprs.mp he with hchecked | hright
    · exact (hreg.schemas s hs).declared e hchecked
    · exact hcompared s hs e hright

end Registry

/-- Orders compare with nothing but values in their filter. -/
theorem Shop.wellFormed :
    Registry.build [ordersConfig, paymentsConfig] = .ok registry ∧ registry.WellFormed ∧
      ∀ s ∈ registry.schemas, Schema.Covers s.aliases s.allExprs := by
  obtain ⟨hreg, hiff⟩ := Registry.wellFormed_of_build build_eq
  refine ⟨build_eq, hreg, hiff.mpr ?_⟩
  have hnone : ∀ s ∈ registry.schemas, s.comparedExprs = [] := by decide
  intro s hs e he
  rw [hnone s hs] at he
  cases he

/-! ## A static filter that compares with something unknown

Documents of the tenant of an owner that is not declared. -/

namespace Strays

def config : EntityConfig where
  name := "docs"
  table := "docs"
  asName := "d"
  version := "1"
  fields := [⟨"id", "d.id", .int, none⟩]
  filters := [⟨"d.tenant", .eq, .null, some "o.tenant"⟩]

def schema : Schema where
  name := "docs"
  table := "docs"
  asName := "d"
  version := "1"
  primaryKey := "id"
  flat := false
  fields := [⟨"id", "d.id", .int, false, false, {}⟩]
  relations := []
  filters := [⟨"d.tenant", .eq, .column "o.tenant"⟩]
  sorts := []
  groups := []
  children := []

/-- The registry builds although nothing has the alias. -/
theorem alias_not_declared :
    Registry.build [config] = .ok ⟨[schema]⟩ ∧ "o.tenant" ∈ schema.allExprs ∧
      "o" ∈ Expr.aliases "o.tenant" ∧ "o" ∉ schema.aliases ∧
      ¬ ∀ s ∈ [schema], Schema.Covers s.aliases s.allExprs := by
  have hbuild : Registry.build [config] = .ok ⟨[schema]⟩ := by cbv
  have hexpr : "o.tenant" ∈ schema.allExprs := by decide +kernel
  have halias : "o" ∈ Expr.aliases "o.tenant" := by decide +kernel
  have hnot : "o" ∉ schema.aliases := by decide +kernel
  refine ⟨hbuild, hexpr, halias, hnot, fun hall => hnot ?_⟩
  exact hall schema (List.mem_singleton_self schema) _ hexpr _ halias

end Strays

end EntityRest

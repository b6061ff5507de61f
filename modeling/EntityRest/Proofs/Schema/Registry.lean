import Mathlib
import EntityRest.Proofs.Except
import EntityRest.Schema.Registry

/-! # Registries that build

Every schema of a registry that builds passes the checks of a single entity. -/

namespace EntityRest

theorem refuseIf_eq_ok {bad : Bool} {e : SchemaError} : refuseIf bad e = .ok () ↔ bad = false := by
  cases bad <;> simp [refuseIf]

theorem find?_key_eq_some_iff {α : Type} {key : α → String} {xs : List α} (h : (xs.map key).Nodup)
    {k : String} {x : α} : xs.find? (fun y => key y = k) = some x ↔ x ∈ xs ∧ key x = k := by
  constructor
  · exact fun hfind => ⟨List.mem_of_find?_eq_some hfind, by simpa using List.find?_some hfind⟩
  · rintro ⟨hx, rfl⟩
    have hsome : (xs.find? fun y => key y = key x).isSome :=
      List.find?_isSome.mpr ⟨x, hx, decide_eq_true rfl⟩
    obtain ⟨y, hy⟩ := Option.isSome_iff_exists.mp hsome
    have hkey : key y = key x := by simpa using List.find?_some hy
    rw [hy, List.inj_on_of_nodup_map h (List.mem_of_find?_eq_some hy) hx hkey]

namespace Schema

variable {s : Schema}

theorem checkExpr_eq_ok {expr : String} :
    s.checkExpr expr = .ok () ↔ ∀ a ∈ Expr.aliases expr, a ∈ s.aliases := by
  unfold checkExpr
  split
  · rename_i a h
    simp only [reduceCtorEq, false_iff, not_forall]
    exact ⟨a, List.mem_of_find?_eq_some h, by simpa using List.find?_some h⟩
  · rename_i h
    simpa using h

theorem validate_eq_ok :
    s.validate = .ok () ↔
      Text.trim s.name ≠ "" ∧ Text.trim s.table ≠ "" ∧ Text.trim s.version ≠ "" ∧
        s.checkKeys = .ok () ∧ s.checkAliases = .ok () ∧
        (∀ expr ∈ s.exprs, ∀ a ∈ Expr.aliases expr, a ∈ s.aliases) ∧
        s.primaryColumn?.isSome := by
  simp only [validate, then_eq_ok, refuseIf_eq_ok, forM_eq_ok, checkExpr_eq_ok,
    decide_eq_false_iff_not, Option.isNone_eq_false_iff, ne_eq]

theorem badFieldKey?_eq_none {seen keys : List String} :
    badFieldKey? seen keys = none ↔ keys.Nodup ∧ ∀ k ∈ keys, k ≠ "" ∧ k ∉ seen := by
  induction keys generalizing seen with
  | nil => simp [badFieldKey?]
  | cons k ks ih =>
      by_cases hbad : k = "" ∨ k ∈ seen
      · have hfound : badFieldKey? seen (k :: ks) ≠ none := by simp [badFieldKey?, hbad]
        refine iff_of_false hfound fun h => ?_
        have hk := h.2 k List.mem_cons_self
        exact hbad.elim hk.1 hk.2
      · have hnext : badFieldKey? seen (k :: ks) = badFieldKey? (k :: seen) ks := by
          simp [badFieldKey?, hbad]
        rw [hnext, ih]
        simp only [List.nodup_cons, List.mem_cons, not_or]
        grind

theorem nodup_keys_of_checkKeys (h : s.checkKeys = .ok ()) : (s.fields.map Field.key).Nodup := by
  simp only [checkKeys] at h
  split at h
  · cases h
  · rename_i hnone
    exact (badFieldKey?_eq_none.mp hnone).1

theorem key_of_field? {key : String} {f : Field} (h : s.field? key = some f) : f.key = key := by
  simpa using List.find?_some h

end Schema

theorem EntityConfig.validate_of_resolve {e : EntityConfig} {s : Schema}
    (h : e.resolve = .ok s) : s.validate = .ok () := by
  simp only [resolve, bind_eq_ok, pure_eq_ok] at h
  obtain ⟨_, _, _, _, ⟨⟩, hvalid, rfl⟩ := h
  exact hvalid

namespace Registry

theorem addAll_induction {P : Schema → Prop} (hP : ∀ e s, EntityConfig.resolve e = .ok s → P s)
    {es : List EntityConfig} {schemas all : List Schema} (h : addAll schemas es = .ok all)
    (hs : ∀ s ∈ schemas, P s) : ∀ s ∈ all, P s := by
  induction es generalizing schemas with
  | nil =>
      obtain rfl := Except.ok.inj h
      exact hs
  | cons e es ih =>
      simp only [addAll, bind_eq_ok] at h
      obtain ⟨s, he, ⟨⟩, -, h⟩ := h
      refine ih h ?_
      simpa [or_imp, forall_and] using ⟨hs, hP e s he⟩

theorem addAll_nodup {es : List EntityConfig} {schemas all : List Schema}
    (h : addAll schemas es = .ok all) (hs : (schemas.map Schema.name).Nodup) :
    (all.map Schema.name).Nodup := by
  induction es generalizing schemas with
  | nil =>
      obtain rfl := Except.ok.inj h
      exact hs
  | cons e es ih =>
      simp only [addAll, bind_eq_ok] at h
      obtain ⟨s, -, ⟨⟩, hnew, h⟩ := h
      have hnew : ∀ t ∈ schemas, t.name ≠ s.name := by simpa using refuseIf_eq_ok.mp hnew
      refine ih h ?_
      rw [List.map_append]
      refine List.Nodup.append hs (List.nodup_singleton s.name) ?_
      rw [List.map_singleton, List.disjoint_singleton]
      intro hmem
      obtain ⟨t, ht, hname⟩ := List.mem_map.mp hmem
      exact hnew t ht hname

variable {es : List EntityConfig} {reg : Registry}

theorem build_eq_ok :
    build es = .ok reg ↔
      addAll [] es = .ok reg.schemas ∧ (∀ s ∈ reg.schemas, reg.checkReferences s = .ok ()) ∧
        ∃ order, reg.buildOrder = .ok order := by
  simp only [build, bind_eq_ok, pure_eq_ok]
  constructor
  · rintro ⟨schemas, hadd, ⟨⟩, hrefs, order, horder, rfl⟩
    exact ⟨hadd, forM_eq_ok.mp hrefs, order, horder⟩
  · rintro ⟨hadd, hrefs, order, horder⟩
    exact ⟨reg.schemas, hadd, (), forM_eq_ok.mpr hrefs, order, horder, rfl⟩

theorem validate_of_build (h : build es = .ok reg) : ∀ s ∈ reg.schemas, s.validate = .ok () :=
  addAll_induction (fun _ _ => EntityConfig.validate_of_resolve) (build_eq_ok.mp h).1 (by simp)

/-- In a registry that builds, no two schemas share a name. -/
theorem nodup_names_of_build (h : build es = .ok reg) : (reg.schemas.map Schema.name).Nodup :=
  addAll_nodup (build_eq_ok.mp h).1 List.nodup_nil

/-- In a registry that builds, no two fields of a schema share a key. -/
theorem nodup_keys_of_build (h : build es = .ok reg) {s : Schema} (hs : s ∈ reg.schemas) :
    (s.fields.map Field.key).Nodup := by
  obtain ⟨-, -, -, hkeys, -⟩ := Schema.validate_eq_ok.mp (validate_of_build h s hs)
  exact Schema.nodup_keys_of_checkKeys hkeys

/-- In a registry that builds, expressions use no alias that is not declared. -/
theorem mem_aliases_of_build (h : build es = .ok reg) {s : Schema} (hs : s ∈ reg.schemas)
    {expr a : String} (hexpr : expr ∈ s.exprs) (ha : a ∈ Expr.aliases expr) : a ∈ s.aliases := by
  obtain ⟨-, -, -, -, -, hexprs, -⟩ := Schema.validate_eq_ok.mp (validate_of_build h s hs)
  exact hexprs expr hexpr a ha

end Registry

/-! ## A small registry

Orders that are not deleted, joined with the payments for each of them. -/

namespace Shop

def ordersConfig : EntityConfig where
  name := "orders"
  table := "orders"
  asName := "o"
  version := "1"
  fields := [⟨"id", "o.id", .int, none⟩, ⟨"title", "o.title", .string, none⟩,
    ⟨"extra", "o.extra", .json, none⟩, ⟨"paid", "p.total", .float, none⟩]
  relations := [⟨.left, none, some "payments", "p",
    [⟨"p.order_id", .eq, .null, some "o.id"⟩, ⟨"p.kind", .like, .string "card", none⟩]⟩]
  filters := [⟨"o.deleted_at", .eq, .null, none⟩]

def paymentsConfig : EntityConfig where
  name := "payments"
  table := "payments"
  asName := "y"
  version := "1"
  fields := [⟨"id", "y.id", .int, none⟩, ⟨"order_id", "y.order_id,group", .int, none⟩,
    ⟨"total", "SUM(y.amount)", .float, none⟩]
  filters := [⟨"y.void", .eq, .bool false, none⟩]

def orders : Schema where
  name := "orders"
  table := "orders"
  asName := "o"
  version := "1"
  primaryKey := "id"
  flat := false
  fields := [⟨"id", "o.id", .int, false, false, {}⟩,
    ⟨"title", "o.title", .string, false, false, {}⟩,
    ⟨"extra", "o.extra", .json, false, false, {}⟩, ⟨"paid", "p.total", .float, false, false, {}⟩]
  relations := [⟨.left, .entity "payments", "p",
    [⟨"p.order_id", .eq, .column "o.id"⟩, ⟨"p.kind", .like, .value (.string "card")⟩]⟩]
  filters := [⟨"o.deleted_at", .eq, .value .null⟩]
  sorts := []
  groups := []
  children := []

def payments : Schema where
  name := "payments"
  table := "payments"
  asName := "y"
  version := "1"
  primaryKey := "id"
  flat := false
  fields := [⟨"id", "y.id", .int, false, false, {}⟩,
    ⟨"order_id", "y.order_id", .int, false, true, {}⟩,
    ⟨"total", "SUM(y.amount)", .float, false, false, {}⟩]
  relations := []
  filters := [⟨"y.void", .eq, .value (.bool false)⟩]
  sorts := []
  groups := []
  children := []

def registry : Registry := ⟨[orders, payments]⟩

theorem build_eq : Registry.build [ordersConfig, paymentsConfig] = .ok registry := by
  cbv

end Shop

end EntityRest

import EntityRest.Proofs.Query.Nesting
import EntityRest.Proofs.Service.Reads
import EntityRest.Proofs.Service.Trace

/-! # The tables of reads

Reads of an entity come to its own table and to those that it joins, and from there to the tables of
the entities that it embeds, however deep these embed others. -/

namespace EntityRest

open List (Forall₂)

/-! ## Tables -/

mutual

/-- The tables of a statement. -/
def Select.tables : Select → List String
  | .mk b joins => b.table :: Join.tablesAll joins

def Join.tables : Join → List String
  | .table _ name => [name]
  | .derived _ select => Select.tables select

def Join.tablesAll : List Join → List String
  | [] => []
  | j :: js => Join.tables j ++ Join.tablesAll js

end

def Count.tables : Count → List String
  | .groups inner => inner.tables
  | .rows _ table _ joins _ => table :: Join.tablesAll joins

/-- The statement reads rows, of tables with the property. -/
inductive Statement.ReadsOnly (d : Dialect) (T : String → Prop) : Statement → Prop where
  | select (t : Select) (h : ∀ n ∈ t.tables, T n) :
      ReadsOnly d T (Fragment.statement d (t.fragments d))
  | count (c : Count) (h : ∀ n ∈ c.tables, T n) :
      ReadsOnly d T (Fragment.statement d (c.fragments d))

/-- A statement was given that reads rows, of tables with the property. -/
def Event.ReadsOnly (d : Dialect) (T : String → Prop) : Event → Prop
  | fetched st _ => st.ReadsOnly d T
  | executed .. => False

theorem Join.mem_tablesAll {joins : List Join} {n : String} :
    n ∈ Join.tablesAll joins ↔ ∃ j ∈ joins, n ∈ j.tables := by
  induction joins with
  | nil => simp [Join.tablesAll]
  | cons j joins ih => simp [Join.tablesAll, ih]

/-! ## Tables within reach -/

/-- The schema is of the table, or joins it. -/
def Schema.Touches (s : Schema) (table : String) : Prop :=
  s.table = table ∨ ∃ r ∈ s.relations, r.source = .table table

instance (s : Schema) (table : String) : Decidable (s.Touches table) :=
  inferInstanceAs (Decidable (_ ∨ _))

theorem Schema.embeds_iff {s : Schema} {name : String} :
    s.embeds name = true ↔ (∃ c ∈ s.children, c.entity = name) ∨ name ∈ s.dependencies := by
  simp [embeds]

namespace Registry

/-- Reads of the schema may come to the table: they touch it, or embed an entity from which they come
to it. -/
inductive Reaches (reg : Registry) : Schema → String → Prop where
  | touches {s : Schema} {table : String} (h : s.Touches table) : Reaches reg s table
  | embeds {s t : Schema} {name table : String} (h : s.embeds name = true)
      (ht : reg.get? name = some t) (hreach : Reaches reg t table) : Reaches reg s table

variable {reg : Registry} {d : Dialect} {s : Schema} {derived : String → Except QueryError Select}

/-- The statement of an entity comes to no other tables than reads of the entity do. -/
def Derived (reg : Registry) (derived : String → Except QueryError Select) : Prop :=
  ∀ name sel, derived name = .ok sel →
    ∃ s, reg.get? name = some s ∧ ∀ n ∈ sel.tables, reg.Reaches s n

theorem Derived.reaches_of_joins (hderived : reg.Derived derived) {relations : List Relation}
    {joins : List Join} (hrel : relations ⊆ s.relations)
    (h : Forall₂ (fun r j => Schema.join d derived r = .ok j) relations joins) {n : String}
    (hn : n ∈ Join.tablesAll joins) : reg.Reaches s n := by
  obtain ⟨j, hj, hn⟩ := Join.mem_tablesAll.mp hn
  obtain ⟨r, hr, hjoin⟩ := exists_of_mem_right h hj
  cases hsource : r.source with
  | table name =>
      obtain ⟨head, -, rfl⟩ := (Schema.join_table_eq_ok hsource).mp hjoin
      obtain rfl := List.mem_singleton.mp hn
      exact .touches (.inr ⟨r, hrel hr, hsource⟩)
  | entity name =>
      obtain ⟨sel, head, hsel, -, rfl⟩ := (Schema.join_entity_eq_ok hsource).mp hjoin
      obtain ⟨t, ht, htables⟩ := hderived name sel hsel
      have hdep : name ∈ s.dependencies := Schema.mem_dependencies.mpr ⟨r, hrel hr, hsource⟩
      exact .embeds (Schema.embeds_iff.mpr (.inr hdep)) ht (htables n hn)

theorem Derived.reaches_of_rowSelect (hderived : reg.Derived derived) {r : Resolved}
    {window : Option Window} {ordered : Bool} {sel : Select}
    (h : s.rowSelect d derived r window ordered = .ok sel) : ∀ n ∈ sel.tables, reg.Reaches s n := by
  obtain ⟨joins, conjuncts, hjoins, -, rfl⟩ := Schema.rowSelect_eq_ok.mp h
  intro n hn
  rcases List.mem_cons.mp hn with rfl | hn
  · exact .touches (.inl rfl)
  · exact hderived.reaches_of_joins (Schema.requiredJoins_subset _) hjoins hn

theorem Derived.reaches_of_countSelect (hderived : reg.Derived derived) {r : Resolved} {c : Count}
    (h : s.countSelect d derived r = .ok c) : ∀ n ∈ c.tables, reg.Reaches s n := by
  cases hgrouped : r.isGrouped with
  | true =>
      obtain ⟨inner, hinner, rfl⟩ := (Schema.countSelect_eq_ok_of_isGrouped hgrouped).mp h
      exact hderived.reaches_of_rowSelect hinner
  | false =>
      obtain ⟨joins, conjuncts, hjoins, -, rfl⟩ :=
        (Schema.countSelect_eq_ok_of_not_isGrouped hgrouped).mp h
      intro n hn
      rcases List.mem_cons.mp hn with rfl | hn
      · exact .touches (.inl rfl)
      · exact hderived.reaches_of_joins (Schema.requiredJoins_subset _) hjoins hn

theorem derived_derivedSelect (depth : Nat) : reg.Derived (reg.derivedSelect d depth) := by
  induction depth with
  | zero => rintro name sel ⟨⟩
  | succ depth ih =>
      intro name sel h
      obtain ⟨s, r, hs, -, hrow⟩ := derivedSelect_succ_eq_ok.mp h
      exact ⟨s, hs, ih.reaches_of_rowSelect hrow⟩

theorem reaches_of_compileAs {q : Query} {m : ReadMode} {p : Plan}
    (h : reg.compileAs d s q m = .ok p) :
    (∀ n ∈ p.select.tables, reg.Reaches s n) ∧
      ∀ c ∈ p.count, ∀ n ∈ c.tables, reg.Reaches s n := by
  obtain ⟨⟨_, _, depth, _, _, -, hrow⟩, hcount⟩ := reads_of_compileAs h
  refine ⟨?_, fun c hc => ?_⟩
  · exact (derived_derivedSelect _).reaches_of_rowSelect hrow
  · obtain ⟨_, _, depth, -, hcount⟩ := hcount c hc
    exact (derived_derivedSelect _).reaches_of_countSelect hcount

end Registry

/-! ## Statements of reads -/

namespace Service

variable {σ κ : Type} (sv : Service σ κ)

theorem embeds_of_childPlan {s t : Schema} {key : String} {row : Row} {p : Plan}
    (h : sv.childPlan s key row = .ok (some (t, p))) :
    ∃ name q, s.embeds name = true ∧ sv.registry.get? name = some t ∧
      sv.registry.compileAll sv.database.dialect t q = .ok p := by
  unfold childPlan at h
  split at h
  · cases h
  rename_i child hchild
  split at h
  · cases h
  rename_i t' ht
  split at h
  · cases h
  obtain ⟨q, -, h⟩ := bind_eq_ok.mp h
  obtain ⟨p', hp, h⟩ := bind_eq_ok.mp h
  cases pure_eq_ok.mp h
  refine ⟨child.entity, q, Schema.embeds_iff.mpr (.inl ⟨child, ?_, rfl⟩), ht, mapError_eq_ok.mp hp⟩
  exact List.mem_of_find?_eq_some hchild

variable {T : String → Prop}

/-- Rows of a plan and of the children of its rows are read from tables within reach of the
schema. -/
theorem emits_rows_readsOnly (depth : Nat) {s : Schema} {p : Plan}
    (hplan : ∀ n ∈ p.select.tables, sv.registry.Reaches s n)
    (hT : ∀ n, sv.registry.Reaches s n → T n) :
    Emits (Event.ReadsOnly sv.database.dialect T)
      (sv.traced.rows depth s p : Work (World (σ × List Event) κ) _) := by
  refine sv.emits_rows (Q := fun s p => (∀ n ∈ p.select.tables, sv.registry.Reaches s n) ∧
    ∀ n, sv.registry.Reaches s n → T n) ?_ ?_ depth ⟨hplan, hT⟩
  · rintro s p ⟨hplan, hT⟩ answer
    exact .select p.select fun n hn => hT n (hplan n hn)
  · rintro s p ⟨-, hT⟩ key - row t p' hchild
    obtain ⟨name, q, hembeds, ht, hp'⟩ := sv.traced.embeds_of_childPlan hchild
    have htables := (Registry.reaches_of_compileAs (m := .all) hp').1
    exact ⟨htables, fun n hn => hT n (.embeds hembeds ht hn)⟩

theorem emits_pageMeta_readsOnly {p : Plan} (h : ∀ c ∈ p.count, ∀ n ∈ c.tables, T n) :
    Emits (Event.ReadsOnly sv.database.dialect T)
      (sv.traced.pageMeta p : Work (World (σ × List Event) κ) _) := by
  unfold pageMeta
  cases hc : p.count with
  | none => exact .pure none
  | some c =>
      refine .bind (sv.emits_fetch fun answer => ?_) fun counted => .pure _
      exact .count c (h c hc)

theorem emits_document_readsOnly {s : Schema} {r : ReadRequest} {p : Plan}
    (h : sv.planOf s r = .ok p) :
    Emits (Event.ReadsOnly sv.database.dialect (sv.registry.Reaches s))
      (sv.traced.document s r p : Work (World (σ × List Event) κ) _) := by
  obtain ⟨q, -, hplan⟩ := bind_eq_ok.mp h
  obtain ⟨hselect, hcount⟩ := Registry.reaches_of_compileAs hplan
  have hrows : Emits (Event.ReadsOnly sv.database.dialect (sv.registry.Reaches s))
      (sv.traced.rows sv.nesting s p : Work (World (σ × List Event) κ) _) :=
    sv.emits_rows_readsOnly sv.nesting hselect fun _ => id
  unfold document
  cases r.id? with
  | none =>
      exact .bind hrows fun data => .bind (sv.emits_pageMeta_readsOnly hcount) fun page => .pure _
  | some id =>
      refine .bind hrows fun rows => ?_
      cases rows with
      | nil => exact .throw _
      | cons row rows => exact .pure _

/-- Reads of an entity come to no other tables than those within its reach. -/
theorem emits_serve_readsOnly {r : ReadRequest} {s : Schema}
    (hs : sv.registry.get? r.entity = some s) :
    Emits (Event.ReadsOnly sv.database.dialect (sv.registry.Reaches s))
      (sv.traced.serve r : Work (World (σ × List Event) κ) _) := by
  rw [sv.traced.serve_of_get? hs, throughCache]
  refine .bind (.of_trace_eq fun _ => rfl) fun cached => ?_
  cases cached with
  | some body => exact .pure body
  | none =>
      rw [sv.traced.fresh_of_get? hs]
      refine .bind ?_ fun v => .bind (.of_trace_eq fun _ => rfl) fun _ => .pure _
      exact .lift_bind fun p hp => sv.emits_document_readsOnly hp

end Service

end EntityRest

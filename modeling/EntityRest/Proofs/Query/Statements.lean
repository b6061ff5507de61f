import EntityRest.Proofs.Query.Plan

/-! # The statements of a plan

Every statement of a plan, however deep it is nested, reads the rows of a schema: that of the read
for its request, or that of a joined entity without any request. -/

namespace EntityRest

open List (Forall₂)

mutual

def Select.nested : Select → List Select
  | .mk _ joins => Join.nestedAll joins

def Join.nested : Join → List Select
  | .table _ _ => []
  | .derived _ select => select :: Select.nested select

def Join.nestedAll : List Join → List Select
  | [] => []
  | j :: js => Join.nested j ++ Join.nestedAll js

end

/-- The statements in a count that read rows. -/
def Count.selects : Count → List Select
  | .groups inner => inner :: inner.nested
  | .rows _ _ _ joins _ => Join.nestedAll joins

/-- The statements of a plan that read rows. -/
def Plan.selects (p : Plan) : List Select :=
  p.select :: p.select.nested ++ (p.count.map Count.selects).getD []

theorem Join.mem_nestedAll {joins : List Join} {t : Select} :
    t ∈ Join.nestedAll joins ↔ ∃ j ∈ joins, t ∈ j.nested := by
  induction joins with
  | nil => simp [Join.nestedAll]
  | cons j joins ih => simp [Join.nestedAll, ih]

theorem Schema.exists_derived_of_mem_nestedAll {d : Dialect}
    {derived : String → Except QueryError Select} {relations : List Relation} {joins : List Join}
    (h : Forall₂ (fun r j => join d derived r = .ok j) relations joins) {t : Select}
    (ht : t ∈ Join.nestedAll joins) :
    ∃ name sel, derived name = .ok sel ∧ (t = sel ∨ t ∈ sel.nested) := by
  obtain ⟨j, hj, ht⟩ := Join.mem_nestedAll.mp ht
  obtain ⟨r, -, hjoin⟩ := exists_of_mem_right h hj
  cases hsource : r.source with
  | table name =>
      obtain ⟨head, -, rfl⟩ := (join_table_eq_ok hsource).mp hjoin
      cases ht
  | entity name =>
      obtain ⟨sel, head, hsel, -, rfl⟩ := (join_entity_eq_ok hsource).mp hjoin
      exact ⟨name, sel, hsel, List.mem_cons.mp ht⟩

namespace Registry

/-- The statement reads the rows of the schema for the request. -/
def Reads (reg : Registry) (d : Dialect) (s : Schema) (q : Query) (t : Select) : Prop :=
  ∃ includes r depth window ordered, s.resolve d q includes = .ok r ∧
    s.rowSelect d (reg.derivedSelect d depth) r window ordered = .ok t

/-- The statement counts the rows of the schema for the request. -/
def Counts (reg : Registry) (d : Dialect) (s : Schema) (q : Query) (c : Count) : Prop :=
  ∃ includes r depth, s.resolve d q includes = .ok r ∧
    s.countSelect d (reg.derivedSelect d depth) r = .ok c

variable {reg : Registry} {d : Dialect} {s : Schema} {q : Query}

theorem reads_of_mem_nestedAll {depth : Nat} {relations : List Relation} {joins : List Join}
    (h : Forall₂ (fun r j => Schema.join d (reg.derivedSelect d depth) r = .ok j) relations joins)
    {t : Select} (ht : t ∈ Join.nestedAll joins) : ∃ s' ∈ reg.schemas, reg.Reads d s' {} t := by
  induction depth generalizing relations joins with
  | zero =>
      obtain ⟨name, sel, hsel, -⟩ := Schema.exists_derived_of_mem_nestedAll h ht
      cases hsel
  | succ depth ih =>
      obtain ⟨name, sel, hsel, ht⟩ := Schema.exists_derived_of_mem_nestedAll h ht
      obtain ⟨s', r, hget, hr, hrow⟩ := derivedSelect_succ_eq_ok.mp hsel
      rcases ht with rfl | hnested
      · exact ⟨s', mem_of_get? hget, [], r, depth, none, true, hr, hrow⟩
      · obtain ⟨joins', conjuncts, hjoins, -, rfl⟩ := Schema.rowSelect_eq_ok.mp hrow
        exact ih hjoins hnested

theorem Reads.of_mem_nested {sel : Select} (h : reg.Reads d s q sel) {t : Select}
    (ht : t ∈ sel.nested) : ∃ s' ∈ reg.schemas, reg.Reads d s' {} t := by
  obtain ⟨includes, r, depth, window, ordered, -, hrow⟩ := h
  obtain ⟨joins, conjuncts, hjoins, -, rfl⟩ := Schema.rowSelect_eq_ok.mp hrow
  exact reads_of_mem_nestedAll hjoins ht

/-- The rows that are counted are those of the request, or groups of them. -/
theorem Counts.of_mem_selects {c : Count} (h : reg.Counts d s q c) {t : Select}
    (ht : t ∈ c.selects) : reg.Reads d s q t ∨ ∃ s' ∈ reg.schemas, reg.Reads d s' {} t := by
  obtain ⟨includes, r, depth, hr, hcount⟩ := h
  cases hgrouped : r.isGrouped with
  | true =>
      obtain ⟨inner, hinner, rfl⟩ := (Schema.countSelect_eq_ok_of_isGrouped hgrouped).mp hcount
      have hreads : reg.Reads d s q inner := ⟨includes, r, depth, none, false, hr, hinner⟩
      rcases List.mem_cons.mp ht with rfl | hnested
      · exact .inl hreads
      · exact .inr (hreads.of_mem_nested hnested)
  | false =>
      obtain ⟨joins, conjuncts, hjoins, -, rfl⟩ :=
        (Schema.countSelect_eq_ok_of_not_isGrouped hgrouped).mp hcount
      exact .inr (reads_of_mem_nestedAll hjoins ht)

theorem reads_of_plan {window : Option Window} {p : Plan} (h : reg.plan d s q window = .ok p) :
    reg.Reads d s q p.select ∧ ∀ c ∈ p.count, reg.Counts d s q c := by
  obtain ⟨includes, r, select, count, -, hr, hselect, hcount, rfl⟩ := plan_eq_ok.mp h
  refine ⟨⟨includes, r, reg.size, window, true, hr, hselect⟩, fun c hc => ?_⟩
  rcases Schema.countIf_eq_ok.mp hcount with ⟨-, c', hc', rfl⟩ | ⟨-, rfl⟩
  · obtain rfl := Option.some.inj hc
    exact ⟨includes, r, reg.size, hr, hc'⟩
  · cases hc

/-- In every mode the row statement and the count are those of the request that is compiled. -/
theorem reads_of_compileAs {m : ReadMode} {p : Plan} (h : reg.compileAs d s q m = .ok p) :
    reg.Reads d s (m.query s q) p.select ∧ ∀ c ∈ p.count, reg.Counts d s (m.query s q) c := by
  obtain ⟨page, perPage, hplan⟩ := plan_of_compileAs h
  exact reads_of_plan (p := { p with page, perPage }) hplan

theorem reads_of_mem_selects {m : ReadMode} {p : Plan} (h : reg.compileAs d s q m = .ok p)
    {t : Select} (ht : t ∈ p.selects) :
    reg.Reads d s (m.query s q) t ∨ ∃ s' ∈ reg.schemas, reg.Reads d s' {} t := by
  obtain ⟨hselect, hcount⟩ := reads_of_compileAs h
  rcases List.mem_append.mp ht with ht | ht
  · rcases List.mem_cons.mp ht with rfl | hnested
    · exact .inl hselect
    · exact .inr (hselect.of_mem_nested hnested)
  · cases hc : p.count with
    | none => simp [hc] at ht
    | some c =>
        rw [hc, Option.map_some, Option.getD_some] at ht
        exact (hcount c hc).of_mem_selects ht

end Registry

end EntityRest

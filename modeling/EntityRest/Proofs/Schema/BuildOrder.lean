import EntityRest.Proofs.Schema.Registry
import Mathlib.Data.Fintype.Card
import Mathlib.Data.Set.Finite.Basic
import Mathlib.Order.WellFounded

/-! # The order in which entities are built

Passes over the names end, and what they leave out is what leads to a cycle. So there is an order
with every entity behind those it joins as derived tables exactly when no entity leads back to
itself. -/

namespace EntityRest

namespace Registry

/-! ## Dependencies -/

def names (reg : Registry) : List String := reg.schemas.map Schema.name

/-- The names in the order in which passes go through them. -/
def sortedNames (reg : Registry) : List String := reg.sorted.map Schema.name

/-- The first entity joins the second one as a derived table. -/
def DependsOn (reg : Registry) (a b : String) : Prop :=
  ∃ s, reg.get? a = some s ∧ b ∈ s.dependencies

/-- No entity leads back to itself. -/
def Acyclic (reg : Registry) : Prop := ∀ name, ¬ Relation.TransGen reg.DependsOn name name

/-- The entity leads to one that leads back to itself. -/
def LeadsToCycle (reg : Registry) (name : String) : Prop :=
  ∃ other, Relation.ReflTransGen reg.DependsOn name other ∧
    Relation.TransGen reg.DependsOn other other

/-- Every entity that is joined as a derived table is there. -/
def Supplied (reg : Registry) : Prop := ∀ a b, reg.DependsOn a b → b ∈ reg.names

/-- Everything that the entity depends on is done. -/
def Ready (reg : Registry) (done : List String) (name : String) : Prop :=
  ∀ b, reg.DependsOn name b → b ∈ done

/-- Every entity stands behind those it depends on. -/
def DependenciesFirst (reg : Registry) (order : List String) : Prop :=
  ∀ before name after, order = before ++ name :: after → reg.Ready before name

variable {reg : Registry} {names done : List String} {name : String}

theorem isSome_get?_iff : (reg.get? name).isSome ↔ name ∈ reg.names := by
  simp [get?, Registry.names]

theorem mem_names_of_dependsOn {a b : String} (h : reg.DependsOn a b) : a ∈ reg.names := by
  obtain ⟨s, hs, -⟩ := h
  exact isSome_get?_iff.mp (by simp [hs])

theorem sortedNames_perm (reg : Registry) : reg.sortedNames.Perm reg.names :=
  (List.mergeSort_perm _ _).map _

theorem dependenciesFirst_nil : reg.DependenciesFirst [] := by
  intro before name after h
  simp at h

theorem DependenciesFirst.concat (h : reg.DependenciesFirst done) (hready : reg.Ready done name) :
    reg.DependenciesFirst (done ++ [name]) := by
  intro before x after hsplit
  rcases List.eq_nil_or_concat' after with rfl | ⟨after, last, rfl⟩
  · obtain ⟨rfl, hx⟩ := List.append_inj' hsplit rfl
    obtain rfl := List.singleton_inj.mp hx
    exact hready
  · rw [← List.cons_append, ← List.append_assoc] at hsplit
    exact h before x after (List.append_inj' hsplit rfl).1

theorem DependenciesFirst.idxOf_lt {order : List String} (h : reg.DependenciesFirst order)
    {a b : String} (ha : a ∈ order) (hdep : reg.DependsOn a b) :
    order.idxOf b < order.idxOf a := by
  obtain ⟨before, after, horder, hnew⟩ := List.eq_append_cons_of_mem ha
  have hb : b ∈ before := h before a after horder b hdep
  rw [horder, List.idxOf_append_of_mem hb, List.idxOf_append_of_notMem hnew, List.idxOf_cons_self]
  exact Nat.lt_of_lt_of_le (List.idxOf_lt_length_of_mem hb) (Nat.le_add_right _ _)

theorem DependenciesFirst.acyclic {order : List String} (h : reg.DependenciesFirst order)
    (hall : reg.names ⊆ order) : reg.Acyclic := by
  have hlt {a b : String} (hab : Relation.TransGen reg.DependsOn a b) :
      order.idxOf b < order.idxOf a := by
    induction hab with
    | single hdep => exact h.idxOf_lt (hall (mem_names_of_dependsOn hdep)) hdep
    | tail _ hdep ih =>
        exact Nat.lt_trans (h.idxOf_lt (hall (mem_names_of_dependsOn hdep)) hdep) ih
  exact fun name hcycle => Nat.lt_irrefl _ (hlt hcycle)

/-- In a finite set that no step leaves for good, every walk comes to a cycle. -/
theorem exists_cycle {α : Type} {R : α → α → Prop} {xs : List α}
    (hstep : ∀ x ∈ xs, ∃ y ∈ xs, R x y) {x : α} (hx : x ∈ xs) :
    ∃ y, Relation.ReflTransGen R x y ∧ Relation.TransGen R y y := by
  by_contra hnone
  have hirrefl : ∀ y, Relation.ReflTransGen R x y → ¬ Relation.TransGen R y y :=
    fun y hy hcycle => hnone ⟨y, hy, hcycle⟩
  let Reached := { y // y ∈ xs ∧ Relation.ReflTransGen R x y }
  let After (a b : Reached) : Prop := Relation.TransGen R b.1 a.1
  have : Finite Reached := Set.Finite.subset xs.finite_toSet fun y hy => hy.1
  have : IsTrans Reached After := ⟨fun a b c hab hbc => hbc.trans hab⟩
  have : Std.Irrefl After := ⟨fun a => hirrefl a.1 a.2.2⟩
  have hwf : WellFounded After := Finite.wellFounded_of_trans_of_irrefl After
  obtain ⟨last, -, hlast⟩ := hwf.has_min Set.univ ⟨⟨x, hx, .refl⟩, trivial⟩
  obtain ⟨y, hy, hR⟩ := hstep last.1 last.2.1
  exact hlast ⟨y, hy, last.2.2.tail hR⟩ trivial (.single hR)

/-! ## One pass -/

theorem ready_iff : reg.Ready done name ↔
    (match reg.get? name with
      | some s => s.dependencies.all done.contains
      | none => true) = true := by
  cases hget : reg.get? name with
  | none => simp [Ready, DependsOn, hget]
  | some s => simp [Ready, DependsOn, hget]

theorem orderPass_cons_of_ready (hnew : name ∉ done) (hready : reg.Ready done name) :
    reg.orderPass done (name :: names) = reg.orderPass (done ++ [name]) names := by
  have hcontains : (!done.contains name) = true := by simpa using hnew
  rw [orderPass]
  exact congrArg (fun d => reg.orderPass d names)
    (if_pos (Bool.and_eq_true_iff.mpr ⟨hcontains, ready_iff.mp hready⟩))

theorem orderPass_cons_of_not (h : ¬ (name ∉ done ∧ reg.Ready done name)) :
    reg.orderPass done (name :: names) = reg.orderPass done names := by
  rw [orderPass]
  refine congrArg (fun d => reg.orderPass d names) (if_neg fun hcond => h ?_)
  obtain ⟨hnew, hready⟩ := Bool.and_eq_true_iff.mp hcond
  exact ⟨by simpa using hnew, ready_iff.mpr hready⟩

/-- What a ready name keeps, a pass keeps. -/
theorem orderPass_induction {P : List String → Prop} (hdone : P done)
    (hstep : ∀ done, ∀ name ∈ names, name ∉ done → reg.Ready done name → P done →
      P (done ++ [name])) : P (reg.orderPass done names) := by
  induction names generalizing done with
  | nil => exact hdone
  | cons name names ih =>
      have hrest := fun done x hx => hstep done x (List.mem_cons_of_mem name hx)
      by_cases h : name ∉ done ∧ reg.Ready done name
      · rw [orderPass_cons_of_ready h.1 h.2]
        exact ih (hstep done name List.mem_cons_self h.1 h.2 hdone) hrest
      · rw [orderPass_cons_of_not h]
        exact ih hdone hrest

theorem prefix_orderPass (done names : List String) : done <+: reg.orderPass done names :=
  orderPass_induction (List.prefix_refl done)
    fun _ name _ _ _ h => h.trans (List.prefix_append _ [name])

/-- A pass that brings nothing leaves nothing that is ready. -/
theorem not_ready_of_orderPass (h : reg.orderPass done names = done) :
    ∀ name ∈ names, name ∉ done → ¬ reg.Ready done name := by
  induction names with
  | nil => simp
  | cons name names ih =>
      by_cases hname : name ∉ done ∧ reg.Ready done name
      · rw [orderPass_cons_of_ready hname.1 hname.2] at h
        have hprefix : done ++ [name] <+: reg.orderPass (done ++ [name]) names :=
          prefix_orderPass (done ++ [name]) names
        have hlength := hprefix.length_le
        rw [h, List.length_append, List.length_singleton] at hlength
        omega
      · rw [orderPass_cons_of_not hname] at h
        refine List.forall_mem_cons.mpr ⟨fun hnew hready => hname ⟨hnew, hready⟩, ih h⟩

/-- What is done is done once, is among the names, and has its dependencies first. -/
structure Placed (reg : Registry) (names done : List String) : Prop where
  nodup : done.Nodup
  subset : done ⊆ names
  first : reg.DependenciesFirst done

theorem placed_nil : reg.Placed names [] :=
  ⟨List.nodup_nil, List.nil_subset names, dependenciesFirst_nil⟩

theorem Placed.orderPass (h : reg.Placed names done) :
    reg.Placed names (reg.orderPass done names) := by
  refine orderPass_induction h fun done name hname hnew hready h => ⟨?_, ?_, ?_⟩
  · exact List.nodup_append.mpr ⟨h.nodup, List.nodup_singleton name, by grind⟩
  · exact List.append_subset.mpr ⟨h.subset, by simpa using hname⟩
  · exact h.first.concat hready

theorem Placed.length_le (h : reg.Placed names done) : done.length ≤ names.length :=
  (h.nodup.subperm h.subset).length_le

theorem Placed.perm (h : reg.Placed names done) (hlength : names.length ≤ done.length) :
    done.Perm names :=
  (h.nodup.subperm h.subset).perm_of_length_le hlength

/-! ## All passes -/

/-- The passes as they are made: until as many names are done as there are, or until a pass brings
nothing. Then the first name that is not done is reported. -/
inductive Passes (reg : Registry) (names : List String) :
    List String → Except SchemaError (List String) → Prop where
  | complete (done : List String) (h : names.length ≤ done.length) :
      Passes reg names done (.ok done)
  | stuck (done : List String) (h : done.length < names.length)
      (hsame : reg.orderPass done names = done) :
      Passes reg names done (.error (.cycle ((names.find? fun n => !done.contains n).getD "")))
  | again {done : List String} {out : Except SchemaError (List String)}
      (h : done.length < names.length) (hmore : reg.orderPass done names ≠ done)
      (rest : Passes reg names (reg.orderPass done names) out) : Passes reg names done out

/-- What is reported when no further name can be done. -/
def outcome (names done : List String) : Except SchemaError (List String) :=
  match names.find? fun n => !done.contains n with
  | some stuck => .error (.cycle stuck)
  | none => .ok done

theorem buildOrder_eq (reg : Registry) : reg.buildOrder =
    outcome reg.sortedNames (reg.orderPasses reg.sortedNames (reg.sortedNames.length + 1) []) :=
  rfl

theorem outcome_of_perm (h : done.Perm names) : outcome names done = .ok done := by
  have hnone : names.find? (fun n => !done.contains n) = none := by
    simp [← h.mem_iff]
  rw [outcome, hnone]

theorem outcome_of_lt (hnames : names.Nodup)
    (hlt : done.length < names.length) :
    outcome names done = .error (.cycle ((names.find? fun n => !done.contains n).getD "")) := by
  cases hfind : names.find? fun n => !done.contains n with
  | some n => rw [outcome, hfind, Option.getD_some]
  | none =>
      have hsubset : ∀ n ∈ names, n ∈ done := by simpa using hfind
      exact absurd (hnames.subperm hsubset).length_le (Nat.not_le_of_lt hlt)

theorem orderPasses_of_same (h : reg.orderPass done names = done) (passes : Nat) :
    reg.orderPasses names passes done = done := by
  cases passes with
  | zero => rfl
  | succ passes => simp [orderPasses, h]

theorem orderPasses_of_more (h : reg.orderPass done names ≠ done) (passes : Nat) :
    reg.orderPasses names (passes + 1) done =
      reg.orderPasses names passes (reg.orderPass done names) := by
  have hlength : (reg.orderPass done names).length ≠ done.length :=
    fun hlength => h ((prefix_orderPass done names).eq_of_length hlength.symm).symm
  rw [orderPasses]
  simp only [hlength, if_false]

theorem length_lt_orderPass (h : reg.orderPass done names ≠ done) :
    done.length < (reg.orderPass done names).length := by
  refine Nat.lt_of_le_of_ne (prefix_orderPass done names).length_le fun hlength => h ?_
  exact ((prefix_orderPass done names).eq_of_length hlength).symm

theorem Placed.orderPass_eq_self (h : reg.Placed names done)
    (hlength : names.length ≤ done.length) : reg.orderPass done names = done :=
  ((prefix_orderPass done names).eq_of_length_le (h.orderPass.length_le.trans hlength)).symm

/-- Enough passes end where a further one brings nothing. -/
theorem Placed.orderPasses (h : reg.Placed names done) (passes : Nat)
    (hpasses : names.length < done.length + passes) :
    reg.Placed names (reg.orderPasses names passes done) ∧
      reg.orderPass (reg.orderPasses names passes done) names =
        reg.orderPasses names passes done := by
  induction passes generalizing done with
  | zero => exact absurd h.length_le (by omega)
  | succ passes ih =>
      by_cases hsame : reg.orderPass done names = done
      · rw [orderPasses_of_same hsame]
        exact ⟨h, hsame⟩
      · have hlt := length_lt_orderPass hsame
        rw [orderPasses_of_more hsame]
        exact ih h.orderPass (by omega)

theorem Placed.passes (h : reg.Placed names done) (hnames : names.Nodup) (passes : Nat)
    (hpasses : names.length < done.length + passes) :
    reg.Passes names done (outcome names (reg.orderPasses names passes done)) := by
  induction passes generalizing done with
  | zero => exact absurd h.length_le (by omega)
  | succ passes ih =>
      rcases Nat.lt_or_ge done.length names.length with hlt | hge
      · by_cases hsame : reg.orderPass done names = done
        · rw [orderPasses_of_same hsame, outcome_of_lt hnames hlt]
          exact .stuck done hlt hsame
        · have hgrows := length_lt_orderPass hsame
          rw [orderPasses_of_more hsame]
          exact .again hlt hsame (ih h.orderPass (by omega))
      · rw [orderPasses_of_same (h.orderPass_eq_self hge), outcome_of_perm (h.perm hge)]
        exact .complete done hge

theorem Passes.unique {out out' : Except SchemaError (List String)}
    (h : reg.Passes names done out) (h' : reg.Passes names done out') : out = out' := by
  induction h with
  | complete _ hlength =>
      cases h' with
      | complete => rfl
      | stuck _ hlt => omega
      | again hlt => omega
  | stuck _ hlt hsame =>
      cases h' with
      | complete _ hlength => omega
      | stuck => rfl
      | again _ hmore => exact absurd hsame hmore
  | again hlt hmore _ ih =>
      cases h' with
      | complete _ hlength => omega
      | stuck _ _ hsame => exact absurd hsame hmore
      | again _ _ rest => exact ih rest

/-! ## The order -/

/-- What the passes leave undone is not ready. -/
theorem exists_placed (reg : Registry) :
    ∃ done, reg.Placed reg.sortedNames done ∧ reg.buildOrder = outcome reg.sortedNames done ∧
      ∀ name ∈ reg.sortedNames, name ∉ done → ¬ reg.Ready done name := by
  have hnil : reg.Placed reg.sortedNames [] := placed_nil
  obtain ⟨hplaced, hsame⟩ := hnil.orderPasses (reg.sortedNames.length + 1) (by simp)
  exact ⟨_, hplaced, buildOrder_eq reg, not_ready_of_orderPass hsame⟩

/-- An entity that is reported leads to a cycle. -/
theorem leadsToCycle_of_buildOrder (hsupplied : reg.Supplied) {e : SchemaError}
    (h : reg.buildOrder = .error e) :
    ∃ name ∈ reg.names, e = .cycle name ∧ reg.LeadsToCycle name := by
  obtain ⟨done, -, horder, hnot⟩ := reg.exists_placed
  rw [horder, outcome] at h
  split at h
  · rename_i stuck hfind
    obtain rfl := Except.error.inj h
    -- whatever is not done depends on something that is not done either
    have hstep : ∀ n ∈ reg.sortedNames.filter (· ∉ done),
        ∃ b ∈ reg.sortedNames.filter (· ∉ done), reg.DependsOn n b := by
      intro n hn
      obtain ⟨hmem, hnew⟩ : n ∈ reg.sortedNames ∧ n ∉ done := by simpa using hn
      have hblocked := hnot n hmem hnew
      simp only [Ready, not_forall] at hblocked
      obtain ⟨b, hdep, hb⟩ := hblocked
      have hbmem := reg.sortedNames_perm.mem_iff.mpr (hsupplied n b hdep)
      exact ⟨b, by simpa using ⟨hbmem, hb⟩, hdep⟩
    have hmem : stuck ∈ reg.sortedNames := List.mem_of_find?_eq_some hfind
    have hnew : stuck ∉ done := by simpa using List.find?_some hfind
    refine ⟨stuck, reg.sortedNames_perm.mem_iff.mp hmem, rfl, ?_⟩
    exact exists_cycle hstep (by simpa using ⟨hmem, hnew⟩)
  · cases h

section Distinct

variable (hnames : reg.names.Nodup)

include hnames

/-- The passes always end, with the order that is built or with its error. -/
theorem passes_iff {out : Except SchemaError (List String)} :
    reg.Passes reg.sortedNames [] out ↔ reg.buildOrder = out := by
  have hsorted : reg.sortedNames.Nodup := reg.sortedNames_perm.nodup_iff.mpr hnames
  have hnil : reg.Placed reg.sortedNames [] := placed_nil
  have hends := hnil.passes hsorted (reg.sortedNames.length + 1) (by simp)
  rw [← buildOrder_eq] at hends
  constructor
  · exact hends.unique
  · rintro rfl
    exact hends

/-- An order that is built has every entity once, behind those it depends on. -/
theorem spec_of_buildOrder {order : List String} (h : reg.buildOrder = .ok order) :
    order.Perm reg.names ∧ reg.DependenciesFirst order := by
  obtain ⟨done, hplaced, horder, -⟩ := reg.exists_placed
  rw [horder, outcome] at h
  split at h
  · cases h
  · rename_i hfind
    obtain rfl := Except.ok.inj h
    have hall : ∀ n ∈ reg.sortedNames, n ∈ done := by simpa using hfind
    have hsorted : reg.sortedNames.Nodup := reg.sortedNames_perm.nodup_iff.mpr hnames
    have hperm := hplaced.perm (hsorted.subperm hall).length_le
    exact ⟨hperm.trans reg.sortedNames_perm, hplaced.first⟩

/-- An order can be built exactly when no entity leads back to itself. -/
theorem exists_buildOrder_iff (hsupplied : reg.Supplied) :
    (∃ order, reg.buildOrder = .ok order) ↔ reg.Acyclic := by
  constructor
  · rintro ⟨order, horder⟩
    obtain ⟨hperm, hfirst⟩ := spec_of_buildOrder hnames horder
    exact hfirst.acyclic hperm.symm.subset
  · intro hacyclic
    cases horder : reg.buildOrder with
    | ok order => exact ⟨order, rfl⟩
    | error e =>
        obtain ⟨name, -, -, other, -, hcycle⟩ := leadsToCycle_of_buildOrder hsupplied horder
        exact absurd hcycle (hacyclic other)

end Distinct

/-! ## Checked references -/

theorem checkEntity_eq_ok {kind : ReferenceKind} :
    reg.checkEntity kind name = .ok () ↔ name ∈ reg.names := by
  rw [← isSome_get?_iff, checkEntity]
  split <;> simp_all

/-- The references of a schema are checked: the entities it joins, those of its child lists, and the
keys that the templates of these use. -/
theorem checkReferences_eq_ok {s : Schema} :
    reg.checkReferences s = .ok () ↔
      (∀ b ∈ s.dependencies, b ∈ reg.names) ∧
        ∀ c ∈ s.children, c.entity ∈ reg.names ∧ ∀ key ∈ c.placeholders, (s.field? key).isSome := by
  have hkey (key : String) :
      (if (s.field? key).isSome then .ok ()
        else .error (.missingReference .templateKey (s.name ++ "." ++ key)) :
          Except SchemaError Unit) = .ok () ↔ (s.field? key).isSome := by
    split <;> simp_all
  simp only [checkReferences, checkChild, then_eq_ok, forM_eq_ok, checkEntity_eq_ok, hkey]

theorem supplied_of_checkReferences (h : ∀ s ∈ reg.schemas, reg.checkReferences s = .ok ()) :
    reg.Supplied := by
  rintro a b ⟨s, hs, hb⟩
  exact (checkReferences_eq_ok.mp (h s (List.mem_of_find?_eq_some hs))).1 b hb

end Registry

end EntityRest

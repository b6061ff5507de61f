import EntityRest.Query.Join
import EntityRest.Schema.Resolve
import Mathlib.Data.List.Lattice

/-! # Required joins are closed

The rounds in which needed aliases are collected reach a set that nothing can be added to, so the
joined relations have everything that their own conditions use. -/

namespace EntityRest

namespace Schema

variable {s : Schema}

/-! ## Needed relations -/

/-- The relations whose aliases are needed. -/
def needed (s : Schema) (need : List String) : List Relation :=
  s.relations.filter fun r => need.contains r.asName

theorem mem_needed {need : List String} {r : Relation} :
    r ∈ s.needed need ↔ r ∈ s.relations ∧ r.asName ∈ need := by
  simp [needed]

theorem requiredJoins_eq (exprs : List String) :
    s.requiredJoins exprs =
      s.needed (s.needAll s.relations.length (s.foreignAliases exprs)) := rfl

theorem mem_needMore {need : List String} {a : String} :
    a ∈ s.needMore need ↔
      a ∈ need ∨ (∃ r ∈ s.needed need, a ∈ r.references) ∧ a ≠ s.asName ∧ a ∉ need := by
  simp [needMore, needed]

theorem subset_needMore (need : List String) : need ⊆ s.needMore need :=
  fun _ ha => mem_needMore.mpr (.inl ha)

theorem subset_needAll (rounds : Nat) (need : List String) : need ⊆ s.needAll rounds need := by
  induction rounds generalizing need with
  | zero => exact List.Subset.refl need
  | succ rounds ih => exact List.Subset.trans (subset_needMore need) (ih (s.needMore need))

theorem needed_sublist (need : List String) :
    (s.needed need).Sublist (s.needed (s.needMore need)) := by
  refine List.monotone_filter_right _ fun r hr => ?_
  exact List.contains_iff_mem.mpr (subset_needMore need (List.contains_iff_mem.mp hr))

/-! ## Rounds -/

/-- One more round brings no other relation in. -/
def Stable (s : Schema) (need : List String) : Prop := s.needed (s.needMore need) = s.needed need

theorem length_lt_of_not_stable {need : List String} (h : ¬ s.Stable need) :
    (s.needed need).length < (s.needed (s.needMore need)).length := by
  refine Nat.lt_of_le_of_ne (needed_sublist need).length_le fun hlength => h ?_
  exact ((needed_sublist need).eq_of_length hlength).symm

theorem needMore_needMore {need : List String} (h : s.Stable need) :
    s.needMore (s.needMore need) = s.needMore need := by
  have hnone : ((s.needed need).flatMap Relation.references).filter
      (fun a => a ≠ s.asName && !(s.needMore need).contains a) = [] := by
    refine List.filter_eq_nil_iff.mpr fun a ha hnew => ?_
    obtain ⟨hown, hnot⟩ : a ≠ s.asName ∧ a ∉ s.needMore need := by simpa using hnew
    refine hnot (mem_needMore.mpr (.inr ⟨List.mem_flatMap.mp ha, hown, fun hneed => ?_⟩))
    exact hnot (subset_needMore need hneed)
  rw [needMore, ← needed, h, hnone, List.append_nil]

theorem needAll_eq_self {need : List String} (h : s.needMore need = need) (rounds : Nat) :
    s.needAll rounds need = need := by
  induction rounds with
  | zero => rfl
  | succ rounds ih => rw [needAll, h, ih]

/-- Every round brings in another relation until nothing changes. -/
theorem stable_or_le_length (rounds : Nat) (need : List String) :
    s.Stable (s.needAll rounds need) ∨
      rounds + (s.needed need).length ≤ (s.needed (s.needAll rounds need)).length := by
  induction rounds generalizing need with
  | zero => exact .inr (by simp [needAll])
  | succ rounds ih =>
      rw [needAll]
      by_cases h : s.Stable need
      · have hfix := needMore_needMore h
        rw [needAll_eq_self hfix]
        exact .inl (congrArg s.needed hfix)
      · have hlt := length_lt_of_not_stable h
        exact (ih (s.needMore need)).imp_right fun hle => by omega

theorem mem_requiredJoins_of_references {exprs : List String} {r r' : Relation}
    (hr : r ∈ s.requiredJoins exprs) (hmem : r' ∈ s.relations) (hne : r'.asName ≠ s.asName)
    (href : r'.asName ∈ r.references) : r' ∈ s.requiredJoins exprs := by
  rw [requiredJoins_eq] at hr ⊢
  generalize s.foreignAliases exprs = need at hr ⊢
  rcases stable_or_le_length s.relations.length need with hstable | hlength
  · rw [← hstable]
    refine mem_needed.mpr ⟨hmem, mem_needMore.mpr ?_⟩
    by_cases hneed : r'.asName ∈ s.needAll s.relations.length need
    · exact .inl hneed
    · exact .inr ⟨⟨r, hr, href⟩, hne, hneed⟩
  · -- every relation is needed
    have hall : s.needed (s.needAll s.relations.length need) = s.relations :=
      List.filter_sublist.eq_of_length_le (Nat.le_trans (Nat.le_add_right _ _) hlength)
    rwa [hall]

/-! ## The least closed set -/

/-- An alias is needed if the expressions use it, or if the conditions of a needed relation do. -/
inductive Needs (s : Schema) (exprs : List String) : String → Prop where
  | used {a} (h : a ∈ s.foreignAliases exprs) : Needs s exprs a
  | by_relation {r a} (hr : r ∈ s.relations) (hneeds : Needs s exprs r.asName)
      (href : a ∈ r.references) (hown : a ≠ s.asName) : Needs s exprs a

theorem Needs.mono {xs ys : List String} (h : xs ⊆ ys) {a : String} (ha : s.Needs xs a) :
    s.Needs ys a := by
  induction ha with
  | used hused =>
      obtain ⟨hmem, hown⟩ := List.mem_filter.mp hused
      obtain ⟨e, he, hmem⟩ := List.mem_flatMap.mp hmem
      exact .used (List.mem_filter.mpr ⟨List.mem_flatMap.mpr ⟨e, h he, hmem⟩, hown⟩)
  | by_relation hr _ href hown ih => exact .by_relation hr ih href hown

/-- Every need comes from one of the expressions. -/
theorem needs_append {xs ys : List String} {a : String} :
    s.Needs (xs ++ ys) a ↔ s.Needs xs a ∨ s.Needs ys a := by
  constructor
  · intro ha
    induction ha with
    | used hused =>
        obtain ⟨hmem, hown⟩ := List.mem_filter.mp hused
        rw [List.flatMap_append] at hmem
        refine (List.mem_append.mp hmem).imp ?_ ?_
        · exact fun hx => .used (List.mem_filter.mpr ⟨hx, hown⟩)
        · exact fun hy => .used (List.mem_filter.mpr ⟨hy, hown⟩)
    | by_relation hr _ href hown ih =>
        refine ih.imp ?_ ?_
        · exact fun hx => .by_relation hr hx href hown
        · exact fun hy => .by_relation hr hy href hown
  · rintro (hx | hy)
    · exact hx.mono (List.subset_append_left xs ys)
    · exact hy.mono (List.subset_append_right xs ys)

theorem needs_of_mem_needAll {exprs : List String} (rounds : Nat) {need : List String}
    (h : ∀ a ∈ need, s.Needs exprs a) : ∀ a ∈ s.needAll rounds need, s.Needs exprs a := by
  induction rounds generalizing need with
  | zero => exact h
  | succ rounds ih =>
      refine ih fun a ha => ?_
      rcases mem_needMore.mp ha with ha | ⟨⟨r, hr, href⟩, hown, -⟩
      · exact h a ha
      · obtain ⟨hr, hneed⟩ := mem_needed.mp hr
        exact .by_relation hr (h _ hneed) href hown

/-- The joined relations are those whose aliases are needed. -/
theorem mem_requiredJoins_iff {exprs : List String} {r : Relation} :
    r ∈ s.requiredJoins exprs ↔ r ∈ s.relations ∧ s.Needs exprs r.asName := by
  constructor
  · intro h
    obtain ⟨hr, hneed⟩ := mem_needed.mp h
    exact ⟨hr, needs_of_mem_needAll _ (fun a ha => .used ha) _ hneed⟩
  · rintro ⟨hr, hneeds⟩
    generalize ha : r.asName = a at hneeds
    induction hneeds generalizing r with
    | used hused => exact mem_needed.mpr ⟨hr, subset_needAll _ _ (ha ▸ hused)⟩
    | by_relation hr' _ href hown ih =>
        exact mem_requiredJoins_of_references (ih hr' rfl) hr (ha ▸ hown) (ha ▸ href)

/-- Fewer expressions need fewer joins. -/
theorem requiredJoins_sublist {xs ys : List String} (h : xs ⊆ ys) :
    (s.requiredJoins xs).Sublist (s.requiredJoins ys) := by
  have hsub : ∀ r ∈ s.requiredJoins xs, r ∈ s.requiredJoins ys := by
    intro r hr
    obtain ⟨hmem, hneeds⟩ := mem_requiredJoins_iff.mp hr
    exact mem_requiredJoins_iff.mpr ⟨hmem, hneeds.mono h⟩
  simp only [requiredJoins_eq] at hsub ⊢
  generalize s.needAll s.relations.length (s.foreignAliases xs) = few at hsub ⊢
  generalize s.needAll s.relations.length (s.foreignAliases ys) = many at hsub ⊢
  have hfilter : s.needed few = (s.needed many).filter fun r => few.contains r.asName := by
    rw [needed, needed, List.filter_filter]
    refine List.filter_congr fun r hr => ?_
    cases hfew : few.contains r.asName with
    | false => rfl
    | true =>
        have hmany := hsub r (List.mem_filter.mpr ⟨hr, hfew⟩)
        exact (List.mem_filter.mp hmany).2.symm
  rw [hfilter]
  exact List.filter_sublist

theorem requiredJoins_congr {xs ys : List String} (h : xs ⊆ ys) (h' : ys ⊆ xs) :
    s.requiredJoins xs = s.requiredJoins ys :=
  (requiredJoins_sublist h).antisymm (requiredJoins_sublist h')

/-! ## Covered aliases -/

/-- Every alias that the expressions use is one of these. -/
def Covers (asNames exprs : List String) : Prop :=
  ∀ e ∈ exprs, ∀ a ∈ Expr.aliases e, a ∈ asNames

/-- The own alias and those of the relations that are joined for the expressions. -/
def joinedNames (s : Schema) (exprs : List String) : List String :=
  s.asName :: (s.requiredJoins exprs).map Relation.asName

/-- Expressions have the relations they use joined, where these are declared. -/
theorem covers_joinedNames {exprs : List String} (h : Covers s.aliases exprs) :
    Covers (s.joinedNames exprs) exprs := by
  intro e he a ha
  by_cases hown : a = s.asName
  · exact hown ▸ List.mem_cons_self
  · rcases List.mem_cons.mp (h e he a ha) with hself | hrelation
    · exact absurd hself hown
    · obtain ⟨r, hr, rfl⟩ := List.mem_map.mp hrelation
      refine List.mem_cons_of_mem _ (List.mem_map_of_mem ?_)
      rw [requiredJoins_eq, mem_needed]
      refine ⟨hr, subset_needAll _ _ (List.mem_filter.mpr ⟨?_, by simpa using hown⟩)⟩
      exact List.mem_flatMap.mpr ⟨e, he, ha⟩

/-- The conditions of joined relations use nothing that is not joined. -/
theorem covers_conditions {exprs : List String} {r : Relation} (hr : r ∈ s.requiredJoins exprs)
    (h : Covers s.aliases (r.conditions.flatMap Clause.exprs)) :
    Covers (s.joinedNames exprs) (r.conditions.flatMap Clause.exprs) := by
  intro e he a ha
  by_cases hown : a = s.asName
  · exact hown ▸ List.mem_cons_self
  · refine List.mem_cons_of_mem _ ?_
    rcases List.mem_cons.mp (h e he a ha) with hself | hrelation
    · exact absurd hself hown
    · obtain ⟨r', hr', rfl⟩ := List.mem_map.mp hrelation
      by_cases hsame : r'.asName = r.asName
      · exact hsame ▸ List.mem_map_of_mem hr
      · have href : r'.asName ∈ r.references :=
          List.mem_filter.mpr ⟨List.mem_flatMap.mpr ⟨e, he, ha⟩, by simpa using hsame⟩
        exact List.mem_map_of_mem (mem_requiredJoins_of_references hr hr' hown href)

end Schema

end EntityRest

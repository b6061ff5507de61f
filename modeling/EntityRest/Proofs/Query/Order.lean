import EntityRest.Proofs.Query.Scope
import EntityRest.Proofs.Query.Params
import EntityRest.Proofs.Sql.Fragment

/-! # The order of parameters

Parameters of different names may change places: the same request is read from them, but for the
order of its filters, and the same statements are compiled, but for the order of their conditions.
-/

namespace EntityRest

open List (Forall₂)

/-! ## Parameters by name -/

namespace Pairs

/-- The values of one parameter, in their order. -/
def valuesOf (name : String) (ps : Pairs) : List String :=
  (ps.filter fun p => p.1 = name).map Prod.snd

/-- The parameters that are filters. -/
def plain (ps : Pairs) : Pairs := ps.filter fun p => !Text.startsWith "$" p.1

/-- Every parameter has the same values in the same order. -/
def Same (ps qs : Pairs) : Prop := ∀ name, valuesOf name ps = valuesOf name qs

/-- Parameters with names and values changed alike. -/
def mapBoth (f : String → String) (ps : Pairs) : Pairs := ps.map (Prod.map f f)

theorem valuesOf_cons (name : String) (p : String × String) (ps : Pairs) :
    valuesOf name (p :: ps) = if p.1 = name then p.2 :: valuesOf name ps else valuesOf name ps := by
  by_cases hp : p.1 = name
  · simp [valuesOf, hp]
  · simp [valuesOf, hp]

theorem valuesOf_append (name : String) (ps qs : Pairs) :
    valuesOf name (ps ++ qs) = valuesOf name ps ++ valuesOf name qs := by
  simp [valuesOf]

theorem count_valuesOf (name value : String) (ps : Pairs) :
    (valuesOf name ps).count value = ps.count (name, value) := by
  induction ps with
  | nil => rfl
  | cons p ps ih =>
      obtain ⟨key, v⟩ := p
      by_cases hkey : key = name
      · simp [valuesOf_cons, List.count_cons, hkey, ih]
      · simp [valuesOf_cons, hkey, ih]

theorem Same.perm {ps qs : Pairs} (h : Same ps qs) : ps.Perm qs := by
  refine List.perm_iff_count.mpr fun p => ?_
  rw [← count_valuesOf p.1 p.2, ← count_valuesOf p.1 p.2, h p.1]

end Pairs

/-! ## Reading parameters -/

theorem mapM_concat_eq_ok {ε α β : Type} {f : α → Except ε β} {xs : List α} {ys : List β} {x : α}
    {y : β} (h : xs.mapM f = .ok ys) (hx : f x = .ok y) : (xs ++ [x]).mapM f = .ok (ys ++ [y]) := by
  rw [mapM_eq_ok] at h ⊢
  exact List.rel_append h (.cons hx .nil)

namespace Query

open Pairs

theorem extend_extend {α : Type} (xs ys : List α) :
    extend (extend none xs) ys = extend none (xs ++ ys) := by
  cases xs with
  | nil => rfl
  | cons x xs =>
      cases ys with
      | nil => simp [extend]
      | cons y ys => rfl

/-- What a request takes from the parameters of each reserved name, and from the filters. -/
structure TakenFrom (ps : Pairs) (q : Query) : Prop where
  select : ((valuesOf "$select" ps).mapM fun v => (Text.items v).mapM SelectItem.ofText).map
    (fun items => extend none items.flatten) = .ok q.select
  group : (valuesOf "$group" ps).flatMap Text.items = q.group
  filters : (plain ps).mapM (fun p => Filter.ofPair p.1 p.2) = .ok q.filters
  orGroups : ((valuesOf "$or" ps).mapM groups).map List.flatten = .ok q.orGroups
  searches : (valuesOf "$search" ps).mapM Search.ofText = .ok q.searches
  sort : extend none ((valuesOf "$sort" ps).flatMap fun v => (Text.items v).map SortItem.ofText) =
    q.sort
  page : (valuesOf "$page" ps).getLast?.bind positive? = q.page
  perPage : (valuesOf "$per_page" ps).getLast?.bind positive? = q.perPage
  includes : (valuesOf "$include" ps).flatMap Text.items = q.includes

theorem takenFrom_nil : TakenFrom [] {} := ⟨rfl, rfl, rfl, rfl, rfl, rfl, rfl, rfl, rfl⟩

/-- A further parameter changes only what is taken from the parameters of its name. -/
theorem TakenFrom.concat {ps : Pairs} {q q' : Query} {p : String × String} (h : TakenFrom ps q)
    (hp : addPair q p = .ok q') : TakenFrom (ps ++ [p]) q' := by
  obtain ⟨hselect, hgroup, hfilters, horGroups, hsearches, hsort, hpage, hperPage, hincludes⟩ := h
  obtain ⟨key, value⟩ := p
  have hvalues (name : String) : valuesOf name (ps ++ [(key, value)]) =
      valuesOf name ps ++ if key = name then [value] else [] := by
    rw [valuesOf_append, valuesOf_cons]
    rfl
  have hreserved (hkey : Text.startsWith "$" key = true) :
      plain (ps ++ [(key, value)]) = plain ps := by
    simp [plain, hkey]
  simp only [addPair] at hp
  split at hp
  case h_1 =>
    obtain ⟨items, hitems, hp⟩ := bind_eq_ok.mp hp
    obtain rfl := pure_eq_ok.mp hp
    obtain ⟨old, hold, hq⟩ := map_eq_ok.mp hselect
    have hmore := mapM_concat_eq_ok hold hitems
    refine ⟨map_eq_ok.mpr ⟨old ++ [items], ?_, ?_⟩, ?_, ?_, ?_, ?_, ?_, ?_, ?_, ?_⟩ <;>
      simp [hvalues, hreserved (by decide), hmore, hq, extend_extend, hgroup, hfilters, horGroups,
        hsearches, hsort, hpage, hperPage, hincludes]
  case h_2 | h_6 =>
    obtain rfl := Except.ok.inj hp
    constructor <;>
      simp [hvalues, hreserved (by decide), hselect, hgroup, hfilters, horGroups, hsearches, hsort,
        hpage, hperPage, hincludes]
  case h_3 =>
    obtain rfl := Except.ok.inj hp
    constructor <;>
      simp [hvalues, hreserved (by decide), ← extend_extend, hselect, hgroup, hfilters, horGroups,
        hsearches, hsort, hpage, hperPage, hincludes]
  case h_4 | h_5 =>
    split at hp
    · rename_i n hn
      obtain rfl := Except.ok.inj hp
      constructor <;>
        simp [hvalues, hreserved (by decide), hn, hselect, hgroup, hfilters, horGroups, hsearches,
          hsort, hpage, hperPage, hincludes]
    · cases hp
  case h_7 =>
    obtain ⟨more, hmore, hp⟩ := bind_eq_ok.mp hp
    obtain rfl := pure_eq_ok.mp hp
    obtain ⟨old, hold, hq⟩ := map_eq_ok.mp horGroups
    have hmore := mapM_concat_eq_ok hold hmore
    refine ⟨?_, ?_, ?_, map_eq_ok.mpr ⟨old ++ [more], ?_, ?_⟩, ?_, ?_, ?_, ?_, ?_⟩ <;>
      simp [hvalues, hreserved (by decide), hmore, hq, hselect, hgroup, hfilters, hsearches, hsort,
        hpage, hperPage, hincludes]
  case h_8 =>
    obtain ⟨x, hx, hp⟩ := bind_eq_ok.mp hp
    obtain rfl := pure_eq_ok.mp hp
    have hmore := mapM_concat_eq_ok hsearches hx
    constructor <;>
      simp [hvalues, hreserved (by decide), hmore, hselect, hgroup, hfilters, horGroups, hsort,
        hpage, hperPage, hincludes]
  case h_9 =>
    split at hp
    · cases hp
    · rename_i hplain
      obtain ⟨f, hf, hp⟩ := bind_eq_ok.mp hp
      obtain rfl := pure_eq_ok.mp hp
      have hmore := mapM_concat_eq_ok (x := (key, value)) hfilters hf
      have hadded : plain (ps ++ [(key, value)]) = plain ps ++ [(key, value)] := by
        simp [plain, hplain]
      have hkept {name : String} (hname : Text.startsWith "$" name = true) :
          valuesOf name (ps ++ [(key, value)]) = valuesOf name ps := by
        have hne : key ≠ name := fun hkey => hplain (hkey ▸ hname)
        simp [hvalues, hne]
      constructor <;>
        simp (disch := decide) [hkept, hadded, hmore, hselect, hgroup, horGroups, hsearches, hsort,
          hpage, hperPage, hincludes]

theorem takenFrom_of_foldlM {ps qs : Pairs} {q q' : Query} (h : TakenFrom ps q)
    (hqs : qs.foldlM addPair q = .ok q') : TakenFrom (ps ++ qs) q' := by
  induction qs generalizing ps q with
  | nil =>
      obtain rfl := Except.ok.inj hqs
      rwa [List.append_nil]
  | cons p qs ih =>
      rw [List.foldlM_cons] at hqs
      obtain ⟨q₁, hp, hqs⟩ := bind_eq_ok.mp hqs
      rw [List.append_cons]
      exact ih (h.concat hp) hqs

theorem takenFrom_of_ofPairs {ps : Pairs} {q : Query} (h : ofPairs ps = .ok q) : TakenFrom ps q :=
  takenFrom_of_foldlM takenFrom_nil h

theorem exists_addPair {q q₁ : Query} {p : String × String} (h : addPair q p = .ok q₁)
    (q' : Query) : ∃ q₂, addPair q' p = .ok q₂ := by
  obtain ⟨key, value⟩ := p
  revert h
  simp only [addPair]
  split
  case h_1 | h_7 | h_8 =>
    intro h
    obtain ⟨x, hx, -⟩ := bind_eq_ok.mp h
    exact ⟨_, bind_eq_ok.mpr ⟨x, hx, rfl⟩⟩
  case h_2 | h_3 | h_6 => exact fun _ => ⟨_, rfl⟩
  case h_4 | h_5 =>
    intro h
    split at h
    · exact ⟨_, rfl⟩
    · cases h
  case h_9 =>
    intro h
    split at h
    · cases h
    · rename_i hplain
      obtain ⟨f, hf, -⟩ := bind_eq_ok.mp h
      refine ⟨{ q' with filters := q'.filters ++ [f] }, ?_⟩
      rw [if_neg hplain, hf]
      rfl

theorem exists_foldlM_iff {ps : Pairs} (q : Query) :
    (∃ q', ps.foldlM addPair q = .ok q') ↔ ∀ p ∈ ps, ∃ q', addPair {} p = .ok q' := by
  induction ps generalizing q with
  | nil => exact ⟨fun _ p hp => (List.not_mem_nil hp).elim, fun _ => ⟨q, rfl⟩⟩
  | cons p ps ih =>
      rw [List.forall_mem_cons]
      constructor
      · rintro ⟨q', h⟩
        obtain ⟨q₁, hp, hps⟩ := bind_eq_ok.mp (List.foldlM_cons.symm.trans h)
        exact ⟨exists_addPair hp {}, (ih q₁).mp ⟨q', hps⟩⟩
      · rintro ⟨⟨q₀, hp⟩, hps⟩
        obtain ⟨q₁, hp⟩ := exists_addPair hp q
        obtain ⟨q', hps⟩ := (ih q₁).mpr hps
        exact ⟨q', List.foldlM_cons.trans (bind_eq_ok.mpr ⟨q₁, hp, hps⟩)⟩

/-- Both requests are the same but for the order of their filters. -/
def Reordered (q q' : Query) : Prop :=
  q.filters.Perm q'.filters ∧ q' = { q with filters := q'.filters }

theorem TakenFrom.unique {ps : Pairs} {q q' : Query} (h : TakenFrom ps q) (h' : TakenFrom ps q') :
    q = q' := by
  obtain ⟨select, group, filters, orGroups, searches, sort, page, perPage, includes⟩ := q
  obtain ⟨select', group', filters', orGroups', searches', sort', page', perPage', includes'⟩ := q'
  simp only [Query.mk.injEq]
  exact ⟨Except.ok.inj (h.select.symm.trans h'.select), h.group.symm.trans h'.group,
    Except.ok.inj (h.filters.symm.trans h'.filters),
    Except.ok.inj (h.orGroups.symm.trans h'.orGroups),
    Except.ok.inj (h.searches.symm.trans h'.searches), h.sort.symm.trans h'.sort,
    h.page.symm.trans h'.page, h.perPage.symm.trans h'.perPage,
    h.includes.symm.trans h'.includes⟩

theorem TakenFrom.reordered {ps qs : Pairs} {q q' : Query} (h : TakenFrom ps q)
    (h' : TakenFrom qs q') (hsame : Same ps qs) : q.Reordered q' := by
  constructor
  · have hplain : (plain qs).Perm (plain ps) := hsame.perm.symm.filter _
    obtain ⟨fs, hfs, hperm⟩ := List.perm_comp_forall₂ hplain (mapM_eq_ok.mp h.filters)
    obtain rfl := Except.ok.inj ((mapM_eq_ok.mpr hfs).symm.trans h'.filters)
    exact hperm.symm
  · obtain ⟨select, group, filters, orGroups, searches, sort, page, perPage, includes⟩ := q'
    have hselect := Except.ok.inj ((hsame "$select" ▸ h.select).symm.trans h'.select)
    have horGroups := Except.ok.inj ((hsame "$or" ▸ h.orGroups).symm.trans h'.orGroups)
    have hsearches := Except.ok.inj ((hsame "$search" ▸ h.searches).symm.trans h'.searches)
    have hgroup := (hsame "$group" ▸ h.group).symm.trans h'.group
    have hsort := (hsame "$sort" ▸ h.sort).symm.trans h'.sort
    have hpage := (hsame "$page" ▸ h.page).symm.trans h'.page
    have hperPage := (hsame "$per_page" ▸ h.perPage).symm.trans h'.perPage
    have hincludes := (hsame "$include" ▸ h.includes).symm.trans h'.includes
    simp [hselect, horGroups, hsearches, hgroup, hsort, hpage, hperPage, hincludes]

/-- From parameters in another order the same request is read, but for the order of its filters. -/
theorem exists_ofPairs_of_same {ps qs : Pairs} (hsame : Same ps qs) {q : Query}
    (h : ofPairs ps = .ok q) : ∃ q', ofPairs qs = .ok q' ∧ q.Reordered q' := by
  have hread := (exists_foldlM_iff {}).mp ⟨q, h⟩
  obtain ⟨q', h'⟩ := (exists_foldlM_iff {}).mpr fun p hp => hread p (hsame.perm.mem_iff.mpr hp)
  exact ⟨q', h', (takenFrom_of_ofPairs h).reordered (takenFrom_of_ofPairs h') hsame⟩

end Query

/-! ## Settling and compiling -/

/-- Both settled requests are the same but for the order of their conditions. -/
def Resolved.Reordered (r r' : Resolved) : Prop :=
  r.conditions.Perm r'.conditions ∧ r' = { r with conditions := r'.conditions }

theorem Resolved.Reordered.symm {r r' : Resolved} (h : r.Reordered r') : r'.Reordered r := by
  obtain ⟨hperm, hr'⟩ := h
  refine ⟨hperm.symm, ?_⟩
  rw [hr']

def Select.Reordered (t t' : Select) : Prop :=
  t.body.conjuncts.Perm t'.body.conjuncts ∧
    t' = .mk { t.body with conjuncts := t'.body.conjuncts } t.joins

theorem Select.Reordered.refl (t : Select) : t.Reordered t := by
  obtain ⟨body, joins⟩ := t
  exact ⟨.refl _, rfl⟩

inductive Count.Reordered : Count → Count → Prop where
  | groups {inner inner'} (h : inner.Reordered inner') : Reordered (.groups inner) (.groups inner')
  | rows {distinct table asName joins cs cs'} (h : cs.Perm cs') :
    Reordered (.rows distinct table asName joins cs) (.rows distinct table asName joins cs')

theorem Count.Reordered.refl (c : Count) : c.Reordered c := by
  cases c with
  | groups inner => exact .groups (.refl inner)
  | rows => exact .rows (.refl _)

/-- The statements of both plans are the same but for the order of their conditions, and everything
else is the same. -/
structure Plan.Reordered (p p' : Plan) : Prop where
  select : p.select.Reordered p'.select
  count : Option.Rel Count.Reordered p.count p'.count
  page : p.page = p'.page
  perPage : p.perPage = p'.perPage
  includes : p.includes = p'.includes
  strip : p.strip = p'.strip

theorem Plan.Reordered.refl (p : Plan) : p.Reordered p where
  select := .refl p.select
  count := by
    cases p.count with
    | none => exact .none
    | some c => exact .some (.refl c)
  page := rfl
  perPage := rfl
  includes := rfl
  strip := rfl

namespace Schema

variable {d : Dialect} {derived : String → Except QueryError Select} {s : Schema}

theorem exists_conditions_of_reordered {q q' : Query} (hq : q.Reordered q') {cs : List Condition}
    (h : s.conditions d q = .ok cs) : ∃ cs', s.conditions d q' = .ok cs' ∧ cs.Perm cs' := by
  obtain ⟨hperm, hq'⟩ := hq
  obtain ⟨filters, groups, searches, hfilters, hgroups, hsearches, rfl⟩ := conditions_eq_ok.mp h
  obtain ⟨filters', hfilters', hperm'⟩ := List.perm_comp_forall₂ hperm.symm hfilters
  rw [hq']
  refine ⟨_, conditions_eq_ok.mpr ⟨filters', groups, searches, hfilters', hgroups, hsearches, rfl⟩,
    ?_⟩
  exact (((List.Perm.refl _).append (hperm'.symm.map _)).append_right _).append_right _

theorem exists_resolve_of_reordered {q q' : Query} (hq : q.Reordered q') {includes : List String}
    {r : Resolved} (h : s.resolve d q includes = .ok r) :
    ∃ r', s.resolve d q' includes = .ok r' ∧ r.Reordered r' := by
  obtain ⟨selected, columns, strip, conditions, groups, orders, hselected, hcolumns, hconditions,
    hgroups, horders, rfl⟩ := resolve_eq_ok.mp h
  obtain ⟨conditions', hconditions', hperm⟩ := exists_conditions_of_reordered hq hconditions
  obtain ⟨-, hq'⟩ := hq
  rw [hq'] at hconditions' ⊢
  exact ⟨_, resolve_eq_ok.mpr ⟨selected, columns, strip, conditions', groups, orders, hselected,
    hcolumns, hconditions', hgroups, horders, rfl⟩, hperm, rfl⟩

section Resolved

variable {r r' : Resolved}

theorem exprs_subset_of_reordered (hr : r.conditions.Perm r'.conditions) : r.exprs ⊆ r'.exprs := by
  intro e he
  rcases mem_addAllNew.mp he with hnil | hmem
  · cases hnil
  · exact mem_addAllNew.mpr (.inr ((hr.flatMap_right _).mem_iff.mp hmem))

theorem rowExprs_subset_of_reordered (hr : r.Reordered r') (ordered : Bool) :
    r.rowExprs ordered ⊆ r'.rowExprs ordered := by
  obtain ⟨hperm, hr'⟩ := hr
  have hexprs := exprs_subset_of_reordered hperm
  rw [hr'] at hexprs ⊢
  intro e he
  simp only [Resolved.rowExprs, List.mem_append] at he ⊢
  exact he.imp_left (Or.imp_left (Or.imp_right (hexprs ·)))

theorem exists_rowSelect_of_reordered (hr : r.Reordered r') {window : Option Window}
    {ordered : Bool} {t : Select} (h : s.rowSelect d derived r window ordered = .ok t) :
    ∃ t', s.rowSelect d derived r' window ordered = .ok t' ∧ t.Reordered t' := by
  obtain ⟨joins, conjuncts, hjoins, hconjuncts, rfl⟩ := rowSelect_eq_ok.mp h
  have hrelations : s.requiredJoins (r.rowExprs ordered) = s.requiredJoins (r'.rowExprs ordered) :=
    requiredJoins_congr (rowExprs_subset_of_reordered hr ordered)
      (rowExprs_subset_of_reordered hr.symm ordered)
  obtain ⟨hperm, hr'⟩ := hr
  obtain ⟨conjuncts', hconjuncts', hperm'⟩ := List.perm_comp_forall₂ hperm.symm hconjuncts
  rw [hrelations] at hjoins
  refine ⟨_, rowSelect_eq_ok.mpr ⟨joins, conjuncts', hjoins, hconjuncts', rfl⟩, hperm'.symm, ?_⟩
  rw [hr']
  rfl

theorem exists_countSelect_of_reordered (hr : r.Reordered r') {c : Count}
    (h : s.countSelect d derived r = .ok c) :
    ∃ c', s.countSelect d derived r' = .ok c' ∧ c.Reordered c' := by
  have hsame : r'.isGrouped = r.isGrouped := by
    rw [hr.2]
    rfl
  cases hgrouped : r.isGrouped with
  | true =>
      obtain ⟨inner, hinner, rfl⟩ := (countSelect_eq_ok_of_isGrouped hgrouped).mp h
      obtain ⟨inner', hinner', hreordered⟩ := exists_rowSelect_of_reordered hr hinner
      have hgrouped' := hsame.trans hgrouped
      exact ⟨_, (countSelect_eq_ok_of_isGrouped hgrouped').mpr ⟨inner', hinner', rfl⟩,
        .groups hreordered⟩
  | false =>
      obtain ⟨joins, conjuncts, hjoins, hconjuncts, rfl⟩ :=
        (countSelect_eq_ok_of_not_isGrouped hgrouped).mp h
      have hgrouped' := hsame.trans hgrouped
      have hrelations : s.requiredJoins r.exprs = s.requiredJoins r'.exprs :=
        requiredJoins_congr (exprs_subset_of_reordered hr.1) (exprs_subset_of_reordered hr.1.symm)
      obtain ⟨conjuncts', hconjuncts', hperm'⟩ := List.perm_comp_forall₂ hr.1.symm hconjuncts
      rw [hrelations] at hjoins ⊢
      exact ⟨_, (countSelect_eq_ok_of_not_isGrouped hgrouped').mpr
        ⟨joins, conjuncts', hjoins, hconjuncts', rfl⟩, .rows hperm'.symm⟩

theorem exists_countIf_of_reordered (hr : r.Reordered r') {asked : Bool} {c : Option Count}
    (h : s.countIf d derived r asked = .ok c) :
    ∃ c', s.countIf d derived r' asked = .ok c' ∧ Option.Rel Count.Reordered c c' := by
  rcases countIf_eq_ok.mp h with ⟨hasked, c, hc, rfl⟩ | ⟨hasked, rfl⟩
  · obtain ⟨c', hc', hreordered⟩ := exists_countSelect_of_reordered hr hc
    exact ⟨_, countIf_eq_ok.mpr (.inl ⟨hasked, c', hc', rfl⟩), .some hreordered⟩
  · exact ⟨_, countIf_eq_ok.mpr (.inr ⟨hasked, rfl⟩), .none⟩

end Resolved

end Schema

namespace Registry

variable {reg : Registry} {d : Dialect} {s : Schema} {q q' : Query}

theorem exists_plan_of_reordered (hq : q.Reordered q') {window : Option Window} {p : Plan}
    (h : reg.plan d s q window = .ok p) :
    ∃ p', reg.plan d s q' window = .ok p' ∧ p.Reordered p' := by
  obtain ⟨includes, r, select, count, hincludes, hr, hselect, hcount, rfl⟩ := plan_eq_ok.mp h
  obtain ⟨r', hr', hreordered⟩ := Schema.exists_resolve_of_reordered hq hr
  obtain ⟨select', hselect', hselects⟩ := Schema.exists_rowSelect_of_reordered hreordered hselect
  obtain ⟨count', hcount', hcounts⟩ := Schema.exists_countIf_of_reordered hreordered hcount
  have hstrip : r.strip = r'.strip := by rw [hreordered.2]
  have hincludes' : includeKeys s q' = .ok includes := by
    rw [hq.2]
    exact hincludes
  have hpaginated : q'.isPaginated = q.isPaginated := by
    rw [hq.2]
    rfl
  refine ⟨_, plan_eq_ok.mpr ⟨includes, r', select', count', hincludes', hr', hselect', ?_, rfl⟩,
    hselects, hcounts, rfl, rfl, rfl, hstrip⟩
  rw [hpaginated]
  exact hcount'

/-- In every mode, a request with its filters in another order compiles to the same statements, but
for the order of their conditions. -/
theorem exists_compileAs_of_reordered (hq : q.Reordered q') {m : ReadMode} {p : Plan}
    (h : reg.compileAs d s q m = .ok p) :
    ∃ p', reg.compileAs d s q' m = .ok p' ∧ p.Reordered p' := by
  cases m with
  | page o =>
      obtain ⟨plan, hplan, hp⟩ := bind_eq_ok.mp h
      obtain rfl := pure_eq_ok.mp hp
      obtain ⟨plan', hplan', hreordered⟩ := exists_plan_of_reordered hq hplan
      rw [hq.2] at hplan' ⊢
      refine ⟨_, bind_eq_ok.mpr ⟨plan', hplan', rfl⟩, ?_⟩
      exact ⟨hreordered.select, hreordered.count, rfl, rfl, hreordered.includes, hreordered.strip⟩
  | all => exact exists_plan_of_reordered hq h
  | one id =>
      refine exists_plan_of_reordered ⟨hq.1.append_right _, ?_⟩ h
      rw [hq.2]

end Registry

/-! ## Bound values -/

theorem Conjunct.params_clause (d : Dialect) (cs : List Conjunct) :
    Fragment.params (Conjunct.clause d cs) =
      cs.flatMap fun c => Fragment.params (c.fragments d) := by
  unfold clause
  cases cs with
  | nil => rfl
  | cons c cs => simp [Fragment.params_joinWith, List.flatMap_map]

theorem Conjunct.params_clause_perm (d : Dialect) {cs cs' : List Conjunct} (h : cs.Perm cs') :
    (Fragment.params (Conjunct.clause d cs)).Perm (Fragment.params (Conjunct.clause d cs')) := by
  rw [params_clause, params_clause]
  exact h.flatMap_right _

theorem Select.Reordered.params_perm {t t' : Select} (h : t.Reordered t') (d : Dialect) :
    (Fragment.params (t.fragments d)).Perm (Fragment.params (t'.fragments d)) := by
  obtain ⟨body, joins⟩ := t
  obtain ⟨hperm, ht'⟩ := h
  rw [ht']
  simp only [Select.fragments, SelectBody.closing, Fragment.params_append]
  exact ((Conjunct.params_clause_perm d hperm).append_right _).append_left _

theorem Count.Reordered.params_perm {c c' : Count} (h : c.Reordered c') (d : Dialect) :
    (Fragment.params (c.fragments d)).Perm (Fragment.params (c'.fragments d)) := by
  cases h with
  | groups h =>
      simp only [Count.fragments, List.cons_append, Fragment.params_text, Fragment.params_append]
      exact (h.params_perm d).append_right _
  | rows h =>
      simp only [Count.fragments, tableSql, List.cons_append, Fragment.params_text,
        Fragment.params_append]
      exact (Conjunct.params_clause_perm d h).append_left _

end EntityRest

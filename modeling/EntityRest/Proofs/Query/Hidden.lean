import EntityRest.Proofs.Query.Resolve
import EntityRest.Proofs.Text.Split

/-! # Hidden fields

Which fields the columns of a row statement are computed from. A selected key never leads to a
hidden field, and the columns that only child lists need are stripped; an aggregate is not asked
whether its field is hidden. -/

namespace EntityRest

namespace Aggregate

theorem point_notMem_name (agg : Aggregate) : '.' ∉ agg.name.toList := by
  cases agg <;> decide

theorem key_eq_of_append {a b : Aggregate} {k l : String}
    (h : a.name ++ "." ++ k = b.name ++ "." ++ l) : k = l := by
  have hchars : a.name.toList ++ '.' :: k.toList = b.name.toList ++ '.' :: l.toList := by
    simpa using congrArg String.toList h
  have hpieces := congrArg (Chars.splitChar '.') hchars
  rw [Chars.splitChar_append a.point_notMem_name, Chars.splitChar_append b.point_notMem_name]
    at hpieces
  rw [(List.cons.inj hpieces).1] at hchars
  exact String.toList_injective (List.cons.inj (List.append_cancel_left hchars)).2

end Aggregate

namespace Schema

variable {d : Dialect} {s : Schema} {q : Query}

def aggregateColumn (d : Dialect) (agg : Aggregate) (f : Field) : Column :=
  ⟨agg.sql ++ "(" ++ Expr.render d f.expr ++ ")", agg.name ++ "." ++ f.key, f.expr, true⟩

end Schema

/-- The columns that show something of a field. -/
inductive Column.ComputedFrom (d : Dialect) (f : Field) : Column → Prop
  | plain : ComputedFrom d f (Schema.fieldColumn d f)
  | aggregate (agg : Aggregate) : ComputedFrom d f (Schema.aggregateColumn d agg f)

theorem Column.ComputedFrom.expr_eq {d : Dialect} {f : Field} {c : Column}
    (h : c.ComputedFrom d f) : c.expr = f.expr := by
  cases h <;> rfl

namespace Schema

variable {d : Dialect} {s : Schema} {q : Query}

/-! ## Selected columns -/

theorem hidden_of_mem_selected {key : String} {f : Field} (h : f ∈ s.selected key) :
    f.hidden = false := by
  unfold selected at h
  split at h
  · split at h
    · cases h
    · rename_i hvisible
      rw [List.mem_singleton.mp h]
      simpa using hvisible
  · have hvisible := (List.mem_filter.mp h).2
    simp at hvisible
    exact hvisible.1

theorem itemColumns_field_eq_ok {key : String} {cs : List Column} :
    s.itemColumns d (.field key) = .ok cs ↔
      s.selected key ≠ [] ∧ cs = (s.selected key).map (fieldColumn d) := by
  simp only [itemColumns]
  cases s.selected key with
  | nil => simp
  | cons f fs => simp [eq_comm]

theorem itemColumns_aggregate_eq_ok {agg : Aggregate} {key : String} {cs : List Column} :
    s.itemColumns d (.aggregate agg key) = .ok cs ↔
      ∃ f, s.field? key = some f ∧ cs = [aggregateColumn d agg f] := by
  simp only [itemColumns]
  cases h : s.field? key with
  | none => simp
  | some f =>
      obtain rfl := key_of_field? h
      simp [aggregateColumn, eq_comm]

theorem keys_addColumn (cs : List Column) (c : Column) :
    (addColumn cs c).map Column.key = addNew (cs.map Column.key) c.key := by
  have hkey : (cs.any fun x => x.key = c.key) = (cs.map Column.key).contains c.key := by
    rw [Bool.eq_iff_iff]
    simp
  unfold addColumn addNew
  rw [hkey]
  split
  · rfl
  · simp

theorem keys_foldl_addColumn (cs more : List Column) :
    (more.foldl addColumn cs).map Column.key =
      addAllNew (cs.map Column.key) (more.map Column.key) := by
  induction more generalizing cs with
  | nil => rfl
  | cons c more ih =>
      rw [List.foldl_cons, ih, keys_addColumn]
      rfl

theorem nodup_keys_of_columns (hkeys : (s.fields.map Field.key).Nodup) {cs : List Column}
    (h : s.columns d q = .ok cs) : (cs.map Column.key).Nodup := by
  unfold columns at h
  split at h
  · obtain rfl := Except.ok.inj h
    have hmap : ((s.fields.filter fun f => !f.hidden).map (fieldColumn d)).map Column.key =
        (s.fields.filter fun f => !f.hidden).map Field.key := by simp [fieldColumn]
    rw [hmap]
    exact hkeys.sublist (List.filter_sublist.map Field.key)
  · obtain ⟨found, -, hcs⟩ := bind_eq_ok.mp h
    obtain rfl := pure_eq_ok.mp hcs
    rw [keys_foldl_addColumn]
    exact nodup_addAllNew List.nodup_nil _

/-- A column of a request is that of a visible field or one of its aggregates. -/
theorem origin_of_columns {cs : List Column} (h : s.columns d q = .ok cs) {c : Column}
    (hc : c ∈ cs) :
    (∃ f ∈ s.fields, f.hidden = false ∧ c = fieldColumn d f) ∨
      ∃ agg, ∃ f ∈ s.fields, .aggregate agg f.key ∈ q.select.getD [] ∧
        c = aggregateColumn d agg f := by
  unfold columns at h
  split at h
  · obtain rfl := Except.ok.inj h
    obtain ⟨f, hf, rfl⟩ := List.mem_map.mp hc
    rw [List.mem_filter] at hf
    exact .inl ⟨f, hf.1, by simpa using hf.2, rfl⟩
  · rename_i items hitems
    obtain ⟨found, hfound, hcs⟩ := bind_eq_ok.mp h
    obtain rfl := pure_eq_ok.mp hcs
    have hmem : c ∈ found.flatten := by simpa using mem_of_mem_foldl_addColumn hc
    obtain ⟨cs, hcs, hc⟩ := List.mem_flatten.mp hmem
    obtain ⟨item, hitem, hok⟩ := exists_of_mem_right (mapM_eq_ok.mp hfound) hcs
    cases item with
    | field key =>
        obtain ⟨-, rfl⟩ := itemColumns_field_eq_ok.mp hok
        obtain ⟨f, hf, rfl⟩ := List.mem_map.mp hc
        exact .inl ⟨f, mem_fields_of_selected hf, hidden_of_mem_selected hf, rfl⟩
    | aggregate agg key =>
        obtain ⟨f, hf, rfl⟩ := itemColumns_aggregate_eq_ok.mp hok
        have hkey : f.key = key := key_of_field? hf
        refine .inr ⟨agg, f, List.mem_of_find?_eq_some hf, ?_, List.mem_singleton.mp hc⟩
        simpa [hitems, hkey] using hitem

/-- Every aggregate asked for gets its key into the output. -/
theorem key_of_aggregate {cs : List Column} (h : s.columns d q = .ok cs) {agg : Aggregate}
    {key : String} (hitem : .aggregate agg key ∈ q.select.getD []) :
    ∃ c ∈ cs, c.key = agg.name ++ "." ++ key := by
  unfold columns at h
  split at h
  · rename_i hnone
    simp [hnone] at hitem
  · rename_i items hitems
    rw [hitems, Option.getD_some] at hitem
    obtain ⟨found, hfound, hcs⟩ := bind_eq_ok.mp h
    obtain rfl := pure_eq_ok.mp hcs
    obtain ⟨own, hown, hok⟩ := exists_of_mem_left (mapM_eq_ok.mp hfound) hitem
    obtain ⟨f, hf, rfl⟩ := itemColumns_aggregate_eq_ok.mp hok
    have hmem : aggregateColumn d agg f ∈ found.flatten :=
      List.mem_flatten.mpr ⟨_, hown, List.mem_singleton_self _⟩
    have hkey : agg.name ++ "." ++ key ∈ (found.flatten.foldl addColumn []).map Column.key := by
      rw [keys_foldl_addColumn, mem_addAllNew, ← key_of_field? hf]
      exact .inr (List.mem_map_of_mem hmem)
    exact List.mem_map.mp hkey

/-! ## Columns for child lists -/

/-- The columns that child lists add are those whose keys are stripped. -/
theorem addTemplateColumns_spec {cs cs' : List Column} {strip strip' keys : List String}
    (h : s.addTemplateColumns d (cs, strip) keys = .ok (cs', strip')) :
    cs ⊆ cs' ∧ (∀ c ∈ cs', c ∈ cs ∨ c.key ∈ strip') ∧ strip ⊆ strip' ∧
      ∀ k ∈ strip', k ∈ strip ∨ k ∉ cs.map Column.key := by
  induction keys generalizing cs strip with
  | nil =>
      obtain ⟨rfl, rfl⟩ := Prod.mk.inj (Except.ok.inj h)
      exact ⟨List.Subset.refl _, fun _ => .inl, List.Subset.refl _, fun _ => .inl⟩
  | cons key keys ih =>
      unfold addTemplateColumns at h
      split at h
      · exact ih h
      · rename_i hnew
        split at h
        · cases h
        · rename_i f hf
          have hkey : (fieldColumn d f).key = key := key_of_field? hf
          obtain ⟨hsub, hall, hstrip, hkeys⟩ := ih h
          have hnone : key ∉ cs.map Column.key := by simpa using hnew
          refine ⟨List.Subset.trans (List.subset_append_left cs _) hsub, fun c hc => ?_,
            List.Subset.trans (List.subset_append_left strip _) hstrip, fun k hk => ?_⟩
          · rcases hall c hc with hmem | hmem
            · rcases List.mem_append.mp hmem with hold | hadded
              · exact .inl hold
              · rw [List.mem_singleton.mp hadded, hkey]
                exact .inr (hstrip (by simp))
            · exact .inr hmem
          · rcases hkeys k hk with hmem | hnot
            · rcases List.mem_append.mp hmem with hold | hadded
              · exact .inl hold
              · exact .inr (List.mem_singleton.mp hadded ▸ hnone)
            · exact .inr fun hmem => hnot (by simp [hmem])

/-- What is left once the keys for child lists are stripped is what was selected. -/
theorem mem_and_not_stripped_iff {selected cs : List Column} {strip keys : List String}
    (h : s.addTemplateColumns d (selected, []) keys = .ok (cs, strip)) {c : Column} :
    c ∈ cs ∧ c.key ∉ strip ↔ c ∈ selected := by
  obtain ⟨hsub, hall, -, hkeys⟩ := addTemplateColumns_spec h
  constructor
  · intro hc
    exact (hall c hc.1).resolve_right hc.2
  · intro hc
    refine ⟨hsub hc, fun hstrip => ?_⟩
    have hno := (hkeys c.key hstrip).resolve_left List.not_mem_nil
    exact hno (List.mem_map_of_mem hc)

/-- Selected columns show visible fields only, exactly if every aggregate of a hidden field finds its
key taken by the column of a field. -/
theorem visible_columns_iff (hkeys : (s.fields.map Field.key).Nodup) {cs : List Column}
    (h : s.columns d q = .ok cs) :
    (∀ c ∈ cs, ∃ f ∈ s.fields, f.hidden = false ∧ c.ComputedFrom d f) ↔
      ∀ agg, ∀ f ∈ s.fields, .aggregate agg f.key ∈ q.select.getD [] → f.hidden = true →
        ∃ c ∈ cs, c.key = agg.name ++ "." ++ f.key ∧ c.aggregate = false := by
  constructor
  · intro hvisible agg f hf hitem hhidden
    obtain ⟨c, hc, hkey⟩ := key_of_aggregate h hitem
    obtain ⟨g, hg, hshown, hfrom⟩ := hvisible c hc
    cases hfrom with
    | plain => exact ⟨_, hc, hkey, rfl⟩
    | aggregate other =>
        have hsame : g.key = f.key := Aggregate.key_eq_of_append hkey
        have hgf : g = f := List.inj_on_of_nodup_map hkeys hg hf hsame
        rw [hgf, hhidden] at hshown
        cases hshown
  · intro htaken c hc
    rcases origin_of_columns h hc with ⟨f, hf, hshown, rfl⟩ | ⟨agg, f, hf, hitem, rfl⟩
    · exact ⟨f, hf, hshown, .plain⟩
    · refine ⟨f, hf, ?_, .aggregate agg⟩
      by_contra hhidden
      rw [Bool.not_eq_false] at hhidden
      obtain ⟨other, hother, hkey, hplain⟩ := htaken agg f hf hitem hhidden
      have hsame : other = aggregateColumn d agg f :=
        List.inj_on_of_nodup_map (nodup_keys_of_columns hkeys h) hother hc hkey
      rw [hsame] at hplain
      cases hplain

end Schema

namespace ReadMode

@[simp] theorem select_query (s : Schema) (q : Query) (m : ReadMode) :
    (m.query s q).select = q.select := by
  cases m <;> rfl

end ReadMode

namespace Registry

variable {es : List EntityConfig} {reg : Registry} {d : Dialect} {s : Schema} {q : Query}
  {m : ReadMode} {p : Plan}

/-- The columns of a read are those that its request selects, with the columns for child lists. -/
theorem templateColumns_of_compileAs (h : reg.compileAs d s q m = .ok p) :
    ∃ selected includes, s.columns d q = .ok selected ∧ includeKeys s q = .ok includes ∧
      s.addTemplateColumns d (selected, []) (s.templateKeys includes) =
        .ok (p.select.body.columns, p.strip) := by
  obtain ⟨page, perPage, hplan⟩ := plan_of_compileAs h
  obtain ⟨includes, r, select, count, hincludes, hr, hrow, -, hp⟩ := plan_eq_ok.mp hplan
  obtain ⟨select, _, _, _, _, strip⟩ := p
  obtain ⟨rfl, -, -, -, -, rfl⟩ := Plan.mk.inj hp
  obtain ⟨joins, conjuncts, -, -, rfl⟩ := Schema.rowSelect_eq_ok.mp hrow
  obtain ⟨selected, columns, strip, _, _, _, hselected, hcolumns, -, -, -, rfl⟩ :=
    Schema.resolve_eq_ok.mp hr
  have hselect : s.columns d (m.query s q) = s.columns d q := by simp [Schema.columns]
  have hkeys : includeKeys s (m.query s q) = includeKeys s q := by cases m <;> rfl
  exact ⟨selected, includes, hselect ▸ hselected, hkeys ▸ hincludes, hcolumns⟩

/-- The columns that stay in the rows of a read are those that its request selects. -/
theorem columns_of_compileAs (h : reg.compileAs d s q m = .ok p) :
    ∃ selected, s.columns d q = .ok selected ∧
      ∀ c, c ∈ p.select.body.columns ∧ c.key ∉ p.strip ↔ c ∈ selected := by
  obtain ⟨selected, includes, hselected, -, hcolumns⟩ := templateColumns_of_compileAs h
  exact ⟨selected, hselected, fun c => Schema.mem_and_not_stripped_iff hcolumns⟩

/-- Columns that stay and are no aggregates are those of visible fields. Aggregates are computed
from visible fields too, unless a request aggregates a hidden one. -/
theorem visible_of_compileAs (hbuild : build es = .ok reg) (hs : s ∈ reg.schemas)
    (h : reg.compileAs d s q m = .ok p) :
    (∀ c ∈ p.select.body.columns, c.key ∉ p.strip → c.aggregate = false →
      ∃ f ∈ s.fields, f.hidden = false ∧ c = Schema.fieldColumn d f) ∧
    ((∀ c ∈ p.select.body.columns, c.key ∉ p.strip →
        ∃ f ∈ s.fields, f.hidden = false ∧ c.ComputedFrom d f) ↔
      ∀ agg, ∀ f ∈ s.fields, .aggregate agg f.key ∈ q.select.getD [] → f.hidden = true →
        ∃ c ∈ p.select.body.columns,
          c.key ∉ p.strip ∧ c.key = agg.name ++ "." ++ f.key ∧ c.aggregate = false) := by
  obtain ⟨selected, hselected, hkept⟩ := columns_of_compileAs h
  have hiff := Schema.visible_columns_iff (nodup_keys_of_build hbuild hs) hselected
  simp only [← hkept, and_imp, and_assoc] at hiff
  refine ⟨?_, hiff⟩
  intro c hc hstrip hplain
  have hmem : c ∈ selected := (hkept c).mp ⟨hc, hstrip⟩
  rcases Schema.origin_of_columns hselected hmem with hfield | ⟨agg, f, -, -, rfl⟩
  · exact hfield
  · cases hplain

end Registry

/-! ## Members with a hidden PIN

Their visits are found by the PIN, which is not shown. -/

namespace Members

def membersConfig : EntityConfig where
  name := "members"
  table := "members"
  asName := "m"
  version := "1"
  fields := [⟨"id", "m.id", .int, none⟩, ⟨"name", "m.name", .string, none⟩,
    ⟨"pin", "m.pin,hide", .string, none⟩]
  children := [⟨"visits", "visits", "pin={pin}"⟩]

def visitsConfig : EntityConfig where
  name := "visits"
  table := "visits"
  asName := "v"
  version := "1"
  fields := [⟨"id", "v.id", .int, none⟩, ⟨"pin", "v.pin", .string, none⟩]

def pin : Field := ⟨"pin", "m.pin", .string, true, false, {}⟩

def members : Schema where
  name := "members"
  table := "members"
  asName := "m"
  version := "1"
  primaryKey := "id"
  flat := false
  fields := [⟨"id", "m.id", .int, false, false, {}⟩,
    ⟨"name", "m.name", .string, false, false, {}⟩, pin]
  relations := []
  filters := []
  sorts := []
  groups := []
  children := [⟨"visits", "visits", "pin={pin}"⟩]

def visits : Schema where
  name := "visits"
  table := "visits"
  asName := "v"
  version := "1"
  primaryKey := "id"
  flat := false
  fields := [⟨"id", "v.id", .int, false, false, {}⟩, ⟨"pin", "v.pin", .string, false, false, {}⟩]
  relations := []
  filters := []
  sorts := []
  groups := []
  children := []

def registry : Registry := ⟨[members, visits]⟩

theorem build_eq_registry : Registry.build [membersConfig, visitsConfig] = .ok registry := by
  cbv

/-- How many members of each name there are, with the visits of each. -/
def names : Query where
  select := some [.field "name", .aggregate .count "id"]
  includes := ["visits"]

theorem names_visible :
    ∃ p, registry.compileAs .postgres members names .all = .ok p ∧ p.strip = ["pin"] ∧
      ∀ c ∈ p.select.body.columns, c.key ∉ p.strip →
        ∃ f ∈ members.fields, f.hidden = false ∧ c.ComputedFrom .postgres f := by
  obtain ⟨p, hp, hstrip⟩ := exists_eq_ok
    (x := registry.compileAs .postgres members names .all)
    (p := fun p => decide (p.strip = ["pin"])) (by decide +kernel)
  have hmem : members ∈ registry.schemas := List.mem_cons_self
  obtain ⟨-, hiff⟩ := Registry.visible_of_compileAs build_eq_registry hmem hp
  refine ⟨p, hp, of_decide_eq_true hstrip, hiff.mpr ?_⟩
  intro agg f hf hitem hhidden
  have hpin : ∀ f ∈ members.fields, f.hidden = true → f = pin := by decide +kernel
  obtain rfl := hpin f hf hhidden
  simp [names, pin] at hitem

/-- The largest PIN is shown to everyone who asks for it. -/
theorem pin_shown :
    Registry.build [membersConfig, visitsConfig] = .ok registry ∧ members ∈ registry.schemas ∧
      pin ∈ members.fields ∧ pin.hidden = true ∧
      ∃ p, registry.compileAs .postgres members { select := some [.aggregate .max "pin"] } .all =
          .ok p ∧
        (p.selectStatement .postgres).sql =
          "SELECT MAX(\"m\".\"pin\") AS \"max.pin\" FROM \"members\" AS \"m\"" ∧
        ∃ c ∈ p.select.body.columns, c.key ∉ p.strip ∧
          ¬∃ f ∈ members.fields, f.hidden = false ∧ c.ComputedFrom .postgres f := by
  obtain ⟨p, hp, hparts⟩ := exists_eq_ok
    (x := registry.compileAs .postgres members { select := some [.aggregate .max "pin"] } .all)
    (p := fun p => decide ((p.selectStatement .postgres).sql =
        "SELECT MAX(\"m\".\"pin\") AS \"max.pin\" FROM \"members\" AS \"m\"" ∧
      Schema.aggregateColumn .postgres .max pin ∈ p.select.body.columns ∧ p.strip = []))
    (by decide +kernel)
  obtain ⟨hsql, hc, hstrip⟩ := of_decide_eq_true hparts
  have hother : ∀ f ∈ members.fields, f.hidden = false → pin.expr ≠ f.expr := by decide +kernel
  refine ⟨build_eq_registry, List.mem_cons_self, by decide +kernel, rfl, p, hp, hsql, _, hc, ?_, ?_⟩
  · simp [hstrip]
  · rintro ⟨f, hf, hshown, hfrom⟩
    exact hother f hf hshown hfrom.expr_eq

end Members

end EntityRest

import EntityRest.Proofs.Query.Includes
import EntityRest.Proofs.Query.Printer
import EntityRest.Proofs.Query.Refusal
import EntityRest.Proofs.Query.Substitution
import EntityRest.Proofs.Query.Where

/-! # Output keys

The columns of a row statement have different keys. In front are those of the request's own
projection; behind them are the keys that child templates need and the projection does not have,
which are stripped from the rows. Where a registry builds, such a key is that of a field, so that no
request is refused for it. -/

namespace EntityRest

/-! ## The request's own projection -/

/-- Does an item of a selection stand for the output key? It stands for that of a visible field;
where no field has its key, for those of the visible fields below it; and for that of an
aggregate. -/
def SelectItem.Asks (s : Schema) (key : String) : SelectItem → Prop
  | .field k => ∃ f ∈ s.fields, f.hidden = false ∧ f.key = key ∧
      (f.key = k ∨ (∀ g ∈ s.fields, g.key ≠ k) ∧ (k ++ ".").toList <+: f.key.toList)
  | .aggregate agg k => agg.name ++ "." ++ k = key

namespace Query

/-- The output keys that a request asks for: those of its items, or of every visible field. -/
def Shows (q : Query) (s : Schema) (key : String) : Prop :=
  match q.select with
  | none => ∃ f ∈ s.fields, f.hidden = false ∧ f.key = key
  | some items => ∃ item ∈ items, item.Asks s key

/-- The keys that the templates of the child lists asked for refer to. -/
def Feeds (q : Query) (s : Schema) (key : String) : Prop :=
  ∃ c ∈ s.children, c.key ∈ q.includes ∧ key ∈ c.placeholders

end Query

namespace Schema

variable {d : Dialect} {s : Schema} {q : Query} {key : String}

section Own

variable (hkeys : (s.fields.map Field.key).Nodup)

include hkeys

theorem mem_selected_iff {k : String} {f : Field} :
    f ∈ s.selected k ↔ f ∈ s.fields ∧ f.hidden = false ∧
      (f.key = k ∨ (∀ g ∈ s.fields, g.key ≠ k) ∧ (k ++ ".").toList <+: f.key.toList) := by
  unfold selected
  cases hk : s.field? k with
  | some g =>
      obtain ⟨hg, rfl⟩ := (field?_eq_some_iff hkeys).mp hk
      have hmem : f ∈ (if g.hidden then [] else [g]) ↔ f = g ∧ g.hidden = false := by
        cases g.hidden <;> simp
      constructor
      · intro h
        obtain ⟨rfl, hvisible⟩ := hmem.mp h
        exact ⟨hg, hvisible, .inl rfl⟩
      · rintro ⟨hf, hvisible, hkey | ⟨hnone, -⟩⟩
        · obtain rfl := List.inj_on_of_nodup_map hkeys hf hg hkey
          exact hmem.mpr ⟨rfl, hvisible⟩
        · exact absurd rfl (hnone g hg)
  | none =>
      have hnone : ∀ g ∈ s.fields, g.key ≠ k := by simpa [field?] using hk
      simp only [List.mem_filter, Bool.and_eq_true, Bool.not_eq_true', Text.startsWith,
        List.isPrefixOf_iff_prefix]
      constructor
      · rintro ⟨hf, hvisible, hbelow⟩
        exact ⟨hf, hvisible, .inr ⟨hnone, hbelow⟩⟩
      · rintro ⟨hf, hvisible, hkey | ⟨-, hbelow⟩⟩
        · exact absurd hkey (hnone f hf)
        · exact ⟨hf, hvisible, hbelow⟩

theorem mem_keys_of_itemColumns_iff {item : SelectItem} {cs : List Column}
    (h : s.itemColumns d item = .ok cs) : key ∈ cs.map Column.key ↔ item.Asks s key := by
  cases item with
  | field k =>
      obtain ⟨-, rfl⟩ := itemColumns_field_eq_ok.mp h
      have hmap : ((s.selected k).map (fieldColumn d)).map Column.key =
          (s.selected k).map Field.key := by simp [fieldColumn]
      rw [hmap, List.mem_map]
      constructor
      · rintro ⟨f, hf, hkey⟩
        obtain ⟨hf, hvisible, hmeant⟩ := (mem_selected_iff hkeys).mp hf
        exact ⟨f, hf, hvisible, hkey, hmeant⟩
      · rintro ⟨f, hf, hvisible, hkey, hmeant⟩
        exact ⟨f, (mem_selected_iff hkeys).mpr ⟨hf, hvisible, hmeant⟩, hkey⟩
  | aggregate agg k =>
      obtain ⟨f, hf, rfl⟩ := itemColumns_aggregate_eq_ok.mp h
      rw [List.map_singleton, List.mem_singleton, aggregateColumn, key_of_field? hf]
      exact eq_comm

theorem mem_keys_of_columns_iff {cs : List Column} (h : s.columns d q = .ok cs) :
    key ∈ cs.map Column.key ↔ q.Shows s key := by
  unfold columns at h
  unfold Query.Shows
  generalize q.select = select at h ⊢
  cases select with
  | none =>
      obtain rfl := Except.ok.inj h
      simp [fieldColumn, and_assoc]
  | some items =>
      obtain ⟨found, hfound, hcs⟩ := bind_eq_ok.mp h
      obtain rfl := pure_eq_ok.mp hcs
      replace hfound := mapM_eq_ok.mp hfound
      rw [keys_foldl_addColumn, mem_addAllNew]
      constructor
      · rintro (hnil | hmem)
        · cases hnil
        · obtain ⟨c, hc, rfl⟩ := List.mem_map.mp hmem
          obtain ⟨cs, hcs, hc⟩ := List.mem_flatten.mp hc
          obtain ⟨item, hitem, hok⟩ := exists_of_mem_right hfound hcs
          exact ⟨item, hitem,
            (mem_keys_of_itemColumns_iff hkeys hok).mp (List.mem_map_of_mem hc)⟩
      · rintro ⟨item, hitem, hasks⟩
        obtain ⟨cs, hcs, hok⟩ := exists_of_mem_left hfound hitem
        obtain ⟨c, hc, rfl⟩ := List.mem_map.mp ((mem_keys_of_itemColumns_iff hkeys hok).mpr hasks)
        exact .inr (List.mem_map_of_mem (List.mem_flatten.mpr ⟨cs, hcs, hc⟩))

end Own

/-! ## Keys for child lists -/

theorem mem_templateKeys_iff (hchildren : (s.children.map Child.key).Nodup)
    {names : List String} :
    key ∈ s.templateKeys names ↔ ∃ c ∈ s.children, c.key ∈ names ∧ key ∈ c.placeholders := by
  have hchild {name : String} {c : Child} :
      s.child? name = some c ↔ c ∈ s.children ∧ c.key = name :=
    find?_key_eq_some_iff hchildren
  rw [templateKeys, List.mem_flatMap]
  constructor
  · rintro ⟨name, hname, hkey⟩
    cases hfound : s.child? name with
    | none => simp [hfound] at hkey
    | some c =>
        obtain ⟨hc, rfl⟩ := hchild.mp hfound
        exact ⟨c, hc, hname, by simpa [hfound] using hkey⟩
  · rintro ⟨c, hc, hname, hkey⟩
    exact ⟨c.key, hname, by simpa [hchild.mpr ⟨hc, rfl⟩] using hkey⟩

/-- Of the keys that templates need, those that are not there yet are added to the output and
stripped. -/
theorem keys_of_addTemplateColumns {cs cs' : List Column} {strip strip' keys : List String}
    (h : s.addTemplateColumns d (cs, strip) keys = .ok (cs', strip')) :
    cs'.map Column.key = addAllNew (cs.map Column.key) keys ∧
      ∃ added, strip' = strip ++ added ∧ cs'.map Column.key = cs.map Column.key ++ added := by
  constructor
  · induction keys generalizing cs strip with
    | nil =>
        obtain ⟨rfl, rfl⟩ := Prod.mk.inj (Except.ok.inj h)
        rfl
    | cons key keys ih =>
        unfold addTemplateColumns at h
        split at h
        · rename_i hthere
          have hmem : key ∈ cs.map Column.key := by simpa using hthere
          rw [ih h, addAllNew, addAllNew, List.foldl_cons, addNew_eq_self_iff.mpr hmem]
        · rename_i hnew
          split at h
          · cases h
          · rename_i f hf
            have hkey : (fieldColumn d f).key = key := key_of_field? hf
            have hadd : addNew (cs.map Column.key) key = cs.map Column.key ++ [key] :=
              if_neg (by simpa using hnew)
            rw [ih h, addAllNew, addAllNew, List.foldl_cons, hadd, List.map_append,
              List.map_singleton, hkey]
  · obtain ⟨added, keys', rfl, rfl, hadded⟩ := exists_added_of_addTemplateColumns h
    have hkeys : keys'.map id = added.map Column.key := by
      refine map_eq_of_forall₂ hadded ?_
      rintro key c ⟨f, hf, rfl⟩
      exact (key_of_field? hf).symm
    exact ⟨keys', rfl, by rw [List.map_append, ← hkeys, List.map_id]⟩

end Schema

/-! ## Plans -/

/-- The output keys of the row statement. -/
def Plan.outputKeys (p : Plan) : List String := p.select.body.columns.map Column.key

/-- The output keys of a plan are different. They are those of the request's own projection, and
behind them those that only child templates need, each of which is stripped. -/
structure Plan.Outputs (d : Dialect) (s : Schema) (q : Query) (p : Plan) : Prop where
  nodup : p.outputKeys.Nodup
  own : ∃ own, s.columns d q = .ok own ∧ p.outputKeys = own.map Column.key ++ p.strip ∧
    ∀ key, key ∈ own.map Column.key ↔ q.Shows s key
  fed : ∀ key, q.Feeds s key → key ∈ p.outputKeys
  nodup_strip : p.strip.Nodup
  mem_strip_iff : ∀ key, key ∈ p.strip ↔ q.Feeds s key ∧ ¬ q.Shows s key

namespace Registry

variable {es : List EntityConfig} {reg : Registry} {d : Dialect} {s : Schema} {q : Query}
  {m : ReadMode} {p : Plan}

theorem includeKeys_eq_ok {includes : List String} (h : includeKeys s q = .ok includes) :
    includes = addAllNew [] q.includes := by
  unfold includeKeys at h
  split at h
  · cases h
  · exact (Except.ok.inj h).symm

theorem outputs_of_compileAs (hs : s.WellFormed reg) (h : reg.compileAs d s q m = .ok p) :
    p.Outputs d s q := by
  obtain ⟨hkeys, hchildren, -⟩ := List.nodup_append'.mp hs.keys
  obtain ⟨own, includes, hown, hincludes, hcolumns⟩ := templateColumns_of_compileAs h
  obtain ⟨hall, added, hstrip, happend⟩ := Schema.keys_of_addTemplateColumns hcolumns
  rw [← Plan.outputKeys] at hall happend
  rw [← hstrip.trans (List.nil_append added)] at happend
  have hshows {key : String} : key ∈ own.map Column.key ↔ q.Shows s key :=
    Schema.mem_keys_of_columns_iff hkeys hown
  have hfeeds {key : String} : key ∈ s.templateKeys includes ↔ q.Feeds s key := by
    rw [includeKeys_eq_ok hincludes, Schema.mem_templateKeys_iff hchildren]
    simp only [Schema.mem_addAllNew, List.not_mem_nil, false_or, Query.Feeds]
  have hmem {key : String} : key ∈ p.outputKeys ↔ q.Shows s key ∨ q.Feeds s key := by
    rw [hall, Schema.mem_addAllNew, hshows, hfeeds]
  have hnodup : p.outputKeys.Nodup := by
    rw [hall]
    exact Schema.nodup_addAllNew (Schema.nodup_keys_of_columns hkeys hown) _
  -- as all keys are different, so are those behind the projection, and none of them is in it
  obtain ⟨-, hadded, hapart⟩ := List.nodup_append'.mp (happend ▸ hnodup)
  refine
    { nodup := hnodup
      own := ⟨own, hown, happend, fun key => hshows⟩
      fed := fun key hkey => hmem.mpr (.inr hkey)
      nodup_strip := hadded
      mem_strip_iff := fun key => ?_ }
  constructor
  · intro hkey
    have hnot : ¬ q.Shows s key := fun hshown => hapart (hshows.mpr hshown) hkey
    have hthere : key ∈ p.outputKeys := happend ▸ List.mem_append_right _ hkey
    exact ⟨(hmem.mp hthere).resolve_left hnot, hnot⟩
  · rintro ⟨hkey, hnot⟩
    have hthere : key ∈ own.map Column.key ++ p.strip := happend ▸ hmem.mpr (.inr hkey)
    exact (List.mem_append.mp hthere).resolve_left fun hown => hnot (hshows.mp hown)

end Registry

/-! ## Unknown fields -/

theorem Comparison.fault_of_predicate {d : Dialect} {c : Comparison} {e : QueryError}
    (h : c.predicate d = .error e) : e.fault ≠ .unknownField := by
  have hside {side : Side} (h : c.withSide d side = .error e) : e.fault ≠ .unknownField := by
    unfold withSide at h
    split at h
    · cases h
    · split at h <;> cases h
      nofun
    · cases h
      nofun
  unfold predicate at h
  split at h
  · split at h <;> cases h
    nofun
  · split at h <;> cases h
    nofun
  · split at h
    · cases h
    · exact hside h
  · split at h
    · cases h
      nofun
    · exact hside h

theorem Filter.key_eq_of_ofPair {param value : String} {f : Filter}
    (h : Filter.ofPair param value = .ok f) (hparam : '$' ∉ param.toList) : f.key = param := by
  have hmark : ¬ ".$".toList <:+: param.toList := fun hin => hparam (hin.subset (by simp))
  rw [ofPair, Text.cutLast?_eq_none hmark] at h
  obtain ⟨found, hfound, h⟩ := bind_eq_ok.mp h
  obtain rfl := pure_eq_ok.mp hfound
  dsimp only at h
  split at h
  · cases h
  · obtain rfl := pure_eq_ok.mp h
    rfl

theorem Query.key_eq_of_compares {ps : Pairs} {q : Query} (hq : ofPairs ps = .ok q) {f : Filter}
    (hf : q.Compares f) (hparam : '$' ∉ f.param.toList) : f.key = f.param := by
  have hw := writable_of_ofPairs hq
  rcases hf with hf | ⟨g, hg, hf⟩
  · exact Filter.key_eq_of_ofPair (hw.filters f hf).2 hparam
  · obtain ⟨-, -, -, -, hread⟩ := alternative_eq_ok ((hw.orGroups g hg).2 f hf).read
    exact Filter.key_eq_of_ofPair hread hparam

theorem ReadMode.compares_query {s : Schema} {q : Query} {m : ReadMode} {f : Filter}
    (h : (m.query s q).Compares f) : q.Compares f ∨ f.key = f.param := by
  rw [Query.Compares, m.query_filters, m.query_orGroups, List.mem_append] at h
  rcases h with (hf | hf) | hf
  · exact .inl (.inl hf)
  · cases m with
    | page | all => cases hf
    | one id => exact .inr (List.mem_singleton.mp hf ▸ rfl)
  · exact .inl (.inr hf)

namespace Schema

variable {d : Dialect} {s : Schema}

theorem fault_of_filterOperands {k : ScalarKind} {f : Filter} {e : QueryError}
    (h : filterOperands d k f = .error e) : e.fault ≠ .unknownField := by
  have hvalue (h : valueOperands k f = .error e) : e.fault ≠ .unknownField := by
    unfold valueOperands at h
    split at h <;> cases h
    nofun
  have hlist (h : listOperands k f = .error e) : e.fault ≠ .unknownField := by
    unfold listOperands at h
    split at h <;> cases h
    nofun
  unfold filterOperands at h
  split at h
  case h_1 | h_2 =>
    split at h
    · cases h
    · exact hvalue h
  case h_3 | h_4 | h_5 | h_6 => cases h
  case h_7 | h_8 =>
    split at h <;> cases h
    nofun
  case h_9 | h_10 => exact hlist h
  all_goals exact hvalue h

/-- A filter whose field is unknown has the key of no field. -/
theorem field?_of_filterComparison {f : Filter} {key : String}
    (h : s.filterComparison d f = .error ⟨.unknownField, key⟩) : s.field? f.key = none := by
  unfold filterComparison at h
  split at h
  · rename_i hnone
    unfold target? at hnone
    split at hnone
    · cases hnone
    · assumption
  · rcases bind_eq_error.mp h with h | ⟨_, -, h⟩
    · exact absurd rfl (fault_of_filterOperands h)
    · cases h

end Schema

namespace Registry

variable {es : List EntityConfig} {reg : Registry} {d : Dialect} {s : Schema} {q : Query}
  {m : ReadMode} {key : String}

/-- What a request is refused for as an unknown field is named with a dollar sign, or no field has
it as its key. -/
theorem unknown_of_compileAs (hbuild : build es = .ok reg) (hs : s ∈ reg.schemas) {ps : Pairs}
    (hq : Query.ofPairs ps = .ok q)
    (h : reg.compileAs d s q m = .error ⟨.unknownField, key⟩) :
    '$' ∈ key.toList ∨ s.field? key = none := by
  have hwf := (build_eq_ok_iff_wellFormed.mp hbuild).2.schemas s hs
  obtain ⟨window, hplan⟩ := exists_plan_of_compileAs_error h
  rcases plan_error_cases hbuild hs hplan with ⟨_, -, heq⟩ | ⟨includes, h⟩ |
    ⟨_, -, _, -, x, -, h⟩ | ⟨_, -, c, -, h⟩
  · cases heq
  · rcases Schema.resolve_error_cases hwf h with ⟨f, hf, h⟩ | ⟨-, rfl⟩ | ⟨-, rfl⟩ | ⟨-, rfl⟩ |
      ⟨-, rfl⟩
    · obtain rfl : key = f.param := Schema.key_of_filterComparison h
      -- without a dollar sign there is no operator in the name, so it is the key of the filter
      refine or_iff_not_imp_left.mpr fun hparam => ?_
      have hkey : f.key = f.param := by
        rcases ReadMode.compares_query hf with hf | hkey
        · exact Query.key_eq_of_compares hq hf hparam
        · exact hkey
      exact hkey ▸ Schema.field?_of_filterComparison h
    all_goals exact .inl (by decide)
  · exact absurd rfl (Comparison.fault_of_predicate h)
  · exact absurd rfl (Comparison.fault_of_predicate h)

/-- Where a registry builds, the output keys of a plan are different, hold every key that the
templates of the child lists asked for refer to, and are stripped of exactly those that the
request's own projection does not have. Columns for templates can always be added, so no request is
refused for a key that a template refers to. -/
theorem outputs_cover_templates (hbuild : build es = .ok reg) (hs : s ∈ reg.schemas) {ps : Pairs}
    (hq : Query.ofPairs ps = .ok q) (d : Dialect) (m : ReadMode) :
    (∀ p, reg.compileAs d s q m = .ok p → p.Outputs d s q) ∧
      (∀ out names, ∃ out', s.addTemplateColumns d out (s.templateKeys names) = .ok out') ∧
      ∀ e, reg.compileAs d s q m = .error e →
        ∀ c ∈ s.children, ∀ key ∈ c.placeholders, e ≠ ⟨.unknownField, key⟩ := by
  have hwf := (build_eq_ok_iff_wellFormed.mp hbuild).2.schemas s hs
  refine ⟨fun p h => outputs_of_compileAs hwf h, fun out names => ?_, ?_⟩
  · exact Schema.exists_addTemplateColumns
      (fun key hkey => Schema.isSome_of_mem_templateKeys hwf hkey) out
  · rintro _ h c hc key hkey rfl
    rcases unknown_of_compileAs hbuild hs hq h with hdollar | hnone
    · exact absurd ((Child.named_of_mem_placeholders hkey).2 _ hdollar) (by decide)
    · have hsome := Schema.isSome_field?_iff.mpr ((hwf.children c hc).2 key hkey)
      rw [hnone] at hsome
      cases hsome

end Registry

namespace Members

/-- Names of members, how many there are of each, and their visits: the PIN that finds the visits is
stripped. -/
theorem visits_outputs :
    ∃ q p, Query.ofPairs [("$select", "name,$count:id,name"), ("$include", "visits,visits")] =
        .ok q ∧
      registry.compileAs .postgres members q .all = .ok p ∧ p.Outputs .postgres members q ∧
      p.outputKeys = ["name", "count.id", "pin"] ∧ p.strip = ["pin"] := by
  obtain ⟨q, hq, hcompiles⟩ := exists_eq_ok
    (x := Query.ofPairs [("$select", "name,$count:id,name"), ("$include", "visits,visits")])
    (p := fun q => (registry.compileAs .postgres members q .all).toOption.any fun (p : Plan) =>
      decide (p.outputKeys = ["name", "count.id", "pin"] ∧ p.strip = ["pin"]))
    (by decide +kernel)
  obtain ⟨p, hp, hparts⟩ := exists_eq_ok hcompiles
  obtain ⟨hkeys, hstrip⟩ := of_decide_eq_true hparts
  have hmem : members ∈ registry.schemas := List.mem_cons_self
  obtain ⟨houtputs, -, -⟩ :=
    Registry.outputs_cover_templates build_eq_registry hmem hq .postgres .all
  exact ⟨q, p, hq, hp, houtputs p hp, hkeys, hstrip⟩

end Members

end EntityRest

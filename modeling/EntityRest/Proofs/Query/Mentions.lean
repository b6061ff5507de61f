import EntityRest.Proofs.Query.Order
import EntityRest.Proofs.Schema.WellFormed

/-! # What requests mention

The error of a parameter names that parameter, one of its alternatives or one of its items, and so
does the error of a request that cannot be settled against a well-formed schema. -/

namespace EntityRest

/-! ## Texts of a request -/

namespace Query

/-- The alternatives of a value, in all its groups. -/
def clauses (value : String) : List String := (parts ";;" value).flatMap (parts "||")

/-- What a request has that an error may name. -/
inductive Mentions (q : Query) : String → Prop where
  | select (h : q.select.isSome) : Mentions q "$select"
  | group (h : q.group ≠ []) : Mentions q "$group"
  | filter {f} (h : f ∈ q.filters) : Mentions q f.param
  | alternative {g f} (hg : g ∈ q.orGroups) (hf : f ∈ g) : Mentions q f.param
  | search (h : q.searches ≠ []) : Mentions q "$search"
  | sort (h : q.sort.isSome) : Mentions q "$sort"
  | included {key} (h : key ∈ q.includes) : Mentions q key

/-- The request compares with the filter, alone or as an alternative. -/
def Compares (q : Query) (f : Filter) : Prop := f ∈ q.filters ∨ ∃ g ∈ q.orGroups, f ∈ g

end Query

/-- What a list of parameters has that an error may name: the name of a parameter, the key of an
alternative, or an item of the child lists asked for. -/
inductive Pairs.Mentions (ps : Pairs) : String → Prop where
  | param {name value} (h : (name, value) ∈ ps) : Mentions ps name
  | alternative {value clause key text} (h : ("$or", value) ∈ ps)
      (hclause : clause ∈ Query.clauses value)
      (hcut : Text.cutFirst? "=" clause = some (key, text)) : Mentions ps (Text.trim key)
  | included {value key} (h : ("$include", value) ∈ ps) (hkey : key ∈ Text.items value) :
      Mentions ps key

theorem Pairs.not_mentions_nil {key : String} : ¬ Pairs.Mentions [] key := by
  rintro (h | h | h) <;> cases h

theorem Query.not_mentions_empty {key : String} : ¬ Query.Mentions {} key := by
  intro h
  cases h with
  | select h | sort h => cases h
  | group h | search h => exact h rfl
  | filter h | included h => cases h
  | alternative hg _ => cases hg

/-! ## Reading parameters -/

theorem SelectItem.key_of_ofText {item : String} {e : QueryError}
    (h : SelectItem.ofText item = .error e) : e.key = "$select" := by
  unfold ofText at h
  split at h
  · split at h
    · cases h
      rfl
    · split at h
      · cases h
        rfl
      · dsimp only at h
        split at h
        · cases h
          rfl
        · cases h
  · cases h

theorem Search.key_of_ofText {text : String} {e : QueryError} (h : Search.ofText text = .error e) :
    e.key = "$search" := by
  unfold ofText at h
  split at h
  · cases h
    rfl
  · dsimp only at h
    split at h
    · cases h
      rfl
    · cases h

namespace Filter

variable {param value : String}

/-- A filter keeps the name of its parameter, and so does its error. -/
theorem ofPair_cases (param value : String) :
    (∃ fault, Filter.ofPair param value = .error ⟨fault, param⟩) ∨
      ∃ key op, Filter.ofPair param value = .ok ⟨param, key, op, value⟩ := by
  have hchecked (key : String) (op : Operator) :
      (∃ fault, (do
          if key = "" || Text.startsWith "$" key then throw ⟨.unknownField, param⟩
          return ⟨param, key, op, value⟩ : Except QueryError Filter) = .error ⟨fault, param⟩) ∨
        ∃ key' op', (do
          if key = "" || Text.startsWith "$" key then throw ⟨.unknownField, param⟩
          return ⟨param, key, op, value⟩ : Except QueryError Filter) =
            .ok ⟨param, key', op', value⟩ := by
    by_cases hkey : (key = "" || Text.startsWith "$" key) = true
    · exact .inl ⟨.unknownField, by rw [if_pos hkey]; rfl⟩
    · exact .inr ⟨key, op, by rw [if_neg hkey]; rfl⟩
  unfold ofPair
  cases Text.cutLast? ".$" param with
  | none => exact hchecked param .eq
  | some found =>
      obtain ⟨key, name⟩ := found
      dsimp only
      cases Operator.ofName? name with
      | none => exact .inl ⟨.unknownOperator, rfl⟩
      | some op => exact hchecked key op

theorem key_of_ofPair {e : QueryError} (h : Filter.ofPair param value = .error e) :
    e.key = param := by
  rcases ofPair_cases param value with ⟨fault, hcase⟩ | ⟨key, op, hcase⟩
  · exact (Except.error.inj (hcase.symm.trans h)) ▸ rfl
  · cases hcase.symm.trans h

theorem param_of_ofPair {f : Filter} (h : Filter.ofPair param value = .ok f) : f.param = param := by
  rcases ofPair_cases param value with ⟨fault, hcase⟩ | ⟨key, op, hcase⟩
  · cases hcase.symm.trans h
  · exact (Except.ok.inj (hcase.symm.trans h)) ▸ rfl

end Filter

namespace Query

variable {ps : Pairs} {q : Query}

theorem exists_clause_of_groups {value : String} {gs : List (List Filter)}
    (h : groups value = .ok gs) {g : List Filter} (hg : g ∈ gs) {f : Filter} (hf : f ∈ g) :
    ∃ clause ∈ clauses value, alternative clause = .ok f := by
  obtain ⟨all, hall, h⟩ := bind_eq_ok.mp h
  obtain rfl := pure_eq_ok.mp h
  obtain ⟨family, hfamily, hread⟩ :=
    exists_of_mem_right (mapM_eq_ok.mp hall) (List.mem_filter.mp hg).1
  obtain ⟨clause, hclause, hok⟩ := exists_of_mem_right (mapM_eq_ok.mp hread) hf
  exact ⟨clause, List.mem_flatMap.mpr ⟨family, hfamily, hclause⟩, hok⟩

theorem exists_clause_of_groups_error {value : String} {e : QueryError}
    (h : groups value = .error e) : ∃ clause ∈ clauses value, alternative clause = .error e := by
  rcases bind_eq_error.mp h with h | ⟨_, -, h⟩
  · obtain ⟨family, hfamily, h⟩ := exists_of_mapM_eq_error h
    obtain ⟨clause, hclause, h⟩ := exists_of_mapM_eq_error h
    exact ⟨clause, List.mem_flatMap.mpr ⟨family, hfamily, hclause⟩, h⟩
  · cases h

theorem mentions_of_alternative {value clause : String} (hvalue : ("$or", value) ∈ ps)
    (hclause : clause ∈ clauses value) {f : Filter} (h : alternative clause = .ok f) :
    ps.Mentions f.param := by
  unfold alternative at h
  split at h
  · cases h
  · rename_i key text hcut
    exact Filter.param_of_ofPair h ▸ .alternative hvalue hclause hcut

theorem mentions_of_alternative_error {value clause : String} (hvalue : ("$or", value) ∈ ps)
    (hclause : clause ∈ clauses value) {e : QueryError} (h : alternative clause = .error e) :
    ps.Mentions e.key := by
  unfold alternative at h
  split at h
  · cases h
    exact .param hvalue
  · rename_i key text hcut
    exact Filter.key_of_ofPair h ▸ .alternative hvalue hclause hcut

/-- A parameter that cannot be read is named, or one of its alternatives is. -/
theorem mentions_of_addPair {p : String × String} (hp : p ∈ ps) {e : QueryError}
    (h : addPair q p = .error e) : ps.Mentions e.key := by
  obtain ⟨key, value⟩ := p
  have hparam (hkey : e.key = key) : ps.Mentions e.key := hkey ▸ .param hp
  simp only [addPair] at h
  split at h
  case h_1 =>
    rcases bind_eq_error.mp h with h | ⟨_, -, h⟩
    · obtain ⟨item, -, h⟩ := exists_of_mapM_eq_error h
      exact hparam (SelectItem.key_of_ofText h)
    · cases h
  case h_2 | h_3 | h_6 => cases h
  case h_4 | h_5 =>
    split at h
    · cases h
    · cases h
      exact hparam rfl
  case h_7 =>
    rcases bind_eq_error.mp h with h | ⟨_, -, h⟩
    · obtain ⟨clause, hclause, h⟩ := exists_clause_of_groups_error h
      exact mentions_of_alternative_error hp hclause h
    · cases h
  case h_8 =>
    rcases bind_eq_error.mp h with h | ⟨_, -, h⟩
    · exact hparam (Search.key_of_ofText h)
    · cases h
  case h_9 =>
    split at h
    · cases h
      exact hparam rfl
    · rcases bind_eq_error.mp h with h | ⟨_, -, h⟩
      · exact hparam (Filter.key_of_ofPair h)
      · cases h

theorem mentions_of_ofPairs {e : QueryError} (h : ofPairs ps = .error e) : ps.Mentions e.key := by
  obtain ⟨q, p, hp, h⟩ := exists_of_foldlM_eq_error h
  exact mentions_of_addPair hp h

theorem mem_of_mem_valuesOf {name value : String} (h : value ∈ Pairs.valuesOf name ps) :
    (name, value) ∈ ps := by
  obtain ⟨⟨key, value⟩, hp, rfl⟩ := List.mem_map.mp h
  obtain ⟨hp, hname⟩ := List.mem_filter.mp hp
  exact of_decide_eq_true hname ▸ hp

/-- A parameter that has values is there. -/
theorem mentions_of_valuesOf {name : String} (h : Pairs.valuesOf name ps ≠ []) :
    ps.Mentions name := by
  obtain ⟨value, hvalue⟩ := List.exists_mem_of_ne_nil _ h
  exact .param (mem_of_mem_valuesOf hvalue)

theorem TakenFrom.mentions (h : TakenFrom ps q) {key : String} (hkey : q.Mentions key) :
    ps.Mentions key := by
  cases hkey with
  | select hsome =>
      refine mentions_of_valuesOf fun hnil => ?_
      have hselect := h.select
      rw [hnil] at hselect
      rw [← Except.ok.inj hselect] at hsome
      cases hsome
  | group hne =>
      refine mentions_of_valuesOf fun hnil => hne ?_
      rw [← h.group, hnil]
      rfl
  | filter hf =>
      obtain ⟨p, hp, hread⟩ := exists_of_mem_right (mapM_eq_ok.mp h.filters) hf
      exact Filter.param_of_ofPair hread ▸ .param (List.mem_filter.mp hp).1
  | alternative hg hf =>
      obtain ⟨all, hall, hq⟩ := map_eq_ok.mp h.orGroups
      rw [hq] at hg
      obtain ⟨gs, hgs, hg⟩ := List.mem_flatten.mp hg
      obtain ⟨value, hvalue, hread⟩ := exists_of_mem_right (mapM_eq_ok.mp hall) hgs
      obtain ⟨clause, hclause, hok⟩ := exists_clause_of_groups hread hg hf
      exact mentions_of_alternative (mem_of_mem_valuesOf hvalue) hclause hok
  | search hne =>
      refine mentions_of_valuesOf fun hnil => hne ?_
      have hsearches := h.searches
      rw [hnil] at hsearches
      exact (Except.ok.inj hsearches).symm
  | sort hsome =>
      refine mentions_of_valuesOf fun hnil => ?_
      rw [← h.sort, hnil] at hsome
      cases hsome
  | included hmem =>
      rw [← h.includes] at hmem
      obtain ⟨value, hvalue, hkey⟩ := List.mem_flatMap.mp hmem
      exact .included (mem_of_mem_valuesOf hvalue) hkey

end Query

/-! ## Settling requests -/

namespace Schema

variable {d : Dialect} {s : Schema} {q : Query} {e : QueryError}

theorem key_of_itemColumns {item : SelectItem} (h : s.itemColumns d item = .error e) :
    e.key = "$select" := by
  unfold itemColumns at h
  split at h
  · split at h
    · cases h
      rfl
    · cases h
  · split at h
    · cases h
      rfl
    · cases h

theorem key_of_columns (h : s.columns d q = .error e) : q.select.isSome ∧ e.key = "$select" := by
  unfold columns at h
  split at h
  · cases h
  · rename_i items hselect
    rcases bind_eq_error.mp h with h | ⟨_, -, h⟩
    · obtain ⟨item, -, h⟩ := exists_of_mapM_eq_error h
      exact ⟨by rw [hselect]; rfl, key_of_itemColumns h⟩
    · cases h

/-- Columns of templates can be added if the keys are those of fields. -/
theorem exists_addTemplateColumns {keys : List String} (h : ∀ key ∈ keys, (s.field? key).isSome)
    (out : List Column × List String) :
    ∃ out', s.addTemplateColumns d out keys = .ok out' := by
  induction keys generalizing out with
  | nil => exact ⟨out, rfl⟩
  | cons key keys ih =>
      obtain ⟨cs, strip⟩ := out
      obtain ⟨hkey, hkeys⟩ := List.forall_mem_cons.mp h
      obtain ⟨f, hf⟩ := Option.isSome_iff_exists.mp hkey
      simp only [addTemplateColumns, hf]
      split
      · exact ih hkeys _
      · exact ih hkeys _

theorem isSome_of_mem_templateKeys {reg : Registry} (hs : s.WellFormed reg)
    {includes : List String} {key : String} (h : key ∈ s.templateKeys includes) :
    (s.field? key).isSome := by
  obtain ⟨name, -, h⟩ := List.mem_flatMap.mp h
  cases hchild : s.child? name with
  | none => simp [hchild] at h
  | some c =>
      rw [hchild] at h
      obtain ⟨-, hkeys⟩ := hs.children c (List.mem_of_find?_eq_some hchild)
      exact isSome_field?_iff.mpr (hkeys key h)

theorem key_of_filterOperands {k : ScalarKind} {f : Filter} (h : filterOperands d k f = .error e) :
    e.key = f.param := by
  have hvalue (h : valueOperands k f = .error e) : e.key = f.param := by
    unfold valueOperands at h
    split at h <;> cases h
    rfl
  have hlist (h : listOperands k f = .error e) : e.key = f.param := by
    unfold listOperands at h
    split at h <;> cases h
    rfl
  unfold filterOperands at h
  split at h
  case h_1 | h_2 =>
    split at h
    · cases h
    · exact hvalue h
  case h_3 | h_4 | h_5 | h_6 => cases h
  case h_7 | h_8 =>
    split at h <;> cases h
    rfl
  case h_9 | h_10 => exact hlist h
  all_goals exact hvalue h

theorem key_of_filterComparison {f : Filter} (h : s.filterComparison d f = .error e) :
    e.key = f.param := by
  unfold filterComparison at h
  split at h
  · cases h
    rfl
  · rcases bind_eq_error.mp h with h | ⟨_, -, h⟩
    · exact key_of_filterOperands h
    · cases h

theorem param_of_filterComparison {f : Filter} {c : Comparison}
    (h : s.filterComparison d f = .ok c) : c.param = f.param := by
  unfold filterComparison at h
  split at h
  · cases h
  · obtain ⟨rhs, -, h⟩ := bind_eq_ok.mp h
    obtain rfl := pure_eq_ok.mp h
    rfl

theorem key_of_searchComparison {term key : String} (h : s.searchComparison term key = .error e) :
    e.key = "$search" := by
  unfold searchComparison at h
  split at h <;> cases h
  rfl

theorem param_of_searchComparison {term key : String} {c : Comparison}
    (h : s.searchComparison term key = .ok c) : c.param = "$search" := by
  unfold searchComparison at h
  split at h <;> cases h
  rfl

theorem conditions_error_cases (h : s.conditions d q = .error e) :
    (∃ f, q.Compares f ∧ s.filterComparison d f = .error e) ∨
      q.searches ≠ [] ∧ e.key = "$search" := by
  rcases bind_eq_error.mp h with h | ⟨filters, -, h⟩
  · obtain ⟨f, hf, h⟩ := exists_of_mapM_eq_error h
    exact .inl ⟨f, .inl hf, h⟩
  rcases bind_eq_error.mp h with h | ⟨groups, -, h⟩
  · obtain ⟨g, hg, h⟩ := exists_of_mapM_eq_error h
    obtain ⟨f, hf, h⟩ := exists_of_mapM_eq_error h
    exact .inl ⟨f, .inr ⟨g, hg, hf⟩, h⟩
  rcases bind_eq_error.mp h with h | ⟨searches, -, h⟩
  · obtain ⟨x, hx, h⟩ := exists_of_mapM_eq_error h
    obtain ⟨key, -, h⟩ := exists_of_mapM_eq_error h
    exact .inr ⟨List.ne_nil_of_mem hx, key_of_searchComparison h⟩
  · cases h

/-- Each comparison is that of a static filter, or is named by the request. -/
theorem clause_or_mentions {cs : List Condition} (h : s.conditions d q = .ok cs) {c : Condition}
    (hc : c ∈ cs) {x : Comparison} (hx : x ∈ c.comparisons) :
    (∃ clause ∈ s.filters, x = clauseComparison clause) ∨ q.Mentions x.param := by
  obtain ⟨filters, groups, searches, hfilters, hgroups, hsearches, rfl⟩ := conditions_eq_ok.mp h
  simp only [List.mem_append, List.mem_map] at hc
  rcases hc with ((⟨_, ⟨clause, hclause, rfl⟩, rfl⟩ | ⟨c, hc, rfl⟩) | ⟨g, hg, rfl⟩) | ⟨g, hg, rfl⟩
  · exact .inl ⟨clause, hclause, List.mem_singleton.mp hx⟩
  · obtain rfl := List.mem_singleton.mp hx
    obtain ⟨f, hf, hok⟩ := exists_of_mem_right hfilters hc
    exact .inr (param_of_filterComparison hok ▸ .filter hf)
  · obtain ⟨fs, hfs, hok⟩ := exists_of_mem_right hgroups hg
    obtain ⟨f, hf, hok⟩ := exists_of_mem_right hok hx
    exact .inr (param_of_filterComparison hok ▸ .alternative hfs hf)
  · obtain ⟨y, hy, hok⟩ := exists_of_mem_right hsearches hg
    obtain ⟨key, -, hok⟩ := exists_of_mem_right hok hx
    exact .inr (param_of_searchComparison hok ▸ .search (List.ne_nil_of_mem hy))

theorem key_of_groupExprs {cs : List Column} (h : s.groupExprs q cs = .error e) :
    q.group ≠ [] ∧ e.key = "$group" := by
  rcases bind_eq_error.mp h with h | ⟨asked, -, h⟩
  · obtain ⟨key, hkey, h⟩ := exists_of_mapM_eq_error h
    split at h
    · cases h
    · cases h
      exact ⟨List.ne_nil_of_mem hkey, rfl⟩
  · dsimp only at h
    split at h <;> cases h

theorem key_of_orderTerms (h : s.orderTerms d q = .error e) : q.sort.isSome ∧ e.key = "$sort" := by
  unfold orderTerms at h
  split at h
  · rename_i items hsort
    rcases bind_eq_error.mp h with h | ⟨_, -, h⟩
    · obtain ⟨item, -, h⟩ := exists_of_mapM_eq_error h
      unfold itemTerm at h
      split at h
      · cases h
      · cases h
        exact ⟨by rw [hsort]; rfl, rfl⟩
    · cases h
  · cases h

/-- A request that cannot be settled has a filter that cannot, or is refused by the name of a
reserved parameter that it has. -/
theorem resolve_error_cases {reg : Registry} (hs : s.WellFormed reg) {includes : List String}
    (h : s.resolve d q includes = .error e) :
    (∃ f, q.Compares f ∧ s.filterComparison d f = .error e) ∨
      q.select.isSome ∧ e.key = "$select" ∨ q.searches ≠ [] ∧ e.key = "$search" ∨
      q.group ≠ [] ∧ e.key = "$group" ∨ q.sort.isSome ∧ e.key = "$sort" := by
  rcases bind_eq_error.mp h with h | ⟨selected, -, h⟩
  · exact .inr (.inl (key_of_columns h))
  rcases bind_eq_error.mp h with h | ⟨⟨cs, strip⟩, -, h⟩
  · obtain ⟨out, hout⟩ := exists_addTemplateColumns (d := d)
      (fun key hkey => isSome_of_mem_templateKeys hs hkey) (selected, [])
    cases hout.symm.trans h
  rcases bind_eq_error.mp h with h | ⟨conditions, -, h⟩
  · exact (conditions_error_cases h).imp_right fun hsearch => .inr (.inl hsearch)
  rcases bind_eq_error.mp h with h | ⟨groups, -, h⟩
  · exact .inr (.inr (.inr (.inl (key_of_groupExprs h))))
  rcases bind_eq_error.mp h with h | ⟨orders, -, h⟩
  · exact .inr (.inr (.inr (.inr (key_of_orderTerms h))))
  · cases h

/-- A request that cannot be settled is refused for what it has. -/
theorem mentions_of_resolve {reg : Registry} (hs : s.WellFormed reg) {includes : List String}
    (h : s.resolve d q includes = .error e) : q.Mentions e.key := by
  rcases resolve_error_cases hs h with ⟨f, hf | ⟨g, hg, hf⟩, h⟩ | h | h | h | h
  · exact key_of_filterComparison h ▸ .filter hf
  · exact key_of_filterComparison h ▸ .alternative hg hf
  · exact h.2 ▸ .select h.1
  · exact h.2 ▸ .search h.1
  · exact h.2 ▸ .group h.1
  · exact h.2 ▸ .sort h.1

end Schema

end EntityRest

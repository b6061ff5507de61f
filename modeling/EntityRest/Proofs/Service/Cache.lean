import EntityRest.Proofs.Cache.Fingerprint
import EntityRest.Proofs.Service.Reads

/-! # Answers from the cache

What reads are answered from the cache is what a read before them was answered that differs at most
in blanks and in the order of its parameters. -/

namespace EntityRest

variable {σ κ : Type}

/-! ## Keys -/

namespace ReadRequest

theorem valuesOf_keyParams (r : ReadRequest) (name : String) :
    Pairs.valuesOf name (r.keyParams.mapBoth Text.collapse) =
      Pairs.valuesOf name (r.params.mapBoth Text.collapse) ++
        if name = "$id" then (r.id?.map Text.collapse).toList else [] := by
  have hcollapse : Text.collapse "$id" = "$id" := by decide +kernel
  rw [keyParams, Pairs.mapBoth, List.map_append, ← Pairs.mapBoth, Pairs.valuesOf_append]
  cases r.id? with
  | none => simp [Pairs.valuesOf]
  | some id =>
      by_cases hname : name = "$id"
      · simp [Pairs.valuesOf, hcollapse, hname]
      · simp [Pairs.valuesOf, hcollapse, hname, Ne.symm hname]

theorem Unreserved.valuesOf_eq_nil {r : ReadRequest} (h : r.Unreserved) (hr : r.id? = none) :
    Pairs.valuesOf "$id" (r.params.mapBoth Text.collapse) = [] := by
  rw [Pairs.valuesOf, List.map_eq_nil_iff, List.filter_eq_nil_iff]
  intro p hp
  obtain ⟨q, hq, rfl⟩ := List.mem_map.mp hp
  simpa using h hr q hq

/-- Reads of one key read the same entity in the same way, of parameters that differ in blanks and
in the order of different names. -/
theorem sameThrough_of_key_eq {r r' : ReadRequest} (hr : r.Unreserved) (hr' : r'.Unreserved)
    (hname : Text.startsWith (Fingerprint.keyPrefix r.entity) r'.entity = false)
    (hname' : Text.startsWith (Fingerprint.keyPrefix r'.entity) r.entity = false)
    (h : r.key = r'.key) : r.SameThrough Text.collapse r' := by
  obtain ⟨hentity, hsame⟩ := Fingerprint.same_of_ofRead_eq h hname hname'
  have hids := hsame "$id"
  rw [valuesOf_keyParams, valuesOf_keyParams, if_pos rfl, if_pos rfl] at hids
  obtain ⟨hvalues, hid⟩ : Pairs.valuesOf "$id" (r.params.mapBoth Text.collapse) =
      Pairs.valuesOf "$id" (r'.params.mapBoth Text.collapse) ∧
        r.id?.map Text.collapse = r'.id?.map Text.collapse := by
    cases hid : r.id? with
    | none =>
        rw [hid, hr.valuesOf_eq_nil hid] at hids
        cases hid' : r'.id? with
        | none => rw [hr.valuesOf_eq_nil hid, hr'.valuesOf_eq_nil hid']; simp
        | some id' => simp [hid'] at hids
    | some id =>
        cases hid' : r'.id? with
        | none =>
            rw [hid, hid', hr'.valuesOf_eq_nil hid'] at hids
            simp at hids
        | some id' =>
            rw [hid, hid'] at hids
            obtain ⟨hvalues, hids⟩ := List.append_inj' hids rfl
            exact ⟨hvalues, congrArg some (List.singleton_inj.mp hids)⟩
  refine ⟨hentity, hid, fun name => ?_⟩
  by_cases hname : name = "$id"
  · rw [hname, hvalues]
  · have hnames := hsame name
    rwa [valuesOf_keyParams, valuesOf_keyParams, if_neg hname, if_neg hname, List.append_nil,
      List.append_nil] at hnames

end ReadRequest

/-! ## Runs -/

namespace LocalCache

theorem exists_of_get? {c : LocalCache} {now : Nat} {key body : String}
    (h : c.get? now key = some body) : ∃ e ∈ c.entries, e.key = key ∧ e.value = body := by
  unfold get? at h
  split at h
  · rename_i e he
    split at h
    · exact ⟨e, List.mem_of_find?_eq_some he, by simpa using List.find?_some he, Option.some.inj h⟩
    · cases h
  · cases h

theorem eq_or_mem_of_mem_set {c : LocalCache} {now : Nat} {key value : String} {ttl : Option Nat}
    {e : CacheEntry} (h : e ∈ (c.set now key value ttl).entries) :
    (e.key = key ∧ e.value = value) ∨ (e.key ≠ key ∧ e ∈ c.entries) := by
  rcases List.mem_append.mp h with hold | hnew
  · obtain ⟨hlive, hne⟩ := List.mem_filter.mp hold
    exact .inr ⟨by simpa using hne, (List.mem_filter.mp hlive).1⟩
  · obtain rfl := List.mem_singleton.mp hnew
    exact .inl ⟨rfl, rfl⟩

end LocalCache

namespace Service

/-- The answers to reads at their times, one after the other. -/
def answers (sv : Service σ κ) : List (Nat × ReadRequest) → World σ κ → List (Except Halt String)
  | [], _ => []
  | (now, r) :: rest, w =>
    ((sv.serve r).outcome { w with now }).1 ::
      answers sv rest ((sv.serve r).outcome { w with now }).2

section Local

variable {sv : Service σ LocalCache}

/-- Every cached text is the answer to one of these reads. -/
def Remembers (sv : Service σ LocalCache) (w₀ : World σ LocalCache) (past : List ReadRequest)
    (c : LocalCache) : Prop :=
  ∀ e ∈ c.entries, ∃ r ∈ past, (sv.registry.get? r.entity).isSome ∧ r.key = e.key ∧
    ((sv.withoutCache.serve r).outcome w₀).1 = .ok e.value

/-- The second read is answered in place of the first. -/
structure StandsFor (sv : Service σ LocalCache) (r' r : ReadRequest) : Prop where
  key : r'.key = r.key
  known : (sv.registry.get? r.entity).isSome
  known' : (sv.registry.get? r'.entity).isSome

theorem Remembers.mono {w₀ : World σ LocalCache} {past : List ReadRequest} {c : LocalCache}
    (h : sv.Remembers w₀ past c) (r : ReadRequest) : sv.Remembers w₀ (past ++ [r]) c := by
  intro e he
  obtain ⟨r', hr', hanswer⟩ := h e he
  exact ⟨r', List.mem_append_left _ hr', hanswer⟩

theorem Remembers.exists_of_get? {w₀ : World σ LocalCache} {past : List ReadRequest}
    {c : LocalCache} (h : sv.Remembers w₀ past c) {r : ReadRequest}
    (hr : (sv.registry.get? r.entity).isSome) {now : Nat} {body : String}
    (hget : c.get? now r.key = some body) :
    ∃ r' ∈ past, sv.StandsFor r' r ∧ ((sv.withoutCache.serve r').outcome w₀).1 = .ok body := by
  obtain ⟨e, he, hkey, rfl⟩ := LocalCache.exists_of_get? hget
  obtain ⟨r', hr', hknown, hkey', hanswer⟩ := h e he
  exact ⟨r', hr', ⟨hkey'.trans hkey, hr, hknown⟩, hanswer⟩

theorem Remembers.set {w₀ : World σ LocalCache} {past : List ReadRequest} {c : LocalCache}
    (h : sv.Remembers w₀ past c) {r : ReadRequest} (hr : (sv.registry.get? r.entity).isSome)
    {body : String} (hanswer : ((sv.withoutCache.serve r).outcome w₀).1 = .ok body) (now : Nat)
    (ttl : Option Nat) : sv.Remembers w₀ (past ++ [r]) (c.set now r.key body ttl) := by
  intro e he
  rcases LocalCache.eq_or_mem_of_mem_set he with ⟨hkey, hvalue⟩ | ⟨-, hold⟩
  · exact ⟨r, by simp, hr, hkey.symm, hvalue ▸ hanswer⟩
  · exact h.mono r e hold

/-- A read is answered as without a cache, or as a read before it that stands for it. In both cases
the cache goes on to hold answers. -/
theorem serve_step (hcache : sv.cache = .ofLocal) (hdb : sv.database.Steady)
    {w₀ w : World σ LocalCache} {past : List ReadRequest} (hpast : sv.Remembers w₀ past w.cache)
    (r : ReadRequest) :
    (((sv.serve r).outcome w).1 = ((sv.withoutCache.serve r).outcome w₀).1 ∨
      ∃ r' ∈ past, sv.StandsFor r' r ∧ ∃ body, ((sv.serve r).outcome w).1 = .ok body ∧
        ((sv.withoutCache.serve r').outcome w₀).1 = .ok body) ∧
      sv.Remembers w₀ (past ++ [r]) ((sv.serve r).outcome w).2.cache := by
  cases hs : sv.registry.get? r.entity with
  | none =>
      rw [sv.serve_of_get?_eq_none hs, sv.withoutCache.serve_of_get?_eq_none hs]
      exact ⟨.inl rfl, hpast.mono r⟩
  | some s =>
      have hknown : (sv.registry.get? r.entity).isSome := by simp [hs]
      have hfresh := sv.answer_withoutCache hdb hs w w₀
      have hkept := congrArg World.cache (sv.onDatabase_fresh r w)
      have hlookup : (sv.cache.get w.now r.key w.cache).getD none = w.cache.get? w.now r.key := by
        rw [hcache]
        rfl
      rw [sv.serve_of_get? hs, outcome_throughCache, hlookup]
      cases hget : w.cache.get? w.now r.key with
      | some body =>
          obtain ⟨r', hr', hstands, hanswer⟩ := hpast.exists_of_get? hknown hget
          exact ⟨.inr ⟨r', hr', hstands, body, rfl, hanswer⟩, hpast.mono r⟩
      | none =>
          generalize (sv.fresh r).outcome w = o at hfresh hkept ⊢
          rcases o with ⟨e | v, w'⟩
          · refine ⟨.inl hfresh.symm, ?_⟩
            change sv.Remembers w₀ (past ++ [r]) w'.cache
            rw [hkept]
            exact hpast.mono r
          · refine ⟨.inl hfresh.symm, ?_⟩
            have hstored : ((sv.store r.key v.render).outcome w').2.cache =
                w.cache.set w'.now r.key v.render
                  (sv.settings.cache.lifetime?.map fun d => d.nanos.toNat) := by
              change (sv.cache.set _ _ _ _ w'.cache).getD w'.cache = _
              rw [hcache, ← hkept]
              rfl
            exact hstored ▸ hpast.set hknown hfresh _ _

/-- Every read of a run is answered as without a cache, or as a read before it that stands for
it. -/
theorem answers_run (hcache : sv.cache = .ofLocal) (hdb : sv.database.Steady)
    {w₀ w : World σ LocalCache} {past : List ReadRequest} (hpast : sv.Remembers w₀ past w.cache)
    (before after : List (Nat × ReadRequest)) (now : Nat) (r : ReadRequest) :
    ∃ answer, (sv.answers (before ++ (now, r) :: after) w)[before.length]? = some answer ∧
      (answer = ((sv.withoutCache.serve r).outcome w₀).1 ∨
        ∃ r' ∈ past ++ before.map Prod.snd, sv.StandsFor r' r ∧ ∃ body, answer = .ok body ∧
          ((sv.withoutCache.serve r').outcome w₀).1 = .ok body) := by
  induction before generalizing w past with
  | nil =>
      have hstep := (serve_step hcache hdb (w := { w with now }) hpast r).1
      refine ⟨_, rfl, ?_⟩
      simpa using hstep
  | cons x before ih =>
      have hnext := (serve_step hcache hdb (w := { w with now := x.1 }) hpast x.2).2
      obtain ⟨answer, hanswer, hspec⟩ := ih hnext
      refine ⟨answer, hanswer, ?_⟩
      simpa using hspec

theorem length_answers (sv : Service σ κ) (run : List (Nat × ReadRequest)) (w : World σ κ) :
    (sv.answers run w).length = run.length := by
  induction run generalizing w with
  | nil => rfl
  | cons x run ih => exact congrArg Nat.succ (ih _)

theorem answers_withoutCache (hdb : sv.database.Steady) (run : List (Nat × ReadRequest))
    (w₀ w : World σ LocalCache) :
    sv.withoutCache.answers run w =
      run.map fun x => ((sv.withoutCache.serve x.2).outcome w₀).1 := by
  induction run generalizing w with
  | nil => rfl
  | cons x run ih =>
      rw [answers, List.map_cons, ih]
      exact congrArg (· :: _) (sv.answer_withoutCache_eq hdb x.2 _ _)

theorem StandsFor.sameThrough {r r' : ReadRequest} (h : sv.StandsFor r' r)
    (hnames : ∀ s ∈ sv.registry.schemas, ∀ t ∈ sv.registry.schemas,
      Text.startsWith (Fingerprint.keyPrefix s.name) t.name = false)
    (hr : r.Unreserved) (hr' : r'.Unreserved) : r'.SameThrough Text.collapse r := by
  have hname {x y : ReadRequest} (hx : (sv.registry.get? x.entity).isSome)
      (hy : (sv.registry.get? y.entity).isSome) :
      Text.startsWith (Fingerprint.keyPrefix x.entity) y.entity = false := by
    obtain ⟨s, hs⟩ := Option.isSome_iff_exists.mp hx
    obtain ⟨t, ht⟩ := Option.isSome_iff_exists.mp hy
    rw [← Registry.name_of_get? hs, ← Registry.name_of_get? ht]
    exact hnames s (Registry.mem_of_get? hs) t (Registry.mem_of_get? ht)
  exact ReadRequest.sameThrough_of_key_eq hr' hr (hname h.known' h.known)
    (hname h.known h.known') h.key

/-- Each read of a run gets its own answer, or that of a read before it which differs in blanks. -/
theorem exists_read_answered (hcache : sv.cache = .ofLocal) (hdb : sv.database.Steady)
    (hnames : ∀ s ∈ sv.registry.schemas, ∀ t ∈ sv.registry.schemas,
      Text.startsWith (Fingerprint.keyPrefix s.name) t.name = false)
    {before after : List (Nat × ReadRequest)} {now : Nat} {r : ReadRequest}
    (hrun : ∀ x ∈ before ++ (now, r) :: after, x.2.Unreserved) {w : World σ LocalCache}
    (hw : w.cache = {}) :
    ∃ r', (sv.answers (before ++ (now, r) :: after) w)[before.length]? =
        some ((sv.withoutCache.serve r').outcome w).1 ∧
      (r' = r ∨ r' ∈ before.map Prod.snd ∧ r'.SameThrough Text.collapse r ∧
        ∃ body, (sv.answers (before ++ (now, r) :: after) w)[before.length]? =
          some (.ok body)) := by
  have hempty : sv.Remembers w [] w.cache := by
    intro e he
    rw [hw] at he
    exact absurd he List.not_mem_nil
  obtain ⟨answer, hanswer, hplain | ⟨r', hr', hstands, body, hbody, hplain⟩⟩ :=
    answers_run hcache hdb hempty before after now r
  · exact ⟨r, hplain ▸ hanswer, .inl rfl⟩
  · rw [List.nil_append] at hr'
    obtain ⟨x, hx, rfl⟩ := List.mem_map.mp hr'
    have hr : r.Unreserved := hrun (now, r) (by simp)
    have hx' : x.2.Unreserved := hrun x (List.mem_append_left _ hx)
    rw [hbody] at hanswer
    exact ⟨x.2, hplain ▸ hanswer, .inr ⟨hr', hstands.sameThrough hnames hr hx', body, hanswer⟩⟩

/-- Where parameters that differ in blanks alone are not mixed, reads are answered as without a
cache. -/
theorem answers_eq_withoutCache (hcache : sv.cache = .ofLocal) (hdb : sv.database.Steady)
    (hnames : ∀ s ∈ sv.registry.schemas, ∀ t ∈ sv.registry.schemas,
      Text.startsWith (Fingerprint.keyPrefix s.name) t.name = false)
    {run : List (Nat × ReadRequest)} (hrun : ∀ x ∈ run, x.2.Unreserved)
    {w : World σ LocalCache} (hw : w.cache = {})
    (hblanks : ∀ x ∈ run, ∀ y ∈ run,
      x.2.SameThrough Text.collapse y.2 → x.2.SameThrough id y.2) :
    sv.answers run w = sv.withoutCache.answers run w := by
  rw [answers_withoutCache hdb run w w]
  refine List.ext_getElem? fun i => ?_
  by_cases hi : i < run.length
  · have hsplit : run = run.take i ++ ((run[i]).1, (run[i]).2) :: run.drop (i + 1) := by
      rw [Prod.mk.eta, ← List.drop_eq_getElem_cons hi, List.take_append_drop]
    have hlength : (run.take i).length = i := List.length_take_of_le (Nat.le_of_lt hi)
    obtain ⟨r', hanswer, hr'⟩ := exists_read_answered hcache hdb hnames (hsplit ▸ hrun) hw
    rw [← hsplit] at hanswer hr'
    rw [hlength] at hanswer hr'
    rw [hanswer, List.getElem?_map, List.getElem?_eq_getElem hi]
    rcases hr' with rfl | ⟨hbefore, hsame, body, hbody⟩
    · rfl
    · obtain ⟨x, hx, rfl⟩ := List.mem_map.mp hbefore
      have hid := hblanks x (List.mem_of_mem_take hx) _ (List.getElem_mem hi) hsame
      have hok := Option.some.inj (hanswer.symm.trans hbody)
      rw [hok, Option.map_some, sv.answer_of_sameThrough_id hdb hid hok]
  · have hle := Nat.le_of_not_lt hi
    rw [List.getElem?_eq_none ((length_answers sv run w).le.trans hle),
      List.getElem?_eq_none (List.length_map _ |>.le.trans hle)]

/-- The local cache may answer a read as another one before it, but only as one of the same kind and
entity whose parameters differ in blanks and in the order of different names. So where parameters
that differ in blanks alone are not mixed, reads are answered as without a cache. Reads of one key
that do not differ in blanks have the same statements, but for the order of conditions. -/
theorem answers_eq_up_to_blanks (sv : Service σ LocalCache) (hcache : sv.cache = .ofLocal)
    (hdb : sv.database.Steady)
    (hnames : ∀ s ∈ sv.registry.schemas, ∀ t ∈ sv.registry.schemas,
      Text.startsWith (Fingerprint.keyPrefix s.name) t.name = false)
    {run : List (Nat × ReadRequest)} (hrun : ∀ x ∈ run, x.2.Unreserved)
    {w : World σ LocalCache} (hw : w.cache = {}) :
    (∀ before now r after, run = before ++ (now, r) :: after → ∃ r',
      (sv.answers run w)[before.length]? = some ((sv.withoutCache.serve r').outcome w).1 ∧
      (r' = r ∨ r' ∈ before.map Prod.snd ∧ r'.SameThrough Text.collapse r ∧
        ∃ body, (sv.answers run w)[before.length]? = some (.ok body))) ∧
    ((∀ x ∈ run, ∀ y ∈ run, x.2.SameThrough Text.collapse y.2 → x.2.SameThrough id y.2) →
      sv.answers run w = sv.withoutCache.answers run w) ∧
    ∀ r r' s s', r.Unreserved → r'.Unreserved → sv.registry.get? r.entity = some s →
      sv.registry.get? r'.entity = some s' → r.key = r'.key →
      r.SameThrough Text.collapse r' ∧ (r.SameThrough id r' → ∀ p, sv.planOf s r = .ok p →
        ∃ p', sv.planOf s' r' = .ok p' ∧ p.Reordered p') := by
  refine ⟨fun before now r after hsplit => ?_, answers_eq_withoutCache hcache hdb hnames hrun hw,
    fun r r' s s' hr hr' hs hs' hkey => ?_⟩
  · subst hsplit
    exact exists_read_answered hcache hdb hnames hrun hw
  · have hstands : sv.StandsFor r r' := ⟨hkey, by simp [hs'], by simp [hs]⟩
    have hsame := hstands.sameThrough hnames hr' hr
    have hschema : s' = s := Option.some.inj (hs'.symm.trans (hsame.entity ▸ hs))
    exact ⟨hsame, fun hid p hp => hschema ▸ exists_planOf hid hp⟩

end Local

end Service

/-- Texts without blanks at their ends and without longer blanks inside are told apart. -/
theorem ReadRequest.sameThrough_id_of_collapsed {r r' : ReadRequest}
    (h : r.SameThrough Text.collapse r')
    (hr : r.id?.map Text.collapse = r.id? ∧ r.params.mapBoth Text.collapse = r.params)
    (hr' : r'.id?.map Text.collapse = r'.id? ∧ r'.params.mapBoth Text.collapse = r'.params) :
    r.SameThrough id r' := by
  refine ⟨h.entity, ?_, ?_⟩
  · have hid := h.id
    rw [hr.1, hr'.1] at hid
    simpa using hid
  · have hparams := h.params
    rw [hr.2, hr'.2] at hparams
    simpa [Pairs.mapBoth] using hparams

/-! ## Documents behind a cache -/

namespace Titles

def config (name table : String) : EntityConfig where
  name := name
  table := table
  asName := "d"
  version := "1"
  fields := [⟨"id", "d.id", .int, none⟩, ⟨"title", "d.title", .string, none⟩]

def schema (name table : String) : Schema where
  name := name
  table := table
  asName := "d"
  version := "1"
  primaryKey := "id"
  flat := false
  fields := [⟨"id", "d.id", .int, false, false, {}⟩,
    ⟨"title", "d.title", .string, false, false, {}⟩]
  relations := []
  filters := []
  sorts := []
  groups := []
  children := []

theorem build_eq : Registry.build [config "docs" "docs"] = .ok ⟨[schema "docs" "docs"]⟩ := by
  cbv

/-- A database of one row, which is there for the statements that bind a value. -/
def holding (v : SqlValue) : Database Unit where
  dialect := .postgres
  fetch st x :=
    (.ok (if v ∈ st.params then [[("id", .ofInt64 1), ("title", .string "x")]] else []), x)
  execute _ x := (.ok 0, x)
  isReady _ := true

theorem steady_holding (v : SqlValue) : (holding v).Steady where
  select h x y := by
    have hmem := (h.params_perm .postgres).mem_iff (a := v)
    exact congrArg Except.ok (if_congr hmem rfl rfl)
  count h x y := by
    have hmem := (h.params_perm .postgres).mem_iff (a := v)
    exact congrArg Except.ok (if_congr hmem rfl rfl)

/-- A service with a local cache in front of such a database. -/
def service (v : SqlValue) (schemas : List Schema) : Service Unit LocalCache where
  registry := ⟨schemas⟩
  database := holding v
  cache := .ofLocal
  settings := {}
  translator := .empty "en"
  nesting := 1

def world : World Unit LocalCache := ⟨(), {}, 0, []⟩

/-- A read of documents at the start. -/
def docs (id? : Option String) (params : Pairs) : Nat × ReadRequest := (0, ⟨"docs", id?, params⟩)

/-- The same list in two orders, and a row twice. -/
def run : List (Nat × ReadRequest) :=
  [docs none [("title", "x"), ("id", "1")], docs none [("id", "1"), ("title", "x")],
    docs (some "1") [("title", "x")], docs (some "1") [("title", "x")]]

theorem answers_run_eq :
    Registry.build [config "docs" "docs"] = .ok ⟨[schema "docs" "docs"]⟩ ∧
      (holding (.text "x")).Steady ∧ (∀ x ∈ run, x.2.Unreserved) ∧
      (service (.text "x") [schema "docs" "docs"]).answers run world =
        (service (.text "x") [schema "docs" "docs"]).withoutCache.answers run world := by
  have hunreserved : ∀ x ∈ run, x.2.Unreserved := by
    unfold ReadRequest.Unreserved
    decide +kernel
  have hcollapsed : ∀ x ∈ run, x.2.id?.map Text.collapse = x.2.id? ∧
      x.2.params.mapBoth Text.collapse = x.2.params := by
    decide +kernel
  have hspec := Service.answers_eq_up_to_blanks (service (.text "x") [schema "docs" "docs"]) rfl
    (steady_holding _) (by decide +kernel) hunreserved (w := world) rfl
  refine ⟨build_eq, steady_holding _, hunreserved, hspec.2.1 fun x hx y hy h => ?_⟩
  exact ReadRequest.sameThrough_id_of_collapsed h (hcollapsed x hx) (hcollapsed y hy)

/-- A title of a blank and the word for NULL is answered as the word alone. Besides, a list with a
parameter `$id` is answered as a row, and an entity whose name goes on behind a colon shares keys
with the entity that is named before the colon. -/
theorem answers_shared :
    (∀ v, (holding v).Steady) ∧ world.cache = {} ∧
    (Registry.build [config "docs" "docs"] = .ok ⟨[schema "docs" "docs"]⟩ ∧
      (service (.text " null") [schema "docs" "docs"]).answers
        [docs none [("title", "null")], docs none [("title", " null")]] world ≠
      (service (.text " null") [schema "docs" "docs"]).withoutCache.answers
        [docs none [("title", "null")], docs none [("title", " null")]] world ∧
      (service (.int 1) [schema "docs" "docs"]).answers
        [docs (some "1") [], docs none [("$id", "1")]] world ≠
      (service (.int 1) [schema "docs" "docs"]).withoutCache.answers
        [docs (some "1") [], docs none [("$id", "1")]] world) ∧
    (Registry.build [config "docs" "docs", config "docs:x" "others"] =
        .ok ⟨[schema "docs" "docs", schema "docs:x" "others"]⟩ ∧
      (service (.text "x") [schema "docs" "docs", schema "docs:x" "others"]).answers
        [(0, ⟨"docs:x", none, [("title", "x")]⟩), docs none [("x:title", "x")]] world ≠
      (service (.text "x") [schema "docs" "docs", schema "docs:x" "others"]).withoutCache.answers
        [(0, ⟨"docs:x", none, [("title", "x")]⟩), docs none [("x:title", "x")]] world) := by
  refine ⟨steady_holding, rfl, ⟨build_eq, ?_, ?_⟩, ?_, ?_⟩
  · decide +kernel
  · decide +kernel
  · cbv
  · decide +kernel

end Titles

end EntityRest

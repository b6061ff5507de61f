import EntityRest.Proofs.Service.Tables
import EntityRest.Proofs.Service.Writes

/-! # What a write sweeps

A write sweeps the cached reads of its entity and of those entities that embed it. Reads of other
entities may come to the written table too: of those that share or join the table, and of those that
embed an entity which embeds the written one. -/

namespace EntityRest

namespace Registry

variable {reg : Registry}

theorem mem_staleAfter {name n : String} : n ∈ reg.staleAfter name ↔
    n = name ∨ ∃ s ∈ reg.schemas, s.embeds name = true ∧ s.name = n := by
  simp only [staleAfter, List.mem_cons, List.mem_map, List.mem_filter, Bool.and_eq_true,
    decide_eq_true_eq]
  constructor
  · rintro (rfl | ⟨s, ⟨hs, hembeds, -⟩, rfl⟩)
    · exact .inl rfl
    · exact .inr ⟨s, hs, hembeds, rfl⟩
  · rintro (rfl | ⟨s, hs, hembeds, rfl⟩)
    · exact .inl rfl
    · by_cases hname : s.name = name
      · exact .inl hname
      · exact .inr ⟨s, ⟨hs, hembeds, hname⟩, rfl⟩

theorem get?_name (hnames : (reg.schemas.map Schema.name).Nodup) {s : Schema}
    (hs : s ∈ reg.schemas) : reg.get? s.name = some s :=
  (find?_key_eq_some_iff hnames).mpr ⟨hs, rfl⟩

/-- A schema is swept after writes to the entity: it is of that entity, or embeds it. -/
def Swept (e x : Schema) : Prop := x.name = e.name ∨ x.embeds e.name = true

instance (e x : Schema) : Decidable (Swept e x) := inferInstanceAs (Decidable (_ ∨ _))

theorem name_mem_staleAfter_iff (hnames : (reg.schemas.map Schema.name).Nodup) {e x : Schema}
    (hx : x ∈ reg.schemas) : x.name ∈ reg.staleAfter e.name ↔ Swept e x := by
  rw [mem_staleAfter, Swept]
  refine or_congr_right ⟨?_, fun h => ⟨x, hx, h, rfl⟩⟩
  rintro ⟨s, hs, hembeds, hname⟩
  have hsame : some s = some x := by
    rw [← get?_name hnames hs, ← get?_name hnames hx, hname]
  exact Option.some.inj hsame ▸ hembeds

/-- One step from the entity is enough: what touches its table is swept, and so is what embeds a
schema that embeds it. -/
structure OneStep (reg : Registry) (e : Schema) : Prop where
  touches : ∀ x ∈ reg.schemas, x.Touches e.table → Swept e x
  embeds : ∀ x ∈ reg.schemas, ∀ y ∈ reg.schemas, x.embeds y.name = true → y.embeds e.name = true →
    Swept e x

theorem OneStep.swept_of_reaches {e : Schema} (h : reg.OneStep e) {x : Schema} {table : String}
    (hreach : reg.Reaches x table) (htable : table = e.table) (hx : x ∈ reg.schemas) :
    Swept e x := by
  induction hreach with
  | touches htouches => exact h.touches _ hx (htable ▸ htouches)
  | @embeds x y name table hembeds hy _ ih =>
      have hymem := mem_of_get? hy
      obtain rfl : y.name = name := name_of_get? hy
      rcases ih htable hymem with hname | hstep
      · exact .inr (hname ▸ hembeds)
      · exact h.embeds x hx y hymem hembeds hstep

/-- Everything that reaches the table of an entity is swept exactly if one step is enough. -/
theorem swept_iff_oneStep (hnames : (reg.schemas.map Schema.name).Nodup) {e : Schema}
    (he : e ∈ reg.schemas) :
    (∀ x ∈ reg.schemas, reg.Reaches x e.table → Swept e x) ↔ reg.OneStep e := by
  constructor
  · intro h
    have hown : reg.Reaches e e.table := .touches (.inl rfl)
    refine ⟨fun x hx htouches => h x hx (.touches htouches), fun x hx y hy hxy hye => ?_⟩
    exact h x hx (.embeds hxy (get?_name hnames hy) (.embeds hye (get?_name hnames he) hown))
  · exact fun h x hx hreach => h.swept_of_reaches hreach rfl hx

end Registry

namespace Service

variable {σ κ : Type} (sv : Service σ κ)

/-- A write that changed rows has launched the sweeps of its entity. -/
theorem sweeps_of_changes {s : Schema} {o : WriteRequest} {w : World σ κ}
    (h : ∃ r ∈ ((sv.traced.write s o).outcome w.traced).2.trace, r.Changes) :
    ((sv.traced.write s o).outcome w.traced).2.sweeps =
      w.sweeps ++ (sv.registry.staleAfter s.name).map Fingerprint.keyPrefix := by
  obtain ⟨prepared, w₁, w₂, st, n, hprepare, -, -, hsweeps, hanswer⟩ :=
    sv.carriedOut_of_changes rfl h
  have hbefore := ((sv.traced.prepare_parallel s o).onDatabase.kept hprepare).2.2
  have hafter := ((sv.traced.answer_parallel hprepare).onDatabase.kept hanswer).2.2
  exact hafter.trans (hsweeps.trans (congrArg (· ++ _) hbefore))

/-- Reads of an entity come only to tables within its reach, and a write that changed rows launches
the sweeps of its entity. These are the sweeps of every entity that reaches the written table exactly
if one step from the written entity is enough. -/
theorem sweeps_cover_reads_iff_oneStep {es : List EntityConfig}
    (hbuild : Registry.build es = .ok sv.registry) {e : Schema} (he : e ∈ sv.registry.schemas) :
    (∀ x ∈ sv.registry.schemas, ∀ r : ReadRequest, r.entity = x.name →
      Emits (κ := κ) (Event.ReadsOnly sv.database.dialect (sv.registry.Reaches x))
        (sv.traced.serve r)) ∧
    (∀ (o : WriteRequest) (w : World σ κ),
      (∃ r ∈ ((sv.traced.write e o).outcome w.traced).2.trace, r.Changes) →
      ((sv.traced.write e o).outcome w.traced).2.sweeps =
        w.sweeps ++ (sv.registry.staleAfter e.name).map Fingerprint.keyPrefix) ∧
    ((∀ x ∈ sv.registry.schemas, sv.registry.Reaches x e.table →
      x.name ∈ sv.registry.staleAfter e.name) ↔ sv.registry.OneStep e) := by
  have hnames := Registry.nodup_names_of_build hbuild
  refine ⟨fun x hx r hr => ?_, fun o w h => sv.sweeps_of_changes h, ?_⟩
  · exact sv.emits_serve_readsOnly (hr ▸ Registry.get?_name hnames hx)
  · rw [← Registry.swept_iff_oneStep hnames he]
    refine forall₂_congr fun x hx => imp_congr_right fun _ => ?_
    exact Registry.name_mem_staleAfter_iff hnames hx

end Service

/-! ## Cities, and what is read through them -/

namespace Cities

/-- An entity with a title from an expression. -/
def config (name table asName title : String) (relations : List RelationConfig)
    (children : List ChildConfig) : EntityConfig where
  name := name
  table := table
  asName := asName
  version := "1"
  fields := [⟨"id", asName ++ ".id", .int, none⟩, ⟨"title", title, .string, none⟩]
  relations := relations
  children := children

def schema (name table asName title : String) (relations : List Relation)
    (children : List Child) : Schema where
  name := name
  table := table
  asName := asName
  version := "1"
  primaryKey := "id"
  flat := false
  fields := [⟨"id", asName ++ ".id", .int, false, false, {}⟩,
    ⟨"title", title, .string, false, false, {}⟩]
  relations := relations
  filters := []
  sorts := []
  groups := []
  children := children

def citiesConfig : EntityConfig := config "cities" "cities" "c" "c.title" [] []

def cities : Schema := schema "cities" "cities" "c" "c.title" [] []

def peopleConfig : EntityConfig := config "people" "people" "p" "h.title"
  [⟨.left, none, some "cities", "h", [⟨"h.id", .eq, .null, some "p.city_id"⟩]⟩] []

/-- People join their cities. -/
def people : Schema := schema "people" "people" "p" "h.title"
  [⟨.left, .entity "cities", "h", [⟨"h.id", .eq, .column "p.city_id"⟩]⟩] []

def poemsConfig : EntityConfig := config "poems" "poems" "o" "w.title"
  [⟨.left, none, some "people", "w", [⟨"w.id", .eq, .null, some "o.writer_id"⟩]⟩] []

/-- Poems join the people who wrote them. -/
def poems : Schema := schema "poems" "poems" "o" "w.title"
  [⟨.left, .entity "people", "w", [⟨"w.id", .eq, .column "o.writer_id"⟩]⟩] []

def stampsConfig : EntityConfig := config "stamps" "stamps" "s" "c.title"
  [⟨.left, some "cities", none, "c", [⟨"c.id", .eq, .null, some "s.city_id"⟩]⟩] []

/-- Stamps join the table of the cities. -/
def stamps : Schema := schema "stamps" "stamps" "s" "c.title"
  [⟨.left, .table "cities", "c", [⟨"c.id", .eq, .column "s.city_id"⟩]⟩] []

def townsConfig : EntityConfig := config "towns" "cities" "t" "t.title" [] []

/-- Towns are of the table of the cities. -/
def towns : Schema := schema "towns" "cities" "t" "t.title" [] []

def stopsConfig : EntityConfig := config "stops" "stops" "s" "s.title" []
  [⟨"cities", "cities", "id=\x7bid\x7d"⟩]

/-- Stops list cities. -/
def stops : Schema := schema "stops" "stops" "s" "s.title" []
  [⟨"cities", "cities", "id=\x7bid\x7d"⟩]

def toursConfig : EntityConfig := config "tours" "tours" "t" "t.title" []
  [⟨"stops", "stops", "id=\x7bid\x7d&$include=cities"⟩]

/-- Tours list stops with their cities. -/
def tours : Schema := schema "tours" "tours" "t" "t.title" []
  [⟨"stops", "stops", "id=\x7bid\x7d&$include=cities"⟩]

/-- A database of one title, which every statement reads and every write replaces. -/
def database : Database String where
  dialect := .postgres
  fetch _ x := (.ok [[("id", .ofInt64 1), ("title", .string x)]], x)
  execute _ _ := (.ok 1, "new")
  isReady _ := true

def service (schemas : List Schema) : Service String LocalCache where
  registry := ⟨schemas⟩
  database := database
  cache := .ofLocal
  settings := {}
  translator := .empty "en"
  nesting := 3

def world : World String LocalCache := ⟨"old", {}, 0, []⟩

/-- A new title for the first city. -/
def retitle : WriteRequest := .update "1" (.object [("title", .string "new")])

/-- The answers to a read before a city gets a new title and after that and its sweeps, and to the
same read without a cache. -/
def answers (schemas : List Schema) (r : ReadRequest) :
    Except Halt String × Except Halt String × Except Halt String :=
  let sv := service schemas
  let before := (sv.serve r).outcome world
  let after := sv.runSweeps ((sv.write cities retitle).outcome before.2).2
  (before.1, ((sv.serve r).outcome after).1, ((sv.withoutCache.serve r).outcome after).1)

/-- People join cities and nothing else does, so every read of the table is swept, and people get the
new title. -/
theorem people_oneStep :
    Registry.build [citiesConfig, peopleConfig] = .ok ⟨[cities, people]⟩ ∧
      (∀ x ∈ [cities, people], Registry.Reaches ⟨[cities, people]⟩ x cities.table →
        x.name ∈ Registry.staleAfter ⟨[cities, people]⟩ cities.name) ∧
      let a := answers [cities, people] ⟨people.name, none, []⟩
      a.2.1 ≠ a.1 ∧ a.2.1 = a.2.2 := by
  have hbuild : Registry.build [citiesConfig, peopleConfig] = .ok ⟨[cities, people]⟩ := by cbv
  have hspec := (service [cities, people]).sweeps_cover_reads_iff_oneStep hbuild
    (List.mem_cons_self (a := cities))
  exact ⟨hbuild, hspec.2.2.mpr ⟨by decide +kernel, by decide +kernel⟩, by decide +kernel⟩

/-- Reads of the schema with its children come to the table of the cities. Its name is not among those
that are swept, and what was cached is answered although there is a new title. -/
def StaysStale (schemas : List Schema) (x : Schema) : Prop :=
  Registry.Reaches ⟨schemas⟩ x cities.table ∧
    x.name ∉ Registry.staleAfter ⟨schemas⟩ cities.name ∧
    let a := answers schemas ⟨x.name, none, x.children.map fun c => ("$include", c.key)⟩
    a.1.toBool = true ∧ a.2.1 = a.1 ∧ a.2.2 ≠ a.1

/-- A chain of derived tables, a joined table, a shared table and a chain of lists all lead to the
table of the cities without being swept. -/
theorem stays_stale :
    (Registry.build [citiesConfig, peopleConfig, poemsConfig] = .ok ⟨[cities, people, poems]⟩ ∧
      StaysStale [cities, people, poems] poems) ∧
    (Registry.build [citiesConfig, stampsConfig, townsConfig] = .ok ⟨[cities, stamps, towns]⟩ ∧
      StaysStale [cities, stamps, towns] stamps ∧ StaysStale [cities, stamps, towns] towns) ∧
    (Registry.build [citiesConfig, stopsConfig, toursConfig] = .ok ⟨[cities, stops, tours]⟩ ∧
      StaysStale [cities, stops, tours] tours) := by
  have hcities (schemas : List Schema) : Registry.Reaches ⟨schemas⟩ cities cities.table :=
    .touches (.inl rfl)
  refine ⟨⟨by cbv, ?_, ?_⟩, ⟨by cbv, ⟨?_, ?_⟩, ?_, ?_⟩, by cbv, ?_, ?_⟩
  · have hjoins : people.embeds cities.name = true ∧ poems.embeds people.name = true := by
      decide +kernel
    exact .embeds hjoins.2 (by decide +kernel) (.embeds hjoins.1 (by decide +kernel) (hcities _))
  · decide +kernel
  · exact .touches (by decide +kernel)
  · decide +kernel
  · exact .touches (by decide +kernel)
  · decide +kernel
  · have hlists : stops.embeds cities.name = true ∧ tours.embeds stops.name = true := by
      decide +kernel
    exact .embeds hlists.2 (by decide +kernel) (.embeds hlists.1 (by decide +kernel) (hcities _))
  · decide +kernel

end Cities

end EntityRest

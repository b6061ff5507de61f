import EntityRest.Proofs.Migration.Table
import EntityRest.Proofs.Schema.WellFormed
import EntityRest.Proofs.Service.Writes
import EntityRest.Proofs.Sql.Names

/-! # The columns of a write

What the statement of a write names, and how that fits the table that is created for its entity. A
column is listed for every field that is stored in it and is given a value, so a statement names a
column twice where two such fields share it, though the table has it once. -/

namespace EntityRest

/-- Distinct things are chosen from a list exactly if no two of its items make the same choice. -/
theorem nodup_filterMap_iff {α β : Type} {l : List α} (hl : l.Nodup) {g : α → Option β} :
    (l.filterMap g).Nodup ↔
      ∀ a ∈ l, ∀ b ∈ l, ∀ c, g a = some c → g b = some c → a = b := by
  rw [List.Nodup, List.pairwise_filterMap]
  constructor
  · intro h a ha b hb c hac hbc
    by_contra hne
    have hsymm : Std.Symm fun a b => ∀ c, g a = some c → ∀ c', g b = some c' → c ≠ c' :=
      ⟨fun a b hab c hc c' hc' => (hab c' hc' c hc).symm⟩
    exact h.forall ha hb hne c hac c hbc rfl
  · intro h
    refine hl.imp_of_mem ?_
    rintro a b ha hb hne c hac _ hbc rfl
    exact hne (h a ha b hb c hac hbc)

/-! ## What a write lists -/

namespace WriteRequest

/-- The values that a write gives for fields. -/
def values (s : Schema) : WriteRequest → Entries Json
  | create payload fresh => s.withKey fresh (s.readPayload payload)
  | update _ payload => s.readPayload payload
  | delete _ => []

/-- Does the write match rows by the column of the primary key? That column is then not written. -/
def matchesKey : WriteRequest → Bool
  | create .. => false
  | update .. | delete _ => true

/-- The column that a write lists for a field, if any. -/
def listed? (o : WriteRequest) (s : Schema) (f : Field) : Option String :=
  (f.columnOf? s.asName).filter fun c =>
    ((o.values s).get? f.key).isSome && !(o.matchesKey && s.primaryColumn? = some c)

/-- A column is listed for a field that is stored in it and is given a value. The column of the
primary key is not set where rows are matched by it. -/
theorem listed?_eq_some_iff {o : WriteRequest} {s : Schema} {f : Field} {c : String} :
    o.listed? s f = some c ↔ f.columnOf? s.asName = some c ∧
      ((o.values s).get? f.key).isSome ∧ (o.matchesKey = true → s.primaryColumn? ≠ some c) := by
  simp only [listed?, Option.filter_eq_some_iff, Bool.and_eq_true, Bool.not_eq_true',
    Bool.and_eq_false_iff, decide_eq_false_iff_not]
  grind

/-- What the statement of a write names. -/
def names (o : WriteRequest) (s : Schema) : WriteNames where
  table := s.table
  listed := s.fields.filterMap (o.listed? s)
  matched := if o.matchesKey then s.primaryColumn?.toList else []

theorem names_create (s : Schema) (payload : Json) (fresh : Uuid) :
    (create payload fresh).names s = ⟨s.table, s.fields.filterMap fun f =>
      (f.columnOf? s.asName).filter fun _ =>
        ((s.withKey fresh (s.readPayload payload)).get? f.key).isSome, []⟩ := by
  have hlisted (f : Field) : (create payload fresh).listed? s f =
      (f.columnOf? s.asName).filter fun _ =>
        ((s.withKey fresh (s.readPayload payload)).get? f.key).isSome := by
    simp [listed?, values, matchesKey]
  rw [names, funext hlisted]
  rfl

theorem names_update {s : Schema} {key : String} (hkey : s.primaryColumn? = some key)
    (id : String) (payload : Json) :
    (update id payload).names s = ⟨s.table, (s.fields.filterMap fun f =>
      (f.columnOf? s.asName).filter fun _ => ((s.readPayload payload).get? f.key).isSome).filter
        (· ≠ key), [key]⟩ := by
  have hlisted (f : Field) : (update id payload).listed? s f =
      ((f.columnOf? s.asName).filter fun _ => ((s.readPayload payload).get? f.key).isSome).filter
        (· ≠ key) := by
    simp [listed?, values, matchesKey, hkey, Option.filter_filter, Bool.and_comm, eq_comm]
  rw [names, funext hlisted, ← List.filter_filterMap]
  simp [matchesKey, hkey]

theorem names_delete {s : Schema} {key : String} (hkey : s.primaryColumn? = some key)
    (id : String) : (delete id).names s = ⟨s.table, [], [key]⟩ := by
  have hlisted (f : Field) : (delete id).listed? s f = none := by
    simp [listed?, values, Entries.get?]
  rw [names, funext hlisted]
  simp [matchesKey, hkey]

end WriteRequest

namespace Schema

variable {s : Schema}

theorem map_fst_ownValues (s : Schema) (values : Entries Json) :
    (s.ownValues values).map Prod.fst = s.fields.filterMap fun f =>
      (f.columnOf? s.asName).filter fun _ => (values.get? f.key).isSome := by
  rw [ownValues, ownColumns, List.filterMap_filterMap, List.map_filterMap]
  refine List.filterMap_congr fun f _ => ?_
  cases f.columnOf? s.asName with
  | none => rfl
  | some c => cases hget : values.get? f.key <;> simp [hget, Option.filter]

theorem primaryColumn?_of_keyValue {id column : String} {v : SqlValue}
    (h : s.keyValue id = .ok (column, v)) : s.primaryColumn? = some column := by
  unfold keyValue at h
  split at h
  · cases h
  · cases h
  · rename_i hcolumn
    split at h
    · cases h
      exact hcolumn
    · cases h

end Schema

/-! ## The statement of a write -/

namespace Service

variable {σ κ : Type} (sv : Service σ κ) {s : Schema} {o : WriteRequest}

/-- A write is prepared with a statement that names its columns. -/
theorem readWrite?_of_prepare {w w' : World σ κ} {fs : List Fragment}
    {back : Work (World σ κ) Json} (h : (sv.prepare s o).outcome w = (.ok (some fs, back), w')) :
    sv.database.dialect.readWrite? (Fragment.statement sv.database.dialect fs).sql =
      some (o.names s) := by
  cases o with
  | create payload fresh =>
      obtain ⟨_, w₁, -, hrest⟩ := Work.outcome_bind_eq_ok.mp h
      dsimp only at hrest
      split at hrest
      · cases hrest
      · cases hrest
        rw [Sql.readWrite?_insert, Schema.map_fst_ownValues, WriteRequest.names_create]
  | update id payload =>
      obtain ⟨_, w₁, -, hrest⟩ := Work.outcome_bind_eq_ok.mp h
      obtain ⟨⟨column, key⟩, w₂, hkey, hprepared⟩ := Work.outcome_bind_eq_ok.mp hrest
      have hcolumn := Schema.primaryColumn?_of_keyValue (eq_of_lift hkey).1
      obtain ⟨hfs, -⟩ := Prod.mk.inj (Except.ok.inj (Prod.mk.inj hprepared).1)
      rw [Sql.readWrite?_update hfs, Schema.map_fst_ownValues, WriteRequest.names_update hcolumn]
  | delete id =>
      obtain ⟨row, w₁, -, hrest⟩ := Work.outcome_bind_eq_ok.mp h
      obtain ⟨⟨column, key⟩, w₂, hkey, hprepared⟩ := Work.outcome_bind_eq_ok.mp hrest
      have hcolumn := Schema.primaryColumn?_of_keyValue (eq_of_lift hkey).1
      cases hprepared
      rw [Sql.readWrite?_delete, WriteRequest.names_delete hcolumn]

theorem executed_of_emits {α : Type} {work : Work (World (σ × List Event) κ) α}
    (hwork : Emits Event.IsFetch work) {w w' : World (σ × List Event) κ}
    {answer : Except Halt α} (h : work.outcome w = (answer, w')) {st : Statement}
    {executed : Except Halt Nat} (hst : .executed st executed ∈ w'.trace) :
    .executed st executed ∈ w.trace := by
  obtain ⟨reads, htrace, hreads⟩ := hwork w
  rw [h] at htrace
  rw [htrace, List.mem_append] at hst
  exact hst.resolve_right fun hmem => hreads _ hmem

/-- What a write executes is the statement that it was prepared with. -/
theorem readWrite?_of_executed {w : World σ κ} {w' : World (σ × List Event) κ}
    {answer : Except Halt Json} (h : (sv.traced.write s o).outcome w.traced = (answer, w'))
    {st : Statement} {executed : Except Halt Nat} (hst : .executed st executed ∈ w'.trace) :
    sv.database.dialect.readWrite? st.sql = some (o.names s) := by
  have hreads := (sv.traced.prepare_parallel s o).emits_isFetch
  rw [write_eq, Work.outcome_bind] at h
  rcases hprepare : (sv.traced.prepare s o).outcome w.traced with ⟨_ | ⟨fs, back⟩, w₁⟩
  · rw [hprepare] at h
    cases h
    cases executed_of_emits hreads hprepare hst
  have hanswer := (sv.traced.answer_parallel hprepare).emits_isFetch
  simp only [hprepare] at h
  cases fs with
  | none =>
      simp only [pure_bind] at h
      cases executed_of_emits hreads hprepare (executed_of_emits hanswer h hst)
  | some fs =>
      have hnames := sv.traced.readWrite?_of_prepare hprepare
      suffices hst : st = Fragment.statement sv.database.dialect fs from hst ▸ hnames
      simp only [Work.outcome_bind] at h
      rcases hcarry : (sv.traced.carryOut s o fs).outcome w₁ with ⟨carried, w₂⟩
      have hcarried : .executed st executed ∈ w₂.trace := by
        rw [hcarry] at h
        cases carried with
        | error e =>
            cases h
            exact hst
        | ok _ => exact executed_of_emits hanswer h hst
      obtain ⟨executed', htrace, -⟩ := sv.trace_of_carryOut hcarry
      rw [htrace, List.mem_append, List.mem_singleton] at hcarried
      rcases hcarried with hbefore | hthis
      · cases executed_of_emits hreads hprepare hbefore
      · cases hthis
        rfl

/-- A write lists the columns of the fields that it gives values for, each of them once exactly if
no two of these fields are stored in the same column. -/
theorem listed_nodup_iff {es : List EntityConfig} (hreg : Registry.build es = .ok sv.registry)
    (hs : s ∈ sv.registry.schemas) {w : World σ κ} {w' : World (σ × List Event) κ}
    {answer : Except Halt Json} (h : (sv.traced.write s o).outcome w.traced = (answer, w'))
    {st : Statement} {executed : Except Halt Nat} (hst : .executed st executed ∈ w'.trace) :
    ∃ names, sv.database.dialect.readWrite? st.sql = some names ∧ names.table = s.table ∧
      (∀ c, c ∈ names.listed ↔ ∃ f ∈ s.fields, o.listed? s f = some c) ∧
      (names.listed.Nodup ↔ ∀ f ∈ s.fields, ∀ g ∈ s.fields, ∀ c,
        o.listed? s f = some c → o.listed? s g = some c → f = g) := by
  have hwell := (Registry.build_eq_ok_iff_wellFormed.mp hreg).2.schemas s hs
  have hfields : s.fields.Nodup := (List.nodup_append'.mp hwell.keys).1.of_map
  refine ⟨_, sv.readWrite?_of_executed h hst, rfl, fun c => ?_, nodup_filterMap_iff hfields⟩
  exact List.mem_filterMap

end Service

/-! ## Writes to a created table -/

/-- What a statement names is there in the table of a schema. -/
structure WriteNames.Fits (names : WriteNames) (o : WriteRequest) (s : Schema)
    (columns : List String) (key : String) : Prop where
  table : names.table = s.table
  listed : ∀ c ∈ names.listed, c ∈ columns
  matched : names.matched = if o.matchesKey then [key] else []

/-- The table that is created for a schema has the columns that its fields are stored in, each of
them once, and one of them for its primary key. Whatever is written to it names columns that it has
and matches rows by its primary key. -/
theorem Registry.createTable_fits_writes {es : List EntityConfig} {reg : Registry}
    (hreg : build es = .ok reg) {s : Schema} (hs : s ∈ reg.schemas) (d : Dialect) :
    ∃ (columns : List String) (key : String),
      d.readTable? (s.createTable d) = some (s.table, columns.map .column ++ [.key key]) ∧
      columns.Nodup ∧ (∀ c, c ∈ columns ↔ ∃ f ∈ s.fields, f.columnOf? s.asName = some c) ∧
      key ∈ columns ∧
      ∀ {σ κ : Type} (sv : Service σ κ), sv.registry = reg → sv.database.dialect = d →
        ∀ (o : WriteRequest) (w : World σ κ) (answer : Except Halt Json)
          (w' : World (σ × List Event) κ),
          (sv.traced.write s o).outcome w.traced = (answer, w') →
          ∀ st executed, .executed st executed ∈ w'.trace →
            ∃ names, d.readWrite? st.sql = some names ∧ names.Fits o s columns key := by
  have hwell := (build_eq_ok_iff_wellFormed.mp hreg).2.schemas s hs
  have hkeys := (List.nodup_append'.mp hwell.keys).1
  obtain ⟨key, hkey⟩ :=
    Option.isSome_iff_exists.mp ((Schema.isSome_primaryColumn?_iff hkeys).mpr hwell.primary)
  obtain ⟨columns, hread, hnodup, hcolumns⟩ := Schema.readTable?_createTable (d := d) hkey
  have hown (c : String) : c ∈ columns ↔ ∃ f ∈ s.fields, f.columnOf? s.asName = some c := by
    rw [hcolumns c]
    simp [Schema.ownColumns]
  have hmem : key ∈ columns := by
    obtain ⟨f, hf, hcolumn⟩ := Option.bind_eq_some_iff.mp hkey
    exact (hown key).mpr ⟨f, ((Schema.field?_eq_some_iff hkeys).mp hf).1, hcolumn⟩
  refine ⟨columns, key, hread, hnodup, hown, hmem, ?_⟩
  rintro σ κ sv - rfl o w answer w' h st executed hst
  refine ⟨_, sv.readWrite?_of_executed h hst, rfl, fun c hc => ?_, ?_⟩
  · obtain ⟨f, hf, hlisted⟩ := List.mem_filterMap.mp hc
    exact (hown c).mpr ⟨f, hf, (WriteRequest.listed?_eq_some_iff.mp hlisted).1⟩
  · simp [WriteRequest.names, hkey]

/-! ## Two fields on one column

Documents whose title goes by two names, and whose subtitle is stored beside it. -/

namespace Labels

def config : EntityConfig where
  name := "docs"
  table := "docs"
  asName := "d"
  version := "1"
  fields := [⟨"id", "d.id", .int, none⟩, ⟨"title", "d.title", .string, none⟩,
    ⟨"name", "d.title", .string, none⟩, ⟨"subtitle", "d.title_2", .string, none⟩]

def schema : Schema where
  name := "docs"
  table := "docs"
  asName := "d"
  version := "1"
  primaryKey := "id"
  flat := false
  fields := [⟨"id", "d.id", .int, false, false, {}⟩,
    ⟨"title", "d.title", .string, false, false, {}⟩,
    ⟨"name", "d.title", .string, false, false, {}⟩,
    ⟨"subtitle", "d.title_2", .string, false, false, {}⟩]
  relations := []
  filters := []
  sorts := []
  groups := []
  children := []

theorem build_eq : Registry.build [config] = .ok ⟨[schema]⟩ := by cbv

/-- A service whose statements all change a row, and which finds the same document for all reads. -/
def service : Service Unit LocalCache where
  registry := ⟨[schema]⟩
  database :=
    { dialect := .postgres
      fetch _ x := (.ok [[("id", .number (.ofInt64 1)), ("title", .string "x"),
        ("name", .string "x"), ("subtitle", .null)]], x)
      execute _ x := (.ok 1, x)
      isReady _ := true }
  cache := .ofLocal
  settings := {}
  translator := .empty "en"
  nesting := 1

def world : World Unit LocalCache := ⟨(), {}, 0, []⟩

def trace (o : WriteRequest) : List Event :=
  ((service.traced.write schema o).outcome world.traced).2.trace

/-- What the statements that were executed for a write name. -/
def written (o : WriteRequest) : List (Option WriteNames) :=
  (trace o).filterMap fun e =>
    match e with
    | .executed st _ => some (Dialect.postgres.readWrite? st.sql)
    | .fetched .. => none

theorem exists_of_mem_written {o : WriteRequest} {names : WriteNames}
    (h : some names ∈ written o) :
    ∃ st executed, .executed st executed ∈ trace o ∧
      Dialect.postgres.readWrite? st.sql = some names := by
  obtain ⟨e, he, hnames⟩ := List.mem_filterMap.mp h
  cases e with
  | fetched => cases hnames
  | executed st executed => exact ⟨st, executed, he, Option.some.inj hnames⟩

/-- A document with a title. -/
def titled : Json := .object [("id", .number (.ofInt64 1)), ("title", .string "x")]

/-- The same document with both names of its title. -/
def twiceTitled : Json :=
  .object [("id", .number (.ofInt64 1)), ("title", .string "x"), ("name", .string "x")]

/-- A title that is given by one of its names is stored once. -/
theorem titled_listed_once :
    Registry.build [config] = .ok service.registry ∧
      ∃ st executed names, .executed st executed ∈ trace (.create titled .zero) ∧
        Dialect.postgres.readWrite? st.sql = some names ∧ names.listed.Nodup := by
  have hwritten : some ⟨"docs", ["id", "title"], []⟩ ∈ written (.create titled .zero) := by
    decide +kernel
  obtain ⟨st, executed, hst, -⟩ := exists_of_mem_written hwritten
  rcases hrun : (service.traced.write schema (.create titled .zero)).outcome world.traced
    with ⟨answer, w'⟩
  have htrace : trace (.create titled .zero) = w'.trace := by rw [trace, hrun]
  obtain ⟨names, hnames, -, -, hnodup⟩ :=
    service.listed_nodup_iff build_eq (List.mem_singleton_self schema) hrun (htrace ▸ hst)
  have hdistinct : ∀ f ∈ schema.fields, ∀ g ∈ schema.fields,
      ((.create titled .zero : WriteRequest).listed? schema f).isSome →
      (.create titled .zero : WriteRequest).listed? schema f =
        (.create titled .zero : WriteRequest).listed? schema g → f = g := by
    decide +kernel
  refine ⟨build_eq, st, executed, names, hst, hnames, hnodup.mpr fun f hf g hg c hfc hgc => ?_⟩
  exact hdistinct f hf g hg (by simp [hfc]) (hfc.trans hgc.symm)

/-- A title that is given by both of its names is listed twice, though the table has it once. -/
theorem twiceTitled_listed_twice :
    Registry.build [config] = .ok service.registry ∧
      ∀ o ∈ [.create twiceTitled .zero, .update "1" twiceTitled],
        ∃ st executed names, .executed st executed ∈ trace o ∧
          Dialect.postgres.readWrite? st.sql = some names ∧ ¬ names.listed.Nodup := by
  have hcreate : some ⟨"docs", ["id", "title", "title"], []⟩ ∈
      written (.create twiceTitled .zero) := by
    decide +kernel
  have hupdate : some ⟨"docs", ["title", "title"], ["id"]⟩ ∈
      written (.update "1" twiceTitled) := by
    decide +kernel
  refine ⟨build_eq, fun o ho => ?_⟩
  obtain rfl | rfl : o = .create twiceTitled .zero ∨ o = .update "1" twiceTitled := by
    simpa using ho
  · obtain ⟨st, executed, hst, hnames⟩ := exists_of_mem_written hcreate
    exact ⟨st, executed, _, hst, hnames, by decide⟩
  · obtain ⟨st, executed, hst, hnames⟩ := exists_of_mem_written hupdate
    exact ⟨st, executed, _, hst, hnames, by decide⟩

/-- A new title fits the table, which has the title and the subtitle. -/
theorem titled_fits :
    Registry.build [config] = .ok service.registry ∧ schema ∈ service.registry.schemas ∧
      ∃ columns key,
        Dialect.postgres.readTable? (schema.createTable .postgres) =
          some ("docs", columns.map .column ++ [.key key]) ∧
        columns.Nodup ∧ key ∈ columns ∧ "title" ∈ columns ∧ "title_2" ∈ columns ∧
        ∃ st executed names, .executed st executed ∈ trace (.update "1" titled) ∧
          Dialect.postgres.readWrite? st.sql = some names ∧
          names.Fits (.update "1" titled) schema columns key := by
  have hwritten : some ⟨"docs", ["title"], ["id"]⟩ ∈ written (.update "1" titled) := by
    decide +kernel
  obtain ⟨st, executed, hst, -⟩ := exists_of_mem_written hwritten
  rcases hrun : (service.traced.write schema (.update "1" titled)).outcome world.traced
    with ⟨answer, w'⟩
  have htrace : trace (.update "1" titled) = w'.trace := by rw [trace, hrun]
  have hschema : schema ∈ service.registry.schemas := List.mem_singleton_self schema
  obtain ⟨columns, key, hread, hnodup, hcolumns, hkey, hfits⟩ :=
    Registry.createTable_fits_writes build_eq hschema .postgres
  have hstored : (∃ f ∈ schema.fields, f.columnOf? schema.asName = some "title") ∧
      ∃ f ∈ schema.fields, f.columnOf? schema.asName = some "title_2" := by
    decide +kernel
  obtain ⟨names, hnames, hfit⟩ :=
    hfits service rfl rfl _ world answer w' hrun st executed (htrace ▸ hst)
  exact ⟨build_eq, hschema, columns, key, hread, hnodup, hkey, (hcolumns _).mpr hstored.1,
    (hcolumns _).mpr hstored.2, st, executed, names, hst, hnames, hfit⟩

end Labels

end EntityRest

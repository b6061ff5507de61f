import EntityRest.Migration.Rebuild
import EntityRest.Proofs.Migration.Stamp
import EntityRest.Proofs.Schema.Registry
import EntityRest.Proofs.Service.Work

/-! # Rebuilding twice

A table that several stale entities share is rebuilt for the first of them only, and only that one
is stamped. So a second run rebuilds nothing exactly where stale entities have tables of their
own. -/

namespace EntityRest.Migration

variable {σ : Type}

/-! ## Databases that keep stamps -/

/-- The statement is executed, and changes the rows of stamps in this way. -/
def Changes (db : Database σ) (rows : σ → List Row) (fs : List Fragment)
    (change : List Row → List Row) : Prop :=
  ∀ x, ∃ n y, db.execute (Fragment.statement db.dialect fs) x = (.ok n, y) ∧
    rows y = change (rows x)

/-- No statement of a migration fails, and only the statements on stamps change the rows of
stamps. -/
structure KeepsStamps (db : Database σ) (reg : Registry) (rows : σ → List Row) : Prop where
  create : Changes db rows (createStamps db.dialect) id
  select : ∀ x, ∃ y, db.fetch (Fragment.statement db.dialect (selectStamps db.dialect)) x =
    (.ok (rows x), y) ∧ rows y = rows x
  drop : ∀ s ∈ reg.schemas, Changes db rows [.text (s.dropTable db.dialect)] id
  build : ∀ s ∈ reg.schemas, Changes db rows [.text (s.createTable db.dialect)] id
  delete : ∀ name, Changes db rows (deleteStamp db.dialect name) (withoutStamp name)
  insert : ∀ name version, Changes db rows (insertStamp db.dialect name version)
    (· ++ [stampRow name version])

theorem Changes.recorded {db : Database σ} {rows : σ → List Row} {fs : List Fragment}
    {change : List Row → List Row} (h : Changes db rows fs change) (x : σ) (log : List Statement) :
    ∃ n y, (db.recorded.run fs).outcome (x, log) =
        (.ok n, (y, log ++ [Fragment.statement db.dialect fs])) ∧ rows y = change (rows x) := by
  obtain ⟨n, y, hexecute, hrows⟩ := h x
  refine ⟨n, y, ?_, hrows⟩
  simp [Database.recorded, hexecute]

/-! ## What a run rebuilds -/

/-- Is the entity not stamped with its version, although it has columns of its own? -/
def isStale (stamps : Entries String) (s : Schema) : Bool :=
  stamps.get? s.name ≠ some s.version && !s.ownColumns.isEmpty

/-- The schemas whose tables are rebuilt, after the tables `done`. -/
def rebuilt (stamps : Entries String) : List String → List Schema → List Schema
  | _, [] => []
  | done, s :: rest =>
    if isSettled stamps done s then rebuilt stamps done rest
    else s :: rebuilt stamps (s.table :: done) rest

section

variable {stamps : Entries String} {done : List String} {s : Schema} {schemas : List Schema}

theorem isSettled_eq_false_iff :
    isSettled stamps done s = false ↔ isStale stamps s = true ∧ s.table ∉ done := by
  simp [isSettled, isStale, and_assoc]

theorem rebuilt_cons_of_settled (h : isSettled stamps done s = true) :
    rebuilt stamps done (s :: schemas) = rebuilt stamps done schemas := by
  rw [rebuilt, if_pos h]

theorem rebuilt_cons_of_not_settled (h : isSettled stamps done s = false) :
    rebuilt stamps done (s :: schemas) = s :: rebuilt stamps (s.table :: done) schemas := by
  rw [rebuilt, if_neg (by simp [h])]

/-- Stale entities are rebuilt in their order, but some may be passed over. -/
theorem rebuilt_sublist :
    (rebuilt stamps done schemas).Sublist (schemas.filter (isStale stamps)) := by
  induction schemas generalizing done with
  | nil => exact List.Sublist.slnil
  | cons s schemas ih =>
      cases hsettled : isSettled stamps done s with
      | true =>
          rw [rebuilt_cons_of_settled hsettled]
          exact ih.trans ((List.sublist_cons_self s schemas).filter _)
      | false =>
          obtain ⟨hstale, -⟩ := isSettled_eq_false_iff.mp hsettled
          rw [rebuilt_cons_of_not_settled hsettled, List.filter_cons_of_pos hstale]
          exact ih.cons_cons s

theorem rebuilt_tables :
    ((rebuilt stamps done schemas).map Schema.table).Nodup ∧
      ∀ s ∈ rebuilt stamps done schemas, s.table ∉ done := by
  induction schemas generalizing done with
  | nil => simp [rebuilt]
  | cons s schemas ih =>
      cases hsettled : isSettled stamps done s with
      | true =>
          rw [rebuilt_cons_of_settled hsettled]
          exact ih
      | false =>
          obtain ⟨-, hdone⟩ := isSettled_eq_false_iff.mp hsettled
          rw [rebuilt_cons_of_not_settled hsettled]
          obtain ⟨hnodup, hlater⟩ := @ih (s.table :: done)
          constructor
          · rw [List.map_cons, List.nodup_cons]
            refine ⟨fun hmem => ?_, hnodup⟩
            obtain ⟨t, ht, htable⟩ := List.mem_map.mp hmem
            exact hlater t ht (htable ▸ List.mem_cons_self)
          · intro t ht
            rcases List.mem_cons.mp ht with rfl | ht
            · exact hdone
            · exact fun hmem => hlater t ht (List.mem_cons_of_mem _ hmem)

/-- Stale entities with tables of their own are all rebuilt. -/
theorem rebuilt_eq_filter (hnodup : ((schemas.filter (isStale stamps)).map Schema.table).Nodup)
    (hdone : ∀ s ∈ schemas, isStale stamps s = true → s.table ∉ done) :
    rebuilt stamps done schemas = schemas.filter (isStale stamps) := by
  induction schemas generalizing done with
  | nil => rfl
  | cons s schemas ih =>
      obtain ⟨hs, hschemas⟩ := List.forall_mem_cons.mp hdone
      cases hstale : isStale stamps s with
      | false =>
          have hsettled : isSettled stamps done s = true := by
            refine Bool.eq_true_of_not_eq_false fun h => ?_
            rw [(isSettled_eq_false_iff.mp h).1] at hstale
            cases hstale
          have hskip : (s :: schemas).filter (isStale stamps) = schemas.filter (isStale stamps) :=
            List.filter_cons_of_neg (by simp [hstale])
          rw [hskip] at hnodup ⊢
          rw [rebuilt_cons_of_settled hsettled]
          exact ih hnodup hschemas
      | true =>
          have hsettled := isSettled_eq_false_iff.mpr ⟨hstale, hs hstale⟩
          rw [List.filter_cons_of_pos hstale] at hnodup ⊢
          obtain ⟨hnotin, hnodup⟩ := List.nodup_cons.mp hnodup
          rw [rebuilt_cons_of_not_settled hsettled]
          refine congrArg (s :: ·) (ih hnodup fun t ht htstale hmem => ?_)
          rcases List.mem_cons.mp hmem with htable | hmem
          · refine hnotin (List.mem_map.mpr ⟨t, ?_, htable⟩)
            exact List.mem_filter.mpr ⟨ht, htstale⟩
          · exact hschemas t ht htstale hmem

/-- Nothing is rebuilt exactly if nothing is stale. -/
theorem rebuilt_eq_nil_iff :
    rebuilt stamps [] schemas = [] ↔ ∀ s ∈ schemas, isStale stamps s = false := by
  induction schemas with
  | nil => simp [rebuilt]
  | cons s schemas ih =>
      cases hsettled : isSettled stamps [] s with
      | true =>
          have hstale : isStale stamps s = false := by
            refine Bool.eq_false_of_not_eq_true fun h => ?_
            rw [isSettled_eq_false_iff.mpr ⟨h, List.not_mem_nil⟩] at hsettled
            cases hsettled
          rw [rebuilt_cons_of_settled hsettled, ih]
          simp [hstale]
      | false =>
          obtain ⟨hstale, -⟩ := isSettled_eq_false_iff.mp hsettled
          rw [rebuilt_cons_of_not_settled hsettled]
          simp [hstale]

/-- Every stale entity is rebuilt exactly if no two of them share a table. -/
theorem forall_stale_mem_rebuilt_iff (hnodup : (schemas.map Schema.name).Nodup) :
    (∀ s ∈ schemas, isStale stamps s = true → s ∈ rebuilt stamps [] schemas) ↔
      ((schemas.filter (isStale stamps)).map Schema.table).Nodup := by
  constructor
  · intro h
    have hstale : (schemas.filter (isStale stamps)).Nodup := hnodup.of_map.filter _
    have hsubset : schemas.filter (isStale stamps) ⊆ rebuilt stamps [] schemas := by
      intro s hs
      obtain ⟨hmem, hs⟩ := List.mem_filter.mp hs
      exact h s hmem hs
    have heq : rebuilt stamps [] schemas = schemas.filter (isStale stamps) :=
      rebuilt_sublist.eq_of_length_le (hstale.subperm hsubset).length_le
    exact heq ▸ rebuilt_tables.1
  · intro h s hs hstale
    rw [rebuilt_eq_filter h fun _ _ _ => List.not_mem_nil]
    exact List.mem_filter.mpr ⟨hs, hstale⟩

end

/-! ## Runs -/

/-- The statements that rebuild the table of a schema and stamp its entity. -/
def rebuildStatements (d : Dialect) (s : Schema) : List Statement :=
  [[.text (s.dropTable d)], [.text (s.createTable d)], deleteStamp d s.name,
    insertStamp d s.name s.version].map (Fragment.statement d)

variable {db : Database σ} {reg : Registry} {rows : σ → List Row}

theorem outcome_rebuild (hdb : KeepsStamps db reg rows) {s : Schema} (hs : s ∈ reg.schemas) (x : σ)
    (log : List Statement) :
    ∃ y, (rebuild db.recorded s).outcome (x, log) =
        (.ok (), (y, log ++ rebuildStatements db.dialect s)) ∧ rows y = restamp (rows x) s := by
  obtain ⟨n₁, y₁, hdrop, hrows₁⟩ := (hdb.drop s hs).recorded x log
  obtain ⟨n₂, y₂, hbuild, hrows₂⟩ := (hdb.build s hs).recorded y₁ _
  obtain ⟨n₃, y₃, hdelete, hrows₃⟩ := (hdb.delete s.name).recorded y₂ _
  obtain ⟨n₄, y₄, hinsert, hrows₄⟩ := (hdb.insert s.name s.version).recorded y₃ _
  refine ⟨y₄, ?_, ?_⟩
  · rw [rebuild, Database.recorded_dialect, Work.outcome_bind_ok hdrop, Work.outcome_bind_ok hbuild,
      Work.outcome_bind_ok hdelete, Work.outcome_bind_ok hinsert, Work.outcome_pure]
    simp [rebuildStatements]
  · rw [hrows₄, hrows₃, hrows₂, hrows₁]
    rfl

/-- A run through schemas rebuilds some of them, and stamps these. -/
theorem outcome_rebuildEach (hdb : KeepsStamps db reg rows) (stamps : Entries String)
    {schemas : List Schema} (hschemas : ∀ s ∈ schemas, s ∈ reg.schemas) (done : List String)
    (x : σ) (log : List Statement) :
    ∃ y, (rebuildEach db.recorded stamps done schemas).outcome (x, log) =
        (.ok ((rebuilt stamps done schemas).map Schema.name),
          (y, log ++ (rebuilt stamps done schemas).flatMap (rebuildStatements db.dialect))) ∧
      rows y = (rebuilt stamps done schemas).foldl restamp (rows x) := by
  induction schemas generalizing done x log with
  | nil => exact ⟨x, by simp [rebuildEach, rebuilt], rfl⟩
  | cons s schemas ih =>
      obtain ⟨hs, hschemas⟩ := List.forall_mem_cons.mp hschemas
      cases hsettled : isSettled stamps done s with
      | true =>
          rw [rebuildEach, if_pos hsettled, rebuilt_cons_of_settled hsettled]
          exact ih hschemas done x log
      | false =>
          obtain ⟨y, hy, hrows⟩ := outcome_rebuild hdb hs x log
          obtain ⟨z, hz, hzrows⟩ :=
            ih hschemas (s.table :: done) y (log ++ rebuildStatements db.dialect s)
          refine ⟨z, ?_, ?_⟩
          · rw [rebuildEach, if_neg (by simp [hsettled]), Work.outcome_bind_ok hy,
              Work.outcome_bind_ok hz, Work.outcome_pure, rebuilt_cons_of_not_settled hsettled]
            simp [List.append_assoc]
          · rw [rebuilt_cons_of_not_settled hsettled, List.foldl_cons, ← hrows, hzrows]

theorem outcome_rebuildStale (hdb : KeepsStamps db reg rows) (x : σ) :
    ∃ y, (rebuildStale db.recorded reg).outcome (x, []) =
        (.ok ((rebuilt (stampsOf (rows x)) [] reg.sorted).map Schema.name),
          (y, Fragment.statement db.dialect (createStamps db.dialect) ::
            (rebuilt (stampsOf (rows x)) [] reg.sorted).flatMap
              (rebuildStatements db.dialect))) ∧
      rows y = (rebuilt (stampsOf (rows x)) [] reg.sorted).foldl restamp (rows x) := by
  obtain ⟨n, y₁, hcreate, hrows₁⟩ := hdb.create.recorded x []
  obtain ⟨y₂, hselect, hrows₂⟩ := hdb.select y₁
  have hfetch : (db.recorded.fetchRows (selectStamps db.dialect)).outcome
      (y₁, [] ++ [Fragment.statement db.dialect (createStamps db.dialect)]) =
      (.ok (rows y₁), (y₂, [Fragment.statement db.dialect (createStamps db.dialect)])) := by
    simp [Database.recorded, hselect]
  have hsorted : ∀ s ∈ reg.sorted, s ∈ reg.schemas := fun s hs => List.mem_mergeSort.mp hs
  obtain ⟨y₃, hrun, hrows₃⟩ := outcome_rebuildEach hdb (stampsOf (rows y₁)) hsorted [] y₂
    [Fragment.statement db.dialect (createStamps db.dialect)]
  have hsame : rows y₁ = rows x := hrows₁
  rw [hsame] at hrows₂ hfetch hrun hrows₃
  rw [hrows₂] at hrows₃
  refine ⟨y₃, ?_, hrows₃⟩
  rw [rebuildStale, Database.recorded_dialect, Work.outcome_bind_ok hcreate,
    Work.outcome_bind_ok hfetch, hrun]
  rfl

/-! ## Two runs -/

/-- After a run an entity is stale if it was stale before and was passed over. -/
theorem isStale_after_iff {schemas : List Schema} (hnodup : (schemas.map Schema.name).Nodup)
    {before : List Row} {s : Schema} (hs : s ∈ schemas) :
    isStale (stampsOf ((rebuilt (stampsOf before) [] schemas).foldl restamp before)) s = true ↔
      isStale (stampsOf before) s = true ∧ s ∉ rebuilt (stampsOf before) [] schemas := by
  have hsub : (rebuilt (stampsOf before) [] schemas).Sublist schemas :=
    rebuilt_sublist.trans List.filter_sublist
  by_cases hmem : s ∈ rebuilt (stampsOf before) [] schemas
  · have hstamp := get?_stampsOf_foldl_of_mem (hnodup.sublist (hsub.map _)) hmem before
    simp [isStale, hstamp, hmem]
  · have hname : s.name ∉ (rebuilt (stampsOf before) [] schemas).map Schema.name := by
      intro hin
      obtain ⟨t, ht, hname⟩ := List.mem_map.mp hin
      have hts : t = s := List.inj_on_of_nodup_map hnodup (hsub.subset ht) hs hname
      exact hmem (hts ▸ ht)
    have hstamp := get?_stampsOf_foldl_of_not_mem hname before
    simp [isStale, hstamp, hmem]

theorem startsWith_drop_createStamps (d : Dialect) :
    Text.startsWith "DROP TABLE" (Fragment.statement d (createStamps d)).sql = false := by
  cases d <;> decide +kernel

/-- A second run drops nothing and rebuilds nothing exactly if no two stale entities share a
table. -/
theorem rebuildStale_twice {es : List EntityConfig} (hreg : Registry.build es = .ok reg)
    (hdb : KeepsStamps db reg rows) (x : σ) :
    ∃ names y executed again z executedAgain,
      (rebuildStale db.recorded reg).outcome (x, []) = (.ok names, (y, executed)) ∧
      (rebuildStale db.recorded reg).outcome (y, []) = (.ok again, (z, executedAgain)) ∧
      ((again = [] ∧ ∀ st ∈ executedAgain, Text.startsWith "DROP TABLE" st.sql = false) ↔
        ((reg.schemas.filter (isStale (stampsOf (rows x)))).map Schema.table).Nodup) := by
  obtain ⟨y, hfirst, hrows⟩ := outcome_rebuildStale hdb x
  obtain ⟨z, hsecond, -⟩ := outcome_rebuildStale hdb y
  refine ⟨_, y, _, _, z, _, hfirst, hsecond, ?_⟩
  have hperm : reg.sorted.Perm reg.schemas := List.mergeSort_perm _ _
  have hnodup : (reg.sorted.map Schema.name).Nodup :=
    (hperm.map _).nodup_iff.mpr (Registry.nodup_names_of_build hreg)
  have htables : ((reg.sorted.filter (isStale (stampsOf (rows x)))).map Schema.table).Nodup ↔
      ((reg.schemas.filter (isStale (stampsOf (rows x)))).map Schema.table).Nodup :=
    ((hperm.filter _).map _).nodup_iff
  have hagain : rebuilt (stampsOf (rows y)) [] reg.sorted = [] ↔
      ∀ s ∈ reg.sorted, isStale (stampsOf (rows x)) s = true →
        s ∈ rebuilt (stampsOf (rows x)) [] reg.sorted := by
    rw [rebuilt_eq_nil_iff]
    refine forall₂_congr fun s hs => ?_
    rw [← Bool.not_eq_true, hrows, isStale_after_iff hnodup hs]
    tauto
  rw [← htables, ← forall_stale_mem_rebuilt_iff hnodup, ← hagain]
  constructor
  · rintro ⟨hnil, -⟩
    exact List.map_eq_nil_iff.mp hnil
  · intro hnil
    rw [hnil]
    refine ⟨rfl, fun st hst => ?_⟩
    obtain rfl := List.mem_singleton.mp hst
    exact startsWith_drop_createStamps db.dialect

/-! ## A database of stamps alone -/

/-- A database that holds nothing but rows of stamps. -/
def stampsOnly (d : Dialect) : Database (List Row) where
  dialect := d
  fetch _ rows := (.ok rows, rows)
  execute st rows :=
    match st.params with
    | [.text name] => (.ok 1, withoutStamp name rows)
    | [.text name, .text version] => (.ok 1, rows ++ [stampRow name version])
    | _ => (.ok 0, rows)
  isReady _ := true

theorem keepsStamps_stampsOnly (d : Dialect) (reg : Registry) :
    KeepsStamps (stampsOnly d) reg id where
  create rows := ⟨0, rows, rfl, rfl⟩
  select rows := ⟨rows, rfl, rfl⟩
  drop _ _ rows := ⟨0, rows, rfl, rfl⟩
  build _ _ rows := ⟨0, rows, rfl, rfl⟩
  delete name rows := ⟨1, withoutStamp name rows, rfl, rfl⟩
  insert name version rows := ⟨1, rows ++ [stampRow name version], rfl, rfl⟩

/-- Orders were built for another version, and payments never. -/
theorem rebuildStale_twice_shop :
    Registry.build [Shop.ordersConfig, Shop.paymentsConfig] = .ok Shop.registry ∧
      KeepsStamps (stampsOnly .postgres) Shop.registry id ∧
      ∃ names y executed z executedAgain,
        (rebuildStale (stampsOnly .postgres).recorded Shop.registry).outcome
          ([[("name", .null)], stampRow "orders" "0"], []) = (.ok names, (y, executed)) ∧
        (rebuildStale (stampsOnly .postgres).recorded Shop.registry).outcome (y, []) =
          (.ok [], (z, executedAgain)) ∧
        ∀ st ∈ executedAgain, Text.startsWith "DROP TABLE" st.sql = false := by
  have hdb := keepsStamps_stampsOnly .postgres Shop.registry
  obtain ⟨names, y, executed, again, z, executedAgain, hfirst, hsecond, hiff⟩ :=
    rebuildStale_twice Shop.build_eq hdb [[("name", .null)], stampRow "orders" "0"]
  obtain ⟨rfl, hdrop⟩ := hiff.mpr (by decide +kernel)
  exact ⟨Shop.build_eq, hdb, names, y, executed, z, executedAgain, hfirst, hsecond, hdrop⟩

/-! ## Two entities of one table -/

namespace Twins

/-- An entity that reads the table of notes. -/
def config (name asName : String) : EntityConfig where
  name := name
  table := "notes"
  asName := asName
  version := "1"
  fields := [⟨"id", asName ++ ".id", .int, none⟩]

def schema (name asName : String) : Schema where
  name := name
  table := "notes"
  asName := asName
  version := "1"
  primaryKey := "id"
  flat := false
  fields := [⟨"id", asName ++ ".id", .int, false, false, {}⟩]
  relations := []
  filters := []
  sorts := []
  groups := []
  children := []

def registry : Registry := ⟨[schema "drafts" "d", schema "notes" "n"]⟩

theorem build_eq : Registry.build [config "drafts" "d", config "notes" "n"] = .ok registry := by
  cbv

/-- The second run drops the table that the first run built. -/
theorem rebuilt_again :
    Registry.build [config "drafts" "d", config "notes" "n"] = .ok registry ∧
      KeepsStamps (stampsOnly .postgres) registry id ∧
      ∃ y executed z executedAgain,
        (rebuildStale (stampsOnly .postgres).recorded registry).outcome ([], []) =
          (.ok ["drafts"], (y, executed)) ∧
        (rebuildStale (stampsOnly .postgres).recorded registry).outcome (y, []) =
          (.ok ["notes"], (z, executedAgain)) ∧
        ∃ st ∈ executedAgain, Text.startsWith "DROP TABLE" st.sql = true := by
  have hdb := keepsStamps_stampsOnly .postgres registry
  have hsorted : registry.sorted = registry.schemas := by cbv
  have hfirst : rebuilt (stampsOf []) [] registry.sorted = [schema "drafts" "d"] := by
    rw [hsorted]
    rfl
  obtain ⟨y, hrun, hrows⟩ := outcome_rebuildStale hdb []
  simp only [id, hfirst] at hrun hrows
  have hsecond : rebuilt (stampsOf y) [] registry.sorted = [schema "notes" "n"] := by
    rw [hrows, hsorted]
    rfl
  obtain ⟨z, hrunAgain, -⟩ := outcome_rebuildStale hdb y
  simp only [id, hsecond] at hrunAgain
  refine ⟨build_eq, hdb, y, _, z, _, hrun, hrunAgain,
    Fragment.statement .postgres [.text ((schema "notes" "n").dropTable .postgres)], ?_, ?_⟩
  · exact List.mem_cons_of_mem _ List.mem_cons_self
  · decide +kernel

end Twins

end EntityRest.Migration

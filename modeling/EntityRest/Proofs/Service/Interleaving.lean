import EntityRest.Proofs.Service.Cache
import EntityRest.Proofs.Service.Sweeps

/-! # Requests side by side

Reads and writes of an entity that take their steps in any order. When nothing is under way any
more, every cached body was stored after the last write that was answered, but its rows may have been
fetched before that. -/

namespace EntityRest

variable {σ : Type}

/-! ## Scenes -/

/-- Where a body comes from: the read, the world in which its rows were fetched, and the number of
writes until then. -/
structure Source (σ : Type) where
  request : ReadRequest
  world : World σ LocalCache
  writes : Nat
  body : String

/-- A request that is under way. -/
inductive Task (σ : Type) where
  /-- A read that was not found in the cache. -/
  | fetching (r : ReadRequest)
  /-- A read whose body is not stored yet. -/
  | storing (src : Source σ)
  /-- A write that was carried out and did not launch its sweeps yet. -/
  | launching

/-- The world with the requests that are under way, and a record of the writes. -/
structure Scene (σ : Type) where
  world : World σ LocalCache
  tasks : List (Task σ)
  /-- How many writes were executed. -/
  writes : Nat
  /-- How many were executed when the last one that was answered was. -/
  answered : Nat
  /-- Of the body under a key, where it comes from and how many writes were executed before it was
  stored. -/
  origin? : String → Option (Source σ × Nat)

/-- A step of a request, of a sweep, or of something else. -/
inductive Act (σ : Type) where
  | lookup (r : ReadRequest)
  | fetch (i : Nat)
  | store (i : Nat)
  | execute (o : WriteRequest) (fs : List Fragment)
  | launch (i : Nat)
  | sweep (i : Nat)
  /-- A read is given up. -/
  | abandon (i : Nat)
  | elapse (nanos : Nat)
  /-- Others use the database. -/
  | elsewhere (x : σ)

namespace Scene

def start (w : World σ LocalCache) : Scene σ := ⟨w, [], 0, 0, fun _ => none⟩

/-- No request is under way, and every launched sweep has run. -/
def AtRest (c : Scene σ) : Prop := c.tasks = [] ∧ c.world.sweeps = []

instance (c : Scene σ) : Decidable c.AtRest := inferInstanceAs (Decidable (_ ∧ _))

/-- A sweep of the entity is still to come. -/
def Pending (s : Schema) (c : Scene σ) : Prop :=
  .launching ∈ c.tasks ∨ Fingerprint.keyPrefix s.name ∈ c.world.sweeps

/-- A read is given up. A write that was carried out is not. -/
def abandonRead (i : Nat) (c : Scene σ) : Scene σ :=
  match c.tasks[i]? with
  | some .launching => c
  | _ => { c with tasks := c.tasks.eraseIdx i }

end Scene

namespace Service

variable (sv : Service σ LocalCache) (s : Schema)

/-- A read looks its key up. What is found is its answer, and nothing is left to do. -/
def lookUp (r : ReadRequest) (c : Scene σ) : Scene σ :=
  match (sv.cached? r.key).outcome c.world with
  | (.ok none, _) => { c with tasks := c.tasks ++ [.fetching r] }
  | _ => c

def fetchTask (i : Nat) (c : Scene σ) : Scene σ :=
  match c.tasks[i]? with
  | some (.fetching r) =>
    match (sv.fresh r).outcome c.world with
    | (.ok v, w) =>
      { c with world := w, tasks := c.tasks.set i (.storing ⟨r, c.world, c.writes, v.render⟩) }
    | (.error _, w) => { c with world := w, tasks := c.tasks.eraseIdx i }
  | _ => c

def storeTask (i : Nat) (c : Scene σ) : Scene σ :=
  match c.tasks[i]? with
  | some (.storing src) =>
    { c with
      world := ((sv.store src.request.key src.body).outcome c.world).2
      tasks := c.tasks.eraseIdx i
      origin? := fun key => if key = src.request.key then some (src, c.writes) else c.origin? key }
  | _ => c

/-- A write executes its statement. Without an answer it may have changed rows or not; it is counted,
and it launches no sweeps. -/
def executeWrite (o : WriteRequest) (fs : List Fragment) (c : Scene σ) : Scene σ :=
  match (sv.execute fs).outcome c.world with
  | (.ok n, w) =>
    if n = 0 ∧ !o.goesOn then { c with world := w }
    else
      { c with
        world := w
        tasks := c.tasks ++ [.launching]
        writes := c.writes + 1
        answered := c.writes + 1 }
  | (.error _, w) => { c with world := w, writes := c.writes + 1 }

def launchTask (i : Nat) (c : Scene σ) : Scene σ :=
  match c.tasks[i]? with
  | some .launching =>
    { c with world := ((sv.invalidate s).outcome c.world).2, tasks := c.tasks.eraseIdx i }
  | _ => c

def sweepOne (i : Nat) (c : Scene σ) : Scene σ :=
  match c.world.sweeps[i]? with
  | some start =>
    { c with
      world := { c.world with
        cache := (sv.cache.sweep start c.world.cache).getD c.world.cache
        sweeps := c.world.sweeps.eraseIdx i } }
  | none => c

/-- A step in a scene; one that is not there to be taken changes nothing. -/
def act : Act σ → Scene σ → Scene σ
  | .lookup r, c => sv.lookUp r c
  | .fetch i, c => sv.fetchTask i c
  | .store i, c => sv.storeTask i c
  | .execute o fs, c => sv.executeWrite o fs c
  | .launch i, c => sv.launchTask s i c
  | .sweep i, c => sv.sweepOne i c
  | .abandon i, c => c.abandonRead i
  | .elapse nanos, c => { c with world := { c.world with now := c.world.now + nanos } }
  | .elsewhere x, c => { c with world := { c.world with database := x } }

def actAll (acts : List (Act σ)) (c : Scene σ) : Scene σ := acts.foldl (fun c a => sv.act s a c) c

/-! ## What every step keeps -/

section Lists

variable {α : Type} {l : List α} {i : Nat} {a b : α}

theorem mem_eraseIdx_of_ne (hi : l[i]? ≠ some a) (ha : a ∈ l) : a ∈ l.eraseIdx i := by
  obtain ⟨j, hj⟩ := List.mem_iff_getElem?.mp ha
  refine List.mem_eraseIdx_iff_getElem?.mpr ⟨j, ?_, hj⟩
  rintro rfl
  exact hi hj

theorem mem_set_of_ne (hi : l[i]? ≠ some a) (ha : a ∈ l) : a ∈ l.set i b := by
  obtain ⟨j, hj⟩ := List.mem_iff_getElem?.mp ha
  refine List.mem_of_getElem? (i := j) ?_
  rw [List.getElem?_set_ne, hj]
  rintro rfl
  exact hi hj

end Lists

/-- The body is the answer to its read from the rows that were fetched. -/
def Explains (src : Source σ) (key body : String) : Prop :=
  src.request.key = key ∧ src.body = body ∧
    ∃ v, ((sv.fresh src.request).outcome src.world).1 = .ok v ∧ v.render = body

/-- What is known of every scene. -/
structure Accounted (c : Scene σ) : Prop where
  answered_le : c.answered ≤ c.writes
  storing : ∀ src, .storing src ∈ c.tasks →
    src.writes ≤ c.writes ∧ sv.Explains src src.request.key src.body
  cached : ∀ e ∈ c.world.cache.entries, ∃ src stored, c.origin? e.key = some (src, stored) ∧
    sv.Explains src e.key e.value ∧ src.writes ≤ stored ∧ stored ≤ c.writes ∧
      (Text.startsWith (Fingerprint.keyPrefix s.name) e.key = true →
        c.answered ≤ stored ∨ c.Pending s)

theorem accounted_start {w : World σ LocalCache} (hw : w.cache = {}) :
    sv.Accounted s (.start w) where
  answered_le := Nat.le_refl 0
  storing := nofun
  cached := by
    intro e he
    change e ∈ w.cache.entries at he
    rw [hw] at he
    cases he

variable {sv : Service σ LocalCache} {s : Schema} {c c' : Scene σ}

/-- A step that stores nothing keeps the account, if it starts no write without a sweep to come. -/
theorem Accounted.of_subset (h : sv.Accounted s c) (horigin : c'.origin? = c.origin?)
    (hcached : c'.world.cache.entries ⊆ c.world.cache.entries) (hwrites : c.writes ≤ c'.writes)
    (hanswered : c'.answered ≤ c'.writes)
    (hstoring : ∀ src, .storing src ∈ c'.tasks → .storing src ∈ c.tasks ∨
      src.writes ≤ c'.writes ∧ sv.Explains src src.request.key src.body)
    (hpending : ∀ e ∈ c'.world.cache.entries,
      Text.startsWith (Fingerprint.keyPrefix s.name) e.key = true → ∀ stored,
        c.answered ≤ stored ∨ c.Pending s → c'.answered ≤ stored ∨ c'.Pending s) :
    sv.Accounted s c' where
  answered_le := hanswered
  storing := by
    intro src hsrc
    rcases hstoring src hsrc with hold | hnew
    · exact ⟨(h.storing src hold).1.trans hwrites, (h.storing src hold).2⟩
    · exact hnew
  cached := by
    intro e he
    obtain ⟨src, stored, hsrc, hexplains, hfetched, hstored, hswept⟩ := h.cached e (hcached he)
    refine ⟨src, stored, horigin ▸ hsrc, hexplains, hfetched, hstored.trans hwrites, ?_⟩
    exact fun hstarts => hpending e he hstarts stored (hswept hstarts)

theorem Accounted.lookUp (h : sv.Accounted s c) (r : ReadRequest) :
    sv.Accounted s (sv.lookUp r c) := by
  unfold Service.lookUp
  split
  · refine h.of_subset rfl (List.Subset.refl _) (Nat.le_refl _) h.answered_le ?_ ?_
    · intro src hsrc
      exact .inl (by simpa using hsrc)
    · intro e _ _ stored
      exact Or.imp_right (Or.imp_left fun hmem => List.mem_append_left _ hmem)
  · exact h

theorem Accounted.fetchTask (h : sv.Accounted s c) (i : Nat) :
    sv.Accounted s (sv.fetchTask i c) := by
  unfold Service.fetchTask
  split
  · rename_i r htask
    have hother : c.tasks[i]? ≠ some .launching := by simp [htask]
    split
    · rename_i v w hfresh
      obtain ⟨hsame, -, hsweeps⟩ := (sv.onDatabase_fresh r).kept hfresh
      refine h.of_subset rfl ?_ (Nat.le_refl _) h.answered_le ?_ ?_
      · exact hsame ▸ List.Subset.refl _
      · intro src hsrc
        refine (List.mem_or_eq_of_mem_set hsrc).imp_right fun hnew => ?_
        obtain rfl := Task.storing.inj hnew
        exact ⟨Nat.le_refl _, rfl, rfl, v, congrArg Prod.fst hfresh, rfl⟩
      · intro e _ _ stored
        exact Or.imp_right (Or.imp (mem_set_of_ne hother) fun hmem => hsweeps ▸ hmem)
    · rename_i w hfresh
      obtain ⟨hsame, -, hsweeps⟩ := (sv.onDatabase_fresh r).kept hfresh
      refine h.of_subset rfl ?_ (Nat.le_refl _) h.answered_le ?_ ?_
      · exact hsame ▸ List.Subset.refl _
      · exact fun src hsrc => .inl (List.mem_of_mem_eraseIdx hsrc)
      · intro e _ _ stored
        exact Or.imp_right (Or.imp (mem_eraseIdx_of_ne hother) fun hmem => hsweeps ▸ hmem)
  · exact h

/-- A body that is stored is stored after every write so far; the others keep their account. -/
theorem Accounted.storeTask (hcache : sv.cache = .ofLocal) (h : sv.Accounted s c) (i : Nat) :
    sv.Accounted s (sv.storeTask i c) := by
  unfold Service.storeTask
  split
  · rename_i src htask
    have hother : c.tasks[i]? ≠ some .launching := by simp [htask]
    obtain ⟨hfetched, hexplains⟩ := h.storing src (List.mem_of_getElem? htask)
    have hset : ((sv.store src.request.key src.body).outcome c.world).2.cache =
        c.world.cache.set c.world.now src.request.key src.body
          (sv.settings.cache.lifetime?.map fun d => d.nanos.toNat) := by
      change (sv.cache.set _ _ _ _ c.world.cache).getD c.world.cache = _
      rw [hcache]
      rfl
    refine ⟨h.answered_le, fun src' hsrc' => h.storing src' (List.mem_of_mem_eraseIdx hsrc'), ?_⟩
    intro e he
    rw [hset] at he
    rcases LocalCache.eq_or_mem_of_mem_set he with ⟨hkey, hvalue⟩ | ⟨hne, hold⟩
    · refine ⟨src, c.writes, if_pos hkey, ?_, hfetched, Nat.le_refl _, fun _ => .inl h.answered_le⟩
      exact hkey ▸ hvalue ▸ hexplains
    · obtain ⟨src', stored, hsrc', hexplains', hfetched', hstored, hswept⟩ := h.cached e hold
      refine ⟨src', stored, (if_neg hne).trans hsrc', hexplains', hfetched', hstored, ?_⟩
      exact fun hstarts => (hswept hstarts).imp_right (Or.imp_left (mem_eraseIdx_of_ne hother))
  · exact h

/-- A write that is carried out has its sweep to come. -/
theorem Accounted.executeWrite (h : sv.Accounted s c) (o : WriteRequest) (fs : List Fragment) :
    sv.Accounted s (sv.executeWrite o fs c) := by
  unfold Service.executeWrite
  split
  · rename_i n w hexecuted
    obtain ⟨hsame, -, hsweeps⟩ := (sv.onDatabase_execute fs).kept hexecuted
    split
    · refine h.of_subset rfl (hsame ▸ List.Subset.refl _) (Nat.le_refl _) h.answered_le ?_ ?_
      · exact fun src hsrc => .inl hsrc
      · intro e _ _ stored
        exact Or.imp_right (Or.imp_right fun hmem => hsweeps ▸ hmem)
    · refine h.of_subset rfl (hsame ▸ List.Subset.refl _) (Nat.le_succ _) (Nat.le_refl _) ?_ ?_
      · intro src hsrc
        exact .inl (by simpa using hsrc)
      · exact fun e _ _ stored _ => .inr (.inl (by simp))
  · rename_i w hexecuted
    obtain ⟨hsame, -, hsweeps⟩ := (sv.onDatabase_execute fs).kept hexecuted
    refine h.of_subset rfl (hsame ▸ List.Subset.refl _) (Nat.le_succ _)
      (Nat.le_succ_of_le h.answered_le) ?_ ?_
    · exact fun src hsrc => .inl hsrc
    · intro e _ _ stored
      exact Or.imp_right (Or.imp_right fun hmem => hsweeps ▸ hmem)

theorem Accounted.launchTask (h : sv.Accounted s c) (i : Nat) :
    sv.Accounted s (sv.launchTask s i c) := by
  unfold Service.launchTask
  split
  · refine h.of_subset rfl (List.Subset.refl _) (Nat.le_refl _) h.answered_le ?_ ?_
    · exact fun src hsrc => .inl (List.mem_of_mem_eraseIdx hsrc)
    · intro e _ _ stored _
      refine .inr (.inr (List.mem_append_right _ ?_))
      exact List.mem_map_of_mem List.mem_cons_self
  · exact h

/-- The sweep of the entity leaves nothing of it; the other sweeps leave its sweep to come. -/
theorem Accounted.sweepOne (hcache : sv.cache = .ofLocal) (h : sv.Accounted s c) (i : Nat) :
    sv.Accounted s (sv.sweepOne i c) := by
  unfold Service.sweepOne
  split
  · rename_i start hstart
    have hswept : (sv.cache.sweep start c.world.cache).getD c.world.cache =
        c.world.cache.deletePrefix start := by
      rw [hcache]
      rfl
    rw [hswept]
    refine h.of_subset rfl (List.filter_subset_self _) (Nat.le_refl _) h.answered_le ?_ ?_
    · exact fun src hsrc => .inl hsrc
    · intro e he hstarts stored
      refine Or.imp_right (Or.imp_right (mem_eraseIdx_of_ne fun hsame => ?_))
      obtain rfl := Option.some.inj (hstart.symm.trans hsame)
      simp [LocalCache.deletePrefix, hstarts] at he
  · exact h

theorem Accounted.abandonRead (h : sv.Accounted s c) (i : Nat) :
    sv.Accounted s (c.abandonRead i) := by
  unfold Scene.abandonRead
  split
  · exact h
  · rename_i hother
    refine h.of_subset rfl (List.Subset.refl _) (Nat.le_refl _) h.answered_le ?_ ?_
    · exact fun src hsrc => .inl (List.mem_of_mem_eraseIdx hsrc)
    · intro e _ _ stored
      exact Or.imp_right (Or.imp_left (mem_eraseIdx_of_ne hother))

theorem accounted_act (hcache : sv.cache = .ofLocal) (h : sv.Accounted s c) (a : Act σ) :
    sv.Accounted s (sv.act s a c) := by
  cases a with
  | lookup r => exact h.lookUp r
  | fetch i => exact h.fetchTask i
  | store i => exact h.storeTask hcache i
  | execute o fs => exact h.executeWrite o fs
  | launch i => exact h.launchTask i
  | sweep i => exact h.sweepOne hcache i
  | abandon i => exact h.abandonRead i
  | elapse nanos => exact ⟨h.answered_le, h.storing, h.cached⟩
  | elsewhere x => exact ⟨h.answered_le, h.storing, h.cached⟩

theorem accounted_actAll (hcache : sv.cache = .ofLocal) (h : sv.Accounted s c)
    (acts : List (Act σ)) : sv.Accounted s (sv.actAll s acts c) := by
  induction acts generalizing c with
  | nil => exact h
  | cons a acts ih => exact ih (accounted_act hcache h a)

/-! ## Requests one after the other -/

theorem actAll_serve {r : ReadRequest} {t : Schema} (hr : sv.registry.get? r.entity = some t)
    (hc : c.tasks = []) :
    (sv.actAll s [.lookup r, .fetch 0, .store 0] c).world = ((sv.serve r).outcome c.world).2 := by
  rw [sv.serve_of_get? hr, outcome_throughCache]
  change (sv.storeTask 0 (sv.fetchTask 0 (sv.lookUp r c))).world = _
  have hlookup : (sv.cached? r.key).outcome c.world =
      (.ok ((sv.cache.get c.world.now r.key c.world.cache).getD none), c.world) := rfl
  cases hget : (sv.cache.get c.world.now r.key c.world.cache).getD none with
  | some body =>
      rw [hget] at hlookup
      simp [lookUp, fetchTask, storeTask, hlookup, hc]
  | none =>
      rw [hget] at hlookup
      rcases hfresh : (sv.fresh r).outcome c.world with ⟨e | v, w⟩
      · simp [lookUp, fetchTask, storeTask, hlookup, hc, hfresh]
      · simp [lookUp, fetchTask, storeTask, hlookup, hc, hfresh]

theorem actAll_write (o : WriteRequest) (hc : c.tasks = []) :
    ∃ x, ((sv.write s o).outcome c.world).2 = (sv.actAll s [.elsewhere x] c).world ∨
      ∃ fs y, ((sv.write s o).outcome c.world).2 =
        (sv.actAll s [.elsewhere x, .execute o fs, .launch 0, .elsewhere y] c).world := by
  -- reads before the statement and after it use the database as others do
  have hbefore := (sv.prepare_parallel s o).onDatabase c.world
  rw [write_eq, Work.outcome_bind]
  rcases hprepare : (sv.prepare s o).outcome c.world with ⟨_ | prepared, w₁⟩
  · rw [hprepare] at hbefore
    exact ⟨w₁.database, .inl hbefore⟩
  rw [hprepare] at hbefore
  dsimp only at hbefore ⊢
  have hafter := (sv.answer_parallel hprepare).onDatabase
  cases hfs : prepared.1 with
  | none =>
      refine ⟨(prepared.2.outcome w₁).2.database, .inl ?_⟩
      have hdatabase (x : σ) : { w₁ with database := x } = { c.world with database := x } := by
        rw [hbefore]
      simp only [pure_bind]
      exact (hafter w₁).trans (hdatabase _)
  | some fs =>
      have hprepared : { c with world := { c.world with database := w₁.database } } =
          { c with world := w₁ } := by
        rw [← hbefore]
      have hrun (y : σ) :
          (sv.actAll s [.elsewhere w₁.database, .execute o fs, .launch 0, .elsewhere y] c).world =
            { (sv.launchTask s 0 (sv.executeWrite o fs { c with world := w₁ })).world with
              database := y } := by
        rw [← hprepared]
        rfl
      refine ⟨w₁.database, .inr ⟨fs, ?_⟩⟩
      simp only [hrun]
      rw [Work.outcome_bind]
      rcases hcarry : (sv.carryOut s o fs).outcome w₁ with ⟨_ | _, w₂⟩
      · obtain ⟨executed, w₃, hexecuted, ⟨_, -, rfl, hzero⟩ | ⟨_, -, -, hok, -⟩⟩ :=
          sv.outcome_carryOut hcarry
        · refine ⟨w₂.database, ?_⟩
          cases executed with
          | error e => simp [executeWrite, launchTask, hexecuted, hc]
          | ok n => simp [executeWrite, launchTask, hexecuted, hc, hzero n rfl]
        · cases hok
      · obtain ⟨executed, w₃, hexecuted, ⟨_, herror, -⟩ | ⟨n, rfl, hn, -, rfl⟩⟩ :=
          sv.outcome_carryOut hcarry
        · cases herror
        · have hgoes : ¬(n = 0 ∧ (!o.goesOn) = true) := by simpa using or_iff_not_imp_left.mp hn
          refine ⟨(prepared.2.outcome ((sv.invalidate s).outcome w₃).2).2.database, ?_⟩
          simp only [executeWrite, launchTask, hexecuted, hc, if_neg hgoes]
          exact hafter _

variable (sv s) in
/-- Requests that are alone are runs of these steps. Whatever the order of the steps of any requests,
when nothing is under way any more every cached body of the entity was stored after the last write
that was answered. Its rows were fetched after all writes exactly if no write came between the fetch
and the store, and none that was not answered came after it. -/
theorem stored_after_answered (hcache : sv.cache = .ofLocal) {w : World σ LocalCache}
    (hw : w.cache = {}) :
    (∀ (c : Scene σ) r t, sv.registry.get? r.entity = some t → c.tasks = [] →
      ((sv.serve r).outcome c.world).2 = (sv.actAll s [.lookup r, .fetch 0, .store 0] c).world) ∧
    (∀ (c : Scene σ) o, c.tasks = [] →
      ∃ x, ((sv.write s o).outcome c.world).2 = (sv.actAll s [.elsewhere x] c).world ∨
        ∃ fs y, ((sv.write s o).outcome c.world).2 =
          (sv.actAll s [.elsewhere x, .execute o fs, .launch 0, .elsewhere y] c).world) ∧
    ∀ acts, (sv.actAll s acts (.start w)).AtRest →
      ∀ e ∈ (sv.actAll s acts (.start w)).world.cache.entries,
        Text.startsWith (Fingerprint.keyPrefix s.name) e.key = true →
        ∃ src stored, (sv.actAll s acts (.start w)).origin? e.key = some (src, stored) ∧
          sv.Explains src e.key e.value ∧
          (sv.actAll s acts (.start w)).answered ≤ stored ∧
          (src.writes = (sv.actAll s acts (.start w)).writes ↔
            src.writes = stored ∧ stored = (sv.actAll s acts (.start w)).writes) := by
  refine ⟨fun c r t hr hc => (actAll_serve hr hc).symm, fun c o hc => actAll_write o hc, ?_⟩
  rintro acts ⟨htasks, hsweeps⟩ e he hstarts
  obtain ⟨src, stored, hsrc, hexplains, hfetched, hstored, hswept⟩ :=
    (accounted_actAll hcache (sv.accounted_start s hw) acts).cached e he
  refine ⟨src, stored, hsrc, hexplains, (hswept hstarts).resolve_right ?_, by omega⟩
  rintro (hlaunching | hsweep)
  · rw [htasks] at hlaunching
    cases hlaunching
  · rw [hsweeps] at hsweep
    cases hsweep

end Service

/-! ## A title that changes while cities are listed -/

namespace Cities

/-- A list of cities. -/
def listing : ReadRequest := ⟨"cities", none, []⟩

/-- The statement of the new title. -/
def retitleSql : List Fragment :=
  (Sql.update? cities .postgres "id" (.int 1) [("title", .text "new")]).getD []

/-- The scene after some steps, with a cache that is empty at first. -/
def scene (acts : List (Act String)) : Scene String :=
  (service [cities]).actAll cities acts (.start world)

/-- Cities are listed before and after the title changes. -/
def inTurn : List (Act String) :=
  [.lookup listing, .fetch 0, .store 0, .execute retitle retitleSql, .launch 0, .sweep 0,
    .lookup listing, .fetch 0, .store 0]

/-- The title changes after the rows of the list were fetched, and everything is swept before the
list is stored. -/
def overtaken : List (Act String) :=
  [.lookup listing, .fetch 0, .execute retitle retitleSql, .launch 1, .sweep 0, .store 0]

/-- Is something else cached than what a list would be answered with now? -/
def isOutdated (sv : Service String LocalCache) (w : World String LocalCache) : Bool :=
  (w.cache.get? w.now listing.key).any fun body =>
    ((sv.fresh listing).outcome w).1.map Json.render ≠ .ok body

/-- A service of a database that replaces the title and does not answer. -/
def unanswered : Service String LocalCache :=
  { service [cities] with
    database := { database with execute := fun _ _ => (.error .stall, "new") } }

/-- One after the other, what is cached in the end has the new title. -/
theorem inTurn_stored :
    (scene inTurn).AtRest ∧ (scene inTurn).world.cache.entries ≠ [] ∧
      ∀ e ∈ (scene inTurn).world.cache.entries, ∃ src stored,
        (scene inTurn).origin? e.key = some (src, stored) ∧
          (service [cities]).Explains src e.key e.value ∧ src.writes = (scene inTurn).writes := by
  have hrest : (scene inTurn).AtRest := by decide +kernel
  have hentries : (scene inTurn).world.cache.entries ≠ [] ∧
      ∀ e ∈ (scene inTurn).world.cache.entries,
        Text.startsWith (Fingerprint.keyPrefix cities.name) e.key = true ∧
          ((scene inTurn).origin? e.key).any (fun o =>
            o.1.writes = o.2 ∧ o.2 = (scene inTurn).writes) = true := by
    decide +kernel
  refine ⟨hrest, hentries.1, fun e he => ?_⟩
  obtain ⟨hstarts, horigin⟩ := hentries.2 e he
  obtain ⟨src, stored, hsrc, hexplains, -, hiff⟩ :=
    ((service [cities]).stored_after_answered cities rfl rfl).2.2 inTurn hrest e he hstarts
  change (scene inTurn).origin? e.key = _ at hsrc
  rw [hsrc] at horigin
  exact ⟨src, stored, hsrc, hexplains, hiff.mpr (of_decide_eq_true horigin)⟩

/-- The old title stays cached when nothing is under way any more, if the list was overtaken by the
write. It also does after a write that carried out its statement and got no answer: such a write
launches no sweep. -/
theorem old_title_cached :
    Registry.build [citiesConfig] = .ok ⟨[cities]⟩ ∧
    ((scene overtaken).AtRest ∧
      isOutdated (service [cities]) (scene overtaken).world = true ∧
      ((scene overtaken).origin? listing.key).any
        (fun o => o.1.writes < (scene overtaken).writes) = true) ∧
    let listed := ((unanswered.serve listing).outcome world).2
    let written := ((unanswered.write cities retitle).outcome listed).2
    written.sweeps = [] ∧ isOutdated unanswered written = true := by
  refine ⟨by cbv, ?_, ?_⟩
  · decide +kernel
  · decide +kernel

end Cities

end EntityRest

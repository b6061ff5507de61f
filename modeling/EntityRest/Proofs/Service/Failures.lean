import EntityRest.Proofs.Service.Depth
import EntityRest.Proofs.Service.Trace

/-! # Failed reads

A read goes through its statements one after the other, those for lists of children and for counts
among them. The first one that fails is the last one, the read ends with its error, and nothing is
cached. Failures of the cache itself are not seen in answers. -/

namespace EntityRest

/-- The statement failed in this way. -/
def Event.FailsBy (e : Halt) : Event → Prop
  | fetched _ answer => answer = .error e
  | executed _ answer => answer = .error e

instance (e : Halt) (x : Event) : Decidable (x.FailsBy e) :=
  match x with
  | .fetched _ (.ok _) | .executed _ (.ok _) => .isFalse nofun
  | .fetched _ (.error e') | .executed _ (.error e') =>
    decidable_of_iff (e' = e) (Except.error.injEq e' e ▸ Iff.rfl)

variable {σ κ α β : Type}

/-! ## Work that ends with the statement that fails -/

/-- If a statement of the work fails, it is the last one, and the work ends in the same way. -/
def Aborts (work : Work (World (σ × List Event) κ) α) : Prop :=
  ∀ w, ∃ events, (work.outcome w).2.trace = w.trace ++ events ∧
    ∀ x ∈ events, ∀ e, x.FailsBy e →
      (work.outcome w).1 = .error e ∧ events.getLast? = some x

namespace Aborts

variable {work : Work (World (σ × List Event) κ) α} {next : α → Work (World (σ × List Event) κ) β}

theorem of_trace_eq (h : ∀ w, (work.outcome w).2.trace = w.trace) : Aborts work :=
  fun w => ⟨[], by rw [h, List.append_nil], fun _ hx => absurd hx List.not_mem_nil⟩

theorem bind (hwork : Aborts work) (hnext : ∀ a, Aborts (next a)) : Aborts (work >>= next) := by
  intro w
  obtain ⟨events, htrace, hfails⟩ := hwork w
  rw [Work.outcome_bind]
  generalize work.outcome w = o at htrace hfails ⊢
  rcases o with ⟨e | a, w'⟩
  · refine ⟨events, htrace, fun x hx e' he => ?_⟩
    obtain ⟨hanswer, hlast⟩ := hfails x hx e' he
    exact ⟨congrArg Except.error (Except.error.inj hanswer), hlast⟩
  · obtain ⟨more, htrace', hfails'⟩ := hnext a w'
    refine ⟨events ++ more, ?_, fun x hx e he => ?_⟩
    · rw [htrace', htrace, List.append_assoc]
    · rcases List.mem_append.mp hx with hx | hx
      · cases (hfails x hx e he).1
      · obtain ⟨hanswer, hlast⟩ := hfails' x hx e he
        exact ⟨hanswer, by rw [List.getLast?_append, hlast, Option.some_or]⟩

theorem fetchRows (db : Database σ) (fs : List Fragment) :
    Aborts (Service.onDatabase (db.traced.fetchRows fs) : Work (World (σ × List Event) κ) _) := by
  intro w
  refine ⟨[.fetched _ _], rfl, fun x hx e he => ?_⟩
  obtain rfl := List.mem_singleton.mp hx
  exact ⟨he, rfl⟩

end Aborts

theorem Parallel.aborts {db : Database σ} {work work' : Work (World (σ × List Event) κ) α}
    (h : Parallel db.traced work work') : Aborts work := by
  induction h with
  | pure a => exact .of_trace_eq fun _ => rfl
  | throw e => exact .of_trace_eq fun _ => rfl
  | bind _ _ ih ihf => exact ih.bind ihf
  | select h => exact .fetchRows db _
  | count h => exact .fetchRows db _

namespace Service

variable (sv : Service σ κ) (r : ReadRequest)

/-! ## Caches -/

/-- The cache does not matter to a document. -/
theorem fresh_eq (store : CacheStore κ) :
    ({ sv with cache := store } : Service σ κ).fresh r = sv.fresh r := by
  have hrows : ({ sv with cache := store } : Service σ κ).rows sv.nesting = sv.rows sv.nesting :=
    sv.rows_eq store sv.nesting sv.nesting
  unfold fresh document
  simp only [hrows]
  rfl

/-- What is stored does not matter to the answer, nor whether that fails. -/
theorem answer_eq_of_get_eq {store : CacheStore κ} (h : store.get = sv.cache.get) (w : World σ κ) :
    ((({ sv with cache := store } : Service σ κ).serve r).outcome w).1 =
      ((sv.serve r).outcome w).1 := by
  cases hs : sv.registry.get? r.entity with
  | none =>
      have hs' : ({ sv with cache := store } : Service σ κ).registry.get? r.entity = none := hs
      rw [serve_of_get?_eq_none _ hs, serve_of_get?_eq_none _ hs']
  | some s =>
      have hs' : ({ sv with cache := store } : Service σ κ).registry.get? r.entity = some s := hs
      rw [serve_of_get? _ hs, serve_of_get? _ hs', fresh_eq, outcome_throughCache,
        outcome_throughCache, h]
      split
      · rfl
      · rcases (sv.fresh r).outcome w with ⟨e | v, w'⟩
        · rfl
        · rfl

/-- A read is answered with the text that is found, or else as without a cache. -/
theorem answer_serve (w : World σ κ) :
    ((sv.serve r).outcome w).1 = ((sv.withoutCache.serve r).outcome w).1 ∨
      ∃ body, sv.cache.get w.now r.key w.cache = some (some body) ∧
        ((sv.serve r).outcome w).1 = .ok body := by
  cases hs : sv.registry.get? r.entity with
  | none =>
      rw [sv.serve_of_get?_eq_none hs, sv.withoutCache.serve_of_get?_eq_none hs]
      exact .inl rfl
  | some s =>
      have hplain : ((sv.withoutCache.serve r).outcome w).1 =
          ((sv.fresh r).outcome w).1.map Json.render := by
        rw [sv.withoutCache.serve_of_get? hs, sv.withoutCache.answer_throughCache rfl,
          withoutCache, fresh_eq]
      rw [sv.serve_of_get? hs, hplain]
      cases hfound : (sv.cache.get w.now r.key w.cache).getD none with
      | none => exact .inl (sv.answer_throughCache hfound)
      | some body =>
          refine .inr ⟨body, ?_, by rw [outcome_throughCache, hfound]⟩
          cases hget : sv.cache.get w.now r.key w.cache with
          | none => cases hget ▸ hfound
          | some found =>
              rw [hget] at hfound
              exact congrArg some hfound

/-! ## Reads -/

/-- A read that ends with an error caches nothing. -/
theorem cache_of_serve_error {w w' : World σ κ} {e : Halt}
    (h : (sv.serve r).outcome w = (.error e, w')) : w'.cache = w.cache := by
  cases hs : sv.registry.get? r.entity with
  | none =>
      rw [sv.serve_of_get?_eq_none hs] at h
      cases h
      rfl
  | some s =>
      rw [sv.serve_of_get? hs, outcome_throughCache] at h
      split at h
      · cases h
      · split at h
        · cases h
        · rename_i hfresh
          cases h
          exact ((sv.onDatabase_fresh r).kept hfresh).1

/-- If a statement of a read fails, it is the last one, and the read ends in the same way. -/
theorem aborts_serve : Aborts (sv.traced.serve r : Work (World (σ × List Event) κ) String) := by
  cases hs : sv.registry.get? r.entity with
  | none =>
      have hs' : sv.traced.registry.get? r.entity = none := hs
      rw [sv.traced.serve_of_get?_eq_none hs']
      exact .of_trace_eq fun _ => rfl
  | some s =>
      have hs' : sv.traced.registry.get? r.entity = some s := hs
      have hfresh : Aborts (sv.traced.fresh r) :=
        Parallel.aborts (sv.traced.fresh_parallel sv.cache sv.cache r)
      have hlookup : Aborts (sv.traced.cached? r.key : Work (World (σ × List Event) κ) _) :=
        .of_trace_eq fun _ => rfl
      have hstore (body : String) :
          Aborts (sv.traced.store r.key body : Work (World (σ × List Event) κ) _) :=
        .of_trace_eq fun _ => rfl
      rw [sv.traced.serve_of_get? hs']
      refine hlookup.bind fun found => ?_
      cases found with
      | some body => exact .of_trace_eq fun _ => rfl
      | none =>
          exact hfresh.bind fun v => (hstore _).bind fun _ => .of_trace_eq fun _ => rfl

/-- If a statement of a read fails, be it one for children or for a count, the read ends with its
error and leaves the cache as it was. Failures of the cache turn no answer into an error: whatever
the cache does, a read that has an answer without it has that answer, or the text that was found,
and a lookup that fails or texts that are not stored make no difference. -/
theorem serve_all_or_nothing {w : World σ κ} {answer : Except Halt String}
    {w' : World (σ × List Event) κ} (h : (sv.traced.serve r).outcome w.traced = (answer, w')) :
    (∀ x ∈ w'.trace, ∀ e, x.FailsBy e →
      answer = .error e ∧ w'.trace.getLast? = some x ∧ w'.cache = w.cache) ∧
    (∀ body, ((sv.withoutCache.serve r).outcome w).1 = .ok body →
      ∃ shown, ((sv.serve r).outcome w).1 = .ok shown ∧
        (shown = body ∨ sv.cache.get w.now r.key w.cache = some (some shown))) ∧
    (sv.cache.get w.now r.key w.cache = none →
      ((sv.serve r).outcome w).1 = ((sv.withoutCache.serve r).outcome w).1) ∧
    ∀ store : CacheStore κ, store.get = sv.cache.get →
      ((({ sv with cache := store } : Service σ κ).serve r).outcome w).1 =
        ((sv.serve r).outcome w).1 := by
  refine ⟨fun x hx e he => ?_, fun body hbody => ?_, fun hget => ?_,
    fun store hstore => sv.answer_eq_of_get_eq r hstore w⟩
  · obtain ⟨events, htrace, hfails⟩ := sv.aborts_serve r w.traced
    rw [h] at htrace hfails
    have htrace : w'.trace = events := by simpa using htrace
    obtain ⟨rfl, hlast⟩ := hfails x (htrace ▸ hx) e he
    exact ⟨rfl, htrace ▸ hlast, sv.traced.cache_of_serve_error r h⟩
  · rcases sv.answer_serve r w with hsame | ⟨shown, hfound, hshown⟩
    · exact ⟨body, hsame.trans hbody, .inl rfl⟩
    · exact ⟨shown, hshown, .inr hfound⟩
  · rcases sv.answer_serve r w with hsame | ⟨shown, hfound, -⟩
    · exact hsame
    · cases hget.symm.trans hfound

end Service

/-! ## Books whose reviews are out of reach -/

namespace Authors

/-- The database answers two statements with the row of the number 1, and then it fails. -/
def failing : Database Nat where
  dialect := .postgres
  fetch _ n := (if n < 2 then .ok [one] else .error (.error (.ofDatabase "down")), n + 1)
  execute _ n := (.ok 1, n)
  isReady _ := true

/-- The list of all authors, with their books. -/
def withBooks : ReadRequest := ⟨"authors", none, [("$include", "books")]⟩

/-- Another list is cached already. -/
def cached : World Nat LocalCache := ⟨0, ⟨[⟨"books:", "[]", none⟩]⟩, 0, []⟩

/-- The third statement, for the reviews of the only book, fails. The list ends with that error, and
only the other list is cached. -/
theorem serve_failing :
    ∃ w', ((service.withDatabase failing).traced.serve withBooks).outcome cached.traced =
        (.error (.error (.ofDatabase "down")), w') ∧
      w'.trace.length = 3 ∧ w'.cache = ⟨[⟨"books:", "[]", none⟩]⟩ := by
  have hlength : (((service.withDatabase failing).traced.serve withBooks).outcome
      cached.traced).2.trace.length = 3 := by
    decide +kernel
  have hfails : ∃ x ∈ (((service.withDatabase failing).traced.serve withBooks).outcome
      cached.traced).2.trace, x.FailsBy (.error (.ofDatabase "down")) := by
    decide +kernel
  rcases hrun : ((service.withDatabase failing).traced.serve withBooks).outcome cached.traced with
    ⟨answer, w'⟩
  rw [hrun] at hlength hfails
  obtain ⟨x, hx, hfails⟩ := hfails
  obtain ⟨hread, -⟩ := (service.withDatabase failing).serve_all_or_nothing withBooks hrun
  obtain ⟨rfl, -, hcache⟩ := hread x hx _ hfails
  exact ⟨w', rfl, hlength, hcache⟩

end Authors

end EntityRest

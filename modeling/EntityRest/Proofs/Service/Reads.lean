import EntityRest.Cache.Fingerprint
import EntityRest.Proofs.Service.Steady

/-! # Reads with and without a cache

A read of a list or of a row is compiled to a plan, and the plan is answered with a document.
Without a cache that document is the answer; with one it is the answer to reads that find nothing.
-/

namespace EntityRest

variable {σ κ : Type}

/-! ## Reads -/

/-- A read of an entity: of a list, or of the row of an id. -/
structure ReadRequest where
  entity : String
  id? : Option String
  params : Pairs

namespace ReadRequest

def mode (o : QueryOptions) (r : ReadRequest) : ReadMode :=
  match r.id? with
  | none => .page o
  | some id => .one id

/-- The parameters that make the cache key. -/
def keyParams (r : ReadRequest) : Pairs := r.params ++ r.id?.toList.map fun id => ("$id", id)

def key (r : ReadRequest) : String := Fingerprint.ofRead r.entity r.keyParams

/-- Both read the same, of parameters with the same values in the same order, where texts are
compared through `f`. -/
structure SameThrough (f : String → String) (r r' : ReadRequest) : Prop where
  entity : r.entity = r'.entity
  id : r.id?.map f = r'.id?.map f
  params : Pairs.Same (r.params.mapBoth f) (r'.params.mapBoth f)

/-- No parameter of a list has the name that keys give to an id. -/
def Unreserved (r : ReadRequest) : Prop :=
  r.id? = none → ∀ p ∈ r.params, Text.collapse p.1 ≠ "$id"

end ReadRequest

namespace Service

variable (sv : Service σ κ)

/-- The statements of a read. -/
def planOf (s : Schema) (r : ReadRequest) : Except QueryError Plan := do
  sv.registry.compileAs sv.database.dialect s (← Query.ofPairs r.params) (r.mode sv.settings.query)

/-- The document that a read with such a plan is answered with. -/
def document (s : Schema) (r : ReadRequest) (p : Plan) : Work (World σ κ) Json :=
  match r.id? with
  | none => do
    let data ← sv.rows sv.nesting s p
    return Envelope.many data (← sv.pageMeta p)
  | some _ => do
    match ← sv.rows sv.nesting s p with
    | row :: _ => return Envelope.one row
    | [] => fail (.notFound s.name)

/-- The answer to a read, with its key and without the lookup. -/
def serve (r : ReadRequest) : Work (World σ κ) String := do
  let s ← sv.schema r.entity
  match r.id? with
  | none => sv.list s r.params
  | some id => sv.read s id r.params

/-- The same service, without its cache. -/
def withoutCache : Service σ κ := { sv with cache := .disabled }

theorem lift_bind {ε α β : Type} (wrap : ε → ServiceError) (x : Except ε α) (f : α → Except ε β) :
    (lift wrap (x >>= f) : Work (World σ κ) β) = lift wrap x >>= fun a => lift wrap (f a) := by
  cases x with
  | error e => rfl
  | ok a => rfl

theorem listUncached_eq {s : Schema} {r : ReadRequest} (hr : r.id? = none) :
    sv.listUncached s r.params = lift .query (sv.planOf s r) >>= sv.document s r := by
  rw [planOf, lift_bind, bind_assoc, listUncached, ReadRequest.mode, hr]
  unfold document
  rw [hr]
  rfl

theorem readUncached_eq {s : Schema} {r : ReadRequest} {id : String} (hr : r.id? = some id) :
    sv.readUncached s id r.params = lift .query (sv.planOf s r) >>= sv.document s r := by
  rw [planOf, lift_bind, bind_assoc, readUncached, ReadRequest.mode, hr]
  unfold document fetchOne
  rw [hr]
  refine bind_congr fun q => ?_
  rw [bind_assoc]
  refine bind_congr fun plan => ?_
  rw [bind_assoc]
  refine bind_congr fun rows => ?_
  cases rows with
  | nil => rfl
  | cons row rows => rfl

theorem serve_eq (r : ReadRequest) :
    sv.serve r = sv.schema r.entity >>= fun s =>
      sv.throughCache r.key (lift .query (sv.planOf s r) >>= sv.document s r) := by
  unfold serve schema
  cases hs : sv.registry.get? r.entity with
  | none => rfl
  | some s =>
      have hname : s.name = r.entity := Registry.name_of_get? hs
      simp only [pure_bind]
      cases hid : r.id? with
      | none =>
          rw [← sv.listUncached_eq hid, ReadRequest.key, ReadRequest.keyParams, hid, ← hname]
          simp [list]
      | some id =>
          rw [← sv.readUncached_eq hid, ReadRequest.key, ReadRequest.keyParams, hid, ← hname]
          simp [Service.read]

/-! ## Documents -/

theorem document_parallel (store store' : CacheStore κ) (s : Schema) {r r' : ReadRequest}
    (hid : r.id?.isSome = r'.id?.isSome) {p p' : Plan} (hp : p.Reordered p') :
    Parallel sv.database ({ sv with cache := store }.document s r p)
      ({ sv with cache := store' }.document s r' p') := by
  have hrows := sv.rows_parallel store store' sv.nesting s hp
  unfold document
  cases hr : r.id? <;> cases hr' : r'.id? <;> rw [hr, hr'] at hid
  · exact .bind hrows fun data => .bind (sv.pageMeta_parallel store store' hp) fun page => .pure _
  · cases hid
  · cases hid
  · refine .bind hrows fun data => ?_
    cases data with
    | nil => exact .throw _
    | cons row rows => exact .pure _

/-- Reads of the same parameters, but for the order of different names, have plans that are the same
but for the order of conditions. -/
theorem exists_planOf {sv : Service σ κ} {s : Schema} {r r' : ReadRequest}
    (h : r.SameThrough id r') {p : Plan} (hp : sv.planOf s r = .ok p) :
    ∃ p', sv.planOf s r' = .ok p' ∧ p.Reordered p' := by
  have hid : r.id? = r'.id? := by simpa using h.id
  have hparams : Pairs.Same r.params r'.params := by simpa [Pairs.mapBoth] using h.params
  obtain ⟨q, hq, hplan⟩ := bind_eq_ok.mp hp
  obtain ⟨q', hq', hreordered⟩ := Query.exists_ofPairs_of_same hparams hq
  obtain ⟨p', hp', hplans⟩ := Registry.exists_compileAs_of_reordered hreordered hplan
  refine ⟨p', bind_eq_ok.mpr ⟨q', hq', ?_⟩, hplans⟩
  rwa [ReadRequest.mode, ← hid]

/-- The document of a read, without the lookup. -/
def fresh (r : ReadRequest) : Work (World σ κ) Json :=
  sv.schema r.entity >>= fun s => lift .query (sv.planOf s r) >>= sv.document s r

theorem fresh_parallel (store store' : CacheStore κ) (r : ReadRequest) :
    Parallel sv.database ({ sv with cache := store }.fresh r)
      ({ sv with cache := store' }.fresh r) := by
  refine .bind ?_ fun s => .bind (.lift _ _) fun p => ?_
  · unfold schema
    cases sv.registry.get? r.entity with
    | none => exact .throw _
    | some s => exact .pure s
  · exact sv.document_parallel store store' s rfl (.refl p)

theorem onDatabase_fresh (r : ReadRequest) : OnDatabase (sv.fresh r) :=
  (sv.fresh_parallel sv.cache sv.cache r).onDatabase

/-! ## Lookups -/

theorem fresh_of_get? {r : ReadRequest} {s : Schema} (hs : sv.registry.get? r.entity = some s) :
    sv.fresh r = lift .query (sv.planOf s r) >>= sv.document s r := by
  rw [fresh, schema, hs]
  rfl

theorem serve_of_get? {r : ReadRequest} {s : Schema} (hs : sv.registry.get? r.entity = some s) :
    sv.serve r = sv.throughCache r.key (sv.fresh r) := by
  rw [serve_eq, schema, hs, sv.fresh_of_get? hs]
  rfl

/-- A read of an unknown entity does not. -/
theorem serve_of_get?_eq_none {r : ReadRequest} (hs : sv.registry.get? r.entity = none) :
    sv.serve r = fail (.notFound r.entity) := by
  rw [serve_eq, schema, hs]
  rfl

theorem outcome_throughCache (key : String) (work : Work (World σ κ) Json) (w : World σ κ) :
    (sv.throughCache key work).outcome w =
      match (sv.cache.get w.now key w.cache).getD none with
      | some body => (.ok body, w)
      | none =>
        match work.outcome w with
        | (.ok v, w') => (.ok v.render, ((sv.store key v.render).outcome w').2)
        | (.error e, w') => (.error e, w') := by
  rw [throughCache, Work.outcome_bind]
  have hlookup : (sv.cached? key).outcome w =
      (.ok ((sv.cache.get w.now key w.cache).getD none), w) := rfl
  rw [hlookup]
  cases (sv.cache.get w.now key w.cache).getD none with
  | some body => rfl
  | none =>
      simp only [Work.outcome_bind]
      rcases work.outcome w with ⟨_ | v, w'⟩
      · rfl
      · rfl

theorem answer_throughCache {key : String} {work : Work (World σ κ) Json} {w : World σ κ}
    (h : (sv.cache.get w.now key w.cache).getD none = none) :
    ((sv.throughCache key work).outcome w).1 = (work.outcome w).1.map Json.render := by
  rw [outcome_throughCache, h]
  rcases work.outcome w with ⟨_ | v, w'⟩
  · rfl
  · rfl

/-- Without a cache a read is answered with its document, the same one in every state. -/
theorem answer_withoutCache (hdb : sv.database.Steady) {r : ReadRequest} {s : Schema}
    (hs : sv.registry.get? r.entity = some s) (w w' : World σ κ) :
    ((sv.withoutCache.serve r).outcome w').1 = ((sv.fresh r).outcome w).1.map Json.render := by
  rw [(sv.fresh_parallel sv.cache .disabled r).answer_eq hdb w w',
    sv.withoutCache.serve_of_get? hs]
  exact sv.withoutCache.answer_throughCache rfl

theorem answer_withoutCache_eq (hdb : sv.database.Steady) (r : ReadRequest) (w w' : World σ κ) :
    ((sv.withoutCache.serve r).outcome w).1 = ((sv.withoutCache.serve r).outcome w').1 := by
  cases hs : sv.registry.get? r.entity with
  | none =>
      rw [sv.withoutCache.serve_of_get?_eq_none hs]
      rfl
  | some s => rw [sv.answer_withoutCache hdb hs w w, sv.answer_withoutCache hdb hs w w']

/-- Without a cache, reads of the same parameters but for their order have the same answer, if they
have one. -/
theorem answer_of_sameThrough_id (hdb : sv.database.Steady) {r r' : ReadRequest}
    (h : r.SameThrough id r') {w : World σ κ} {body : String}
    (hbody : ((sv.withoutCache.serve r).outcome w).1 = .ok body) :
    ((sv.withoutCache.serve r').outcome w).1 = .ok body := by
  cases hs : sv.registry.get? r.entity with
  | none =>
      rw [sv.withoutCache.serve_of_get?_eq_none hs] at hbody
      cases hbody
  | some s =>
      have hs' : sv.registry.get? r'.entity = some s := h.entity ▸ hs
      rw [sv.answer_withoutCache hdb hs w w, sv.fresh_of_get? hs] at hbody
      rw [sv.answer_withoutCache hdb hs' w w, sv.fresh_of_get? hs']
      cases hp : sv.planOf s r with
      | error e =>
          rw [hp] at hbody
          cases hbody
      | ok p =>
          obtain ⟨p', hp', hreordered⟩ := exists_planOf h hp
          have hid : r.id?.isSome = r'.id?.isSome := by
            have hid : r.id? = r'.id? := by simpa using h.id
            rw [hid]
          have hsame :=
            (sv.document_parallel sv.cache sv.cache s hid hreordered).answer_eq hdb w w
          rw [hp] at hbody
          rw [hp', ← hbody]
          exact congrArg (Except.map Json.render) hsame.symm

end Service

end EntityRest

import EntityRest.Cache.Fingerprint
import EntityRest.Cache.Store
import EntityRest.Locale.Translator
import EntityRest.Schema.Registry
import EntityRest.Service.Database
import EntityRest.Settings.Basic

/-!
# Services

What a service is made of, the world that its work changes, and the steps on that world: statements,
cache lookups and stores, and sweeps of the cache that are launched and run later.
-/

namespace EntityRest

/-- What work on requests changes. -/
structure World (σ κ : Type) where
  database : σ
  cache : κ
  /-- The time, in nanoseconds. -/
  now : Nat
  /-- What the keys start with that are still to be swept out of the cache. -/
  sweeps : List String

/-- The parts of a service that requests do not change. -/
structure Service (σ κ : Type) where
  registry : Registry
  database : Database σ
  cache : CacheStore κ
  settings : Settings
  translator : Translator
  /-- How deep lists of children may nest; deeper expansion is taken never to end. -/
  nesting : Nat

namespace Service

variable {σ κ : Type}

/-- Work on the database alone. -/
def onDatabase {α : Type} (work : Work σ α) : Work (World σ κ) α :=
  ExceptT.mk fun w =>
    match work.run.run w.database with
    | (answer, s) => (answer, { w with database := s })

def fetch (sv : Service σ κ) (fs : List Fragment) : Work (World σ κ) (List Row) :=
  onDatabase (sv.database.fetchRows fs)

/-- Executes a statement; the result is the number of rows changed. -/
def execute (sv : Service σ κ) (fs : List Fragment) : Work (World σ κ) Nat :=
  onDatabase (sv.database.run fs)

def fail {α : Type} (e : ServiceError) : Work (World σ κ) α := throw (.error e)

/-- The result of a computation that may fail with an error. -/
def lift {α ε : Type} (wrap : ε → ServiceError) : Except ε α → Work (World σ κ) α
  | .ok x => pure x
  | .error e => fail (wrap e)

/-- The text cached under a key. A lookup that fails finds nothing. -/
def cached? (sv : Service σ κ) (key : String) : Work (World σ κ) (Option String) := do
  let w ← get
  return (sv.cache.get w.now key w.cache).getD none

/-- Stores a text in the cache for as long as the settings say. A failure goes unnoticed. -/
def store (sv : Service σ κ) (key body : String) : Work (World σ κ) Unit :=
  modify fun w =>
    let ttl := sv.settings.cache.lifetime?.map fun d => d.nanos.toNat
    { w with cache := (sv.cache.set w.now key body ttl w.cache).getD w.cache }

/-- Launches sweeps of all cached reads of the named entities. -/
def launchSweeps (names : List String) : Work (World σ κ) Unit :=
  modify fun w => { w with sweeps := w.sweeps ++ names.map Fingerprint.keyPrefix }

/-- Runs the launched sweeps. A sweep that fails is given up. -/
def runSweeps (sv : Service σ κ) (w : World σ κ) : World σ κ :=
  { w with
    cache := w.sweeps.foldl (fun c start => (sv.cache.sweep start c).getD c) w.cache
    sweeps := [] }

def schema (sv : Service σ κ) (entity : String) : Work (World σ κ) Schema :=
  match sv.registry.get? entity with
  | some s => pure s
  | none => fail (.notFound entity)

end Service

end EntityRest

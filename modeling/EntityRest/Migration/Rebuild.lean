import EntityRest.Migration.Table
import EntityRest.Schema.Registry
import EntityRest.Service.Database

/-!
# Rebuilding stale tables

A table is stale when its entity is not stamped with the version of its schema. Stale tables are
dropped and created anew; their rows are lost.
-/

namespace EntityRest.Migration

variable {σ : Type}

/-- Drops and creates the table of a schema, and stamps its entity. -/
def rebuild (db : Database σ) (s : Schema) : Work σ Unit := do
  let _ ← db.run [.text (s.dropTable db.dialect)]
  let _ ← db.run [.text (s.createTable db.dialect)]
  let _ ← db.run (deleteStamp db.dialect s.name)
  let _ ← db.run (insertStamp db.dialect s.name s.version)

/-- Is there nothing to rebuild for the schema? So it is when its stamp is up to date, when it has
no columns of its own, and when its table is among those already rebuilt. -/
def isSettled (stamps : Entries String) (done : List String) (s : Schema) : Bool :=
  stamps.get? s.name = some s.version || s.ownColumns.isEmpty || done.contains s.table

/-- Rebuilds the stale ones of the schemas, after the tables `done`. The result names the entities
whose tables were rebuilt. -/
def rebuildEach (db : Database σ) (stamps : Entries String) :
    List String → List Schema → Work σ (List String)
  | _, [] => pure []
  | done, s :: rest =>
    if isSettled stamps done s then rebuildEach db stamps done rest
    else do
      rebuild db s
      let names ← rebuildEach db stamps (s.table :: done) rest
      return s.name :: names

/-- Rebuilds every stale table of a registry, in the order of the names of its entities. -/
def rebuildStale (db : Database σ) (reg : Registry) : Work σ (List String) := do
  let _ ← db.run (createStamps db.dialect)
  let rows ← db.fetchRows (selectStamps db.dialect)
  rebuildEach db (stampsOf rows) [] reg.sorted

end EntityRest.Migration

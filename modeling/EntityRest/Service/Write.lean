import EntityRest.Service.Read
import EntityRest.Service.Validation
import EntityRest.Shape.Payload
import EntityRest.Sql.Write

/-!
# Writing rows

Rows are created, changed and deleted by their primary keys. Every write launches sweeps of the
cached reads of its entity and of the entities that embed it.
-/

namespace EntityRest

/-- The error of a value that violates a constraint. -/
def Invalid.error (i : Invalid) : ServiceError :=
  .badRequest (i.violation.message i.key) (some (.object [("field", .string i.key)]))

namespace Schema

/-- The values with a fresh primary key where that is a unique identifier and is missing. -/
def withKey (s : Schema) (fresh : Uuid) (values : Entries Json) : Entries Json :=
  match s.primaryField? with
  | some f =>
    if f.kind = .uuid && (present? values f.key).isNone then
      values.put f.key (.string (String.ofList fresh.render))
    else values
  | none => values

/-- The given values of the entity's own columns. -/
def ownValues (s : Schema) (values : Entries Json) : Sql.Assignments :=
  s.ownColumns.filterMap fun (column, f) =>
    (values.get? f.key).map fun v => (column, f.kind.sqlOfJson v)

/-- The column of the primary key with the value that a text means there. -/
def keyValue (s : Schema) (id : String) : Except ServiceError (String × SqlValue) :=
  match s.primaryField?, s.primaryColumn? with
  | none, _ => .error (.internal (s.name ++ " has no primary key field") none)
  | some _, none => .error (.internal (s.name ++ " primary key is not a column") none)
  | some f, some column =>
    match f.kind.sqlOfText? id with
    | some v => .ok (column, v)
    | none => .error (.query ⟨.invalidValue, s.primaryKey⟩)

/-- Does a schema hold children of the named entity, or join it as a derived table? -/
def embeds (s : Schema) (name : String) : Bool :=
  s.children.any (fun c => c.entity = name) || s.dependencies.contains name

end Schema

/-- The names of the entities whose reads a write to the named entity makes stale: its own, and
those of the entities that embed it. -/
def Registry.staleAfter (reg : Registry) (name : String) : List String :=
  name :: ((reg.schemas.filter fun s => s.embeds name && s.name ≠ name).map Schema.name)

namespace Service

variable {σ κ : Type}

/-- Launches the sweeps that follow a write. -/
def invalidate (sv : Service σ κ) (s : Schema) : Work (World σ κ) Unit :=
  launchSweeps (sv.registry.staleAfter s.name)

/-- Ends the work if a constraint is violated. -/
def refuse : Option Invalid → Work (World σ κ) Unit
  | some i => fail i.error
  | none => pure ()

/-- Creates a row and reads it back. A row without a primary key cannot be read back; it is answered
as it was given. -/
def create (sv : Service σ κ) (s : Schema) (payload : Json) (fresh : Uuid) :
    Work (World σ κ) Json := do
  let given := s.readPayload payload
  refuse (s.violation? given)
  let values := s.withKey fresh given
  let columns := s.ownValues values
  if columns.isEmpty then fail (.badRequest "payload has no writable fields" none)
  let _ ← sv.execute (Sql.insert s sv.database.dialect columns)
  sv.invalidate s
  match Schema.present? values s.primaryKey with
  | some id => sv.fetchOne s {} id.plain
  | none => return s.shapeRow values

/-- Executes a statement that writes the row of a primary key; changing no row is an error. -/
def writeOne (sv : Service σ κ) (s : Schema) (fs : List Fragment) : Work (World σ κ) Unit := do
  let changed ← sv.execute fs
  if changed = 0 then fail (.notFound s.name)
  sv.invalidate s

/-- Changes the given values of a row and reads it back. Without values to write the row is only
read. -/
def update (sv : Service σ κ) (s : Schema) (id : String) (payload : Json) :
    Work (World σ κ) Json := do
  let values := s.readPayload payload
  refuse (s.partialViolation? values)
  let (column, key) ← lift (·) (s.keyValue id)
  match Sql.update? s sv.database.dialect column key (s.ownValues values) with
  | some fs => sv.writeOne s fs
  | none => pure ()
  sv.fetchOne s {} id

/-- Deletes a row and answers with the row as it was. -/
def delete (sv : Service σ κ) (s : Schema) (id : String) : Work (World σ κ) Json := do
  let row ← sv.fetchOne s {} id
  let (column, key) ← lift (·) (s.keyValue id)
  sv.writeOne s (Sql.delete s sv.database.dialect column key)
  return row

end Service

end EntityRest

import EntityRest.Query.Template
import EntityRest.Service.Basic
import EntityRest.Service.Envelope
import EntityRest.Shape.Flat

/-!
# Reading rows

Lists and single rows, with the lists of children they include. Bodies of answers are cached under
the fingerprint of the request.
-/

namespace EntityRest

namespace Schema

/-- A fetched value in the JSON form of the field of its key. A value that does not fit, and one
without a field, is kept. -/
def normalizeValue (s : Schema) (key : String) (v : Json) : Json :=
  match s.field? key with
  | none => v
  | some f =>
    match f.kind.jsonOfSql (.ofJson v) with
    | .ok x => x
    | .error _ => v

/-- A fetched row in the JSON forms of its fields. -/
def normalize (s : Schema) (row : Row) : Row :=
  row.map fun (key, v) => (key, s.normalizeValue key v)

/-- The document of a row, structured unless the schema is flat. -/
def shapeRow (s : Schema) (row : Row) : Json :=
  if s.flat then .object row else (Json.object row).toStructured .dot

end Schema

/-- The number that a count statement answered: the first value of the first row, if that is a
natural or the text of one. -/
def Row.total (rows : List Row) : UInt64 :=
  match rows with
  | ((_, .number n) :: _) :: _ => n.toUInt64?.getD 0
  | ((_, .string s) :: _) :: _ =>
    match (IntRange.unsigned 64).read s.toList with
    | .ok n => UInt64.ofNat n.toNat
    | .error _ => 0
  | _ => 0

namespace Service

variable {σ κ : Type}

/-- The plan for the children of a row under a key, with their schema. A row that lacks a value
which the template refers to has no children and needs no plan. -/
def childPlan (sv : Service σ κ) (s : Schema) (key : String) (row : Row) :
    Except ServiceError (Option (Schema × Plan)) :=
  match s.child? key with
  | none => .error (.query ⟨.unknownInclude, key⟩)
  | some child =>
    match sv.registry.get? child.entity with
    | none => .error (.internal ("unknown child entity " ++ child.entity) none)
    | some t =>
      match child.instantiate row with
      | none => .ok none
      | some pairs => do
        let q ← (Query.ofPairs pairs).mapError .query
        let plan ← (sv.registry.compileAll sv.database.dialect t q).mapError .query
        return some (t, plan)

/-- Puts the children under each key into a row; `rowsOf` gives the rows of a plan. -/
def expand (sv : Service σ κ) (rowsOf : Schema → Plan → Work (World σ κ) (List Json)) (s : Schema) :
    List String → Row → Work (World σ κ) Row
  | [], row => pure row
  | key :: keys, row => do
    let children ←
      match ← lift (·) (sv.childPlan s key row) with
      | none => pure []
      | some (t, plan) => rowsOf t plan
    expand sv rowsOf s keys (row.put key (.array children))

/-- The documents of fetched rows. -/
def finish (sv : Service σ κ) (rowsOf : Schema → Plan → Work (World σ κ) (List Json)) (s : Schema)
    (plan : Plan) : List Row → Work (World σ κ) (List Json)
  | [] => pure []
  | raw :: rest => do
    let row ← sv.expand rowsOf s plan.includes (s.normalize raw)
    let stripped := plan.strip.foldl (fun row key => row.swapRemove key) row
    return s.shapeRow stripped :: (← finish sv rowsOf s plan rest)

/-- The documents of the rows of a plan, with children nested less than `depth` deep. -/
def rows (sv : Service σ κ) : Nat → Schema → Plan → Work (World σ κ) (List Json)
  | 0, _, _ => throw .stall
  | depth + 1, s, plan => do
    let fetched ← sv.fetch (plan.select.fragments sv.database.dialect)
    sv.finish (rows sv depth) s plan fetched

/-- The body under a key: the cached one, or else the one that `answer` gives, which is then
cached. -/
def throughCache (sv : Service σ κ) (key : String) (answer : Work (World σ κ) Json) :
    Work (World σ κ) String := do
  match ← sv.cached? key with
  | some body => return body
  | none =>
    let body := (← answer).render
    sv.store key body
    return body

/-- The number of all rows and the place of the page, where a page was asked for. -/
def pageMeta (sv : Service σ κ) (plan : Plan) : Work (World σ κ) (Option PageMeta) :=
  match plan.count with
  | none => pure none
  | some count => do
    let counted ← sv.fetch (count.fragments sv.database.dialect)
    return some (.of plan.page plan.perPage (Row.total counted))

/-- The envelope of the rows that a request asks for, without the cache. -/
def listUncached (sv : Service σ κ) (s : Schema) (params : Pairs) : Work (World σ κ) Json := do
  let q ← lift .query (Query.ofPairs params)
  let plan ← lift .query (sv.registry.compile sv.database.dialect sv.settings.query s q)
  let data ← sv.rows sv.nesting s plan
  let page ← sv.pageMeta plan
  return Envelope.many data page

def list (sv : Service σ κ) (s : Schema) (params : Pairs) : Work (World σ κ) String :=
  sv.throughCache (Fingerprint.ofRead s.name params) (sv.listUncached s params)

/-- The row of a primary key, as a request sees it. -/
def fetchOne (sv : Service σ κ) (s : Schema) (q : Query) (id : String) :
    Work (World σ κ) Json := do
  let plan ← lift .query (sv.registry.compileOne sv.database.dialect s q id)
  match ← sv.rows sv.nesting s plan with
  | row :: _ => return row
  | [] => fail (.notFound s.name)

/-- The envelope of the row of a primary key, without the cache. -/
def readUncached (sv : Service σ κ) (s : Schema) (id : String) (params : Pairs) :
    Work (World σ κ) Json := do
  let q ← lift .query (Query.ofPairs params)
  return Envelope.one (← sv.fetchOne s q id)

/-- The body of a single row. Its key in the cache has the primary key as a further parameter. -/
def read (sv : Service σ κ) (s : Schema) (id : String) (params : Pairs) :
    Work (World σ κ) String :=
  sv.throughCache (Fingerprint.ofRead s.name (params ++ [("$id", id)]))
    (sv.readUncached s id params)

end Service

end EntityRest

import EntityRest.Schema.Resolve

/-!
# Registries

A set of schemas whose references all resolve and whose derived tables do not form a cycle.
-/

namespace EntityRest

/-- Schemas under distinct names. -/
structure Registry where
  schemas : List Schema
deriving DecidableEq

namespace Registry

def get? (r : Registry) (name : String) : Option Schema := r.schemas.find? fun s => s.name = name

def size (r : Registry) : Nat := r.schemas.length

/-- The schemas in order of their names. -/
def sorted (r : Registry) : List Schema :=
  r.schemas.mergeSort fun a b => decide (a.name ≤ b.name)

/-- Adds the schemas of descriptions one after the other. -/
def addAll (schemas : List Schema) : List EntityConfig → Except SchemaError (List Schema)
  | [] => .ok schemas
  | e :: es => do
    let s ← e.resolve
    refuseIf (schemas.any fun t => t.name = s.name) (.duplicateEntity s.name)
    addAll (schemas ++ [s]) es

/-- Refuses a reference to an entity that is not there. -/
def checkEntity (r : Registry) (kind : ReferenceKind) (name : String) : Except SchemaError Unit :=
  if (r.get? name).isSome then .ok () else .error (.missingReference kind name)

/-- Refuses a child list of an unknown entity, or one whose template uses an unknown key. -/
def checkChild (r : Registry) (s : Schema) (c : Child) : Except SchemaError Unit := do
  r.checkEntity .child c.entity
  c.placeholders.forM fun key =>
    if (s.field? key).isSome then .ok ()
    else .error (.missingReference .templateKey (s.name ++ "." ++ key))

/-- Refuses a schema with a reference that does not resolve. -/
def checkReferences (r : Registry) (s : Schema) : Except SchemaError Unit := do
  s.dependencies.forM (r.checkEntity .subquery)
  s.children.forM (r.checkChild s)

/-- One pass over the names: each whose dependencies are all done is done. -/
def orderPass (r : Registry) (done : List String) : List String → List String
  | [] => done
  | name :: names =>
    let ready :=
      match r.get? name with
      | some s => s.dependencies.all done.contains
      | none => true
    orderPass r (if !done.contains name && ready then done ++ [name] else done) names

/-- Repeats passes until all names are done or a pass brings nothing. Every pass but the last
brings at least one name, so as many passes as there are names, and one more, are enough. -/
def orderPasses (r : Registry) (names : List String) : Nat → List String → List String
  | 0, done => done
  | passes + 1, done =>
    let next := r.orderPass done names
    if next.length = done.length then done else orderPasses r names passes next

/-- The names in an order in which every entity follows those it joins as derived tables. -/
def buildOrder (r : Registry) : Except SchemaError (List String) :=
  let names := r.sorted.map Schema.name
  let done := r.orderPasses names (names.length + 1) []
  match names.find? fun n => !done.contains n with
  | some stuck => .error (.cycle stuck)
  | none => .ok done

def build (entities : List EntityConfig) : Except SchemaError Registry := do
  let r : Registry := ⟨← addAll [] entities⟩
  r.schemas.forM r.checkReferences
  let _ ← r.buildOrder
  return r

end Registry

end EntityRest

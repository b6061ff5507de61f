import EntityRest.Http.Request

/-!
# Routes

The resources of a service, the paths that lead to them and the methods that each one takes.
-/

namespace EntityRest

/-- What a path leads to. Names of entities and primary keys are as they were written in the
path. -/
inductive Route where
  | health
  | ready
  | version
  | collection (entity : String)
  | item (entity id : String)
deriving DecidableEq

namespace Route

/-- The routes with a path of their own. They win over collections of the same name. -/
def fixed : List (String × Route) := [("health", health), ("ready", ready), ("version", version)]

/-- The route of a path of one segment or two, of which the last is not empty. The name in front of
a key may be: it leads to an item of an entity that no registry knows. -/
def ofPath? (path : String) : Option Route :=
  match Text.splitChar '/' path with
  | ["", entity] =>
    if entity = "" then none else some ((fixed.lookup entity).getD (collection entity))
  | ["", entity, id] => if id = "" then none else some (item entity id)
  | _ => none

def methods : Route → List String
  | health | ready | version => ["GET", "HEAD"]
  | collection _ => ["GET", "HEAD", "POST"]
  | item .. => ["GET", "HEAD", "PUT", "DELETE"]

/-- The route with its segments decoded. -/
def decoded? : Route → Option Route
  | collection entity => (Percent.decodeSegment? entity).map collection
  | item entity id => do return item (← Percent.decodeSegment? entity) (← Percent.decodeSegment? id)
  | r => some r

end Route

end EntityRest

import EntityRest.Http.Route
import EntityRest.Locale.Preference
import EntityRest.Service.Write

/-!
# Answers

How a service answers a request. Whatever work ends without a result is answered with an error body:
errors about the request in the language the client prefers, breakdowns with status 500, and work
that does not end with status 408.
-/

namespace EntityRest

/-- An answer: its status, and its body where that is JSON. -/
structure Answer where
  status : Nat
  body : Option String
deriving DecidableEq

namespace Answer

def bare (status : Nat) : Answer := ⟨status, none⟩

def ofJson (status : Nat) (v : Json) : Answer := ⟨status, some v.render⟩

def ofError (e : ServiceError) : Answer := .ofJson e.httpStatus e.body

/-- The answer where only its head is asked for. -/
def headOnly (a : Answer) : Answer := { a with body := a.body.map fun _ => "" }

def health : Answer := .ofJson 200 (.object [("status", .string "ok")])

/-- Does the database answer? -/
def readiness (isReady : Bool) : Answer :=
  if isReady then .ofJson 200 (.object [("status", .string "ok"), ("database", .string "ok")])
  else .ofJson 503 (.object [("status", .string "degraded"), ("database", .string "unavailable")])

def version : Answer :=
  .ofJson 200 (.object [("name", .string "rowpath"), ("version", .string "0.1.0")])

end Answer

namespace Service

variable {σ κ : Type}

/-- The payload of a write, which has to be an object. -/
def requireObject : Json → Work (World σ κ) Unit
  | .object _ => pure ()
  | _ => fail (.badRequest "body must be a JSON object" none)

/-- Work with the body of a request. A body that is refused is answered at once. -/
def withBody (sv : Service σ κ) (r : Request) (entity : String)
    (work : Schema → Json → Work (World σ κ) Answer) : Work (World σ κ) Answer :=
  match r.json sv.settings.server.bodyLimit with
  | .error status => pure (.bare status)
  | .ok body => do
    let s ← sv.schema entity
    requireObject body
    work s body

/-- The work that a method asks for on a decoded route. A created row may need the unique identifier
`fresh`. -/
def perform (sv : Service σ κ) (r : Request) (fresh : Uuid) : Route → Work (World σ κ) Answer
  | .health => pure .health
  | .ready => do return .readiness (sv.database.isReady (← get).database)
  | .version => pure .version
  | .collection entity =>
    if r.method = "POST" then
      sv.withBody r entity fun s body => do
        return .ofJson 201 (Envelope.one (← sv.create s body fresh))
    else do return ⟨200, some (← sv.list (← sv.schema entity) r.params)⟩
  | .item entity id =>
    if r.method = "PUT" then
      sv.withBody r entity fun s body => do
        return .ofJson 200 (Envelope.one (← sv.update s id body))
    else if r.method = "DELETE" then do
      return .ofJson 200 (Envelope.one (← sv.delete (← sv.schema entity) id))
    else do return ⟨200, some (← sv.read (← sv.schema entity) id r.params)⟩

/-- The language of messages for a request. -/
def language (sv : Service σ κ) (r : Request) : String :=
  ((r.header? "accept-language").bind Locale.preferred?).getD sv.settings.lang

/-- The answer to work that ended without a result. -/
def haltAnswer (sv : Service σ κ) (r : Request) : Halt → Answer
  | .error e => .ofError (sv.translator.localize (sv.language r) e)
  | .crash reason => .ofError (.internal "internal error" (some (.string reason)))
  | .stall => .ofError (.ofStatus 408 "request timed out")

def answer (sv : Service σ κ) (r : Request) (fresh : Uuid) : StateM (World σ κ) Answer :=
  match Route.ofPath? r.path with
  | none => pure (.bare 404)
  | some route =>
    if !route.methods.contains r.method then pure (.bare 405)
    else
      match route.decoded? with
      | none => pure (.bare 400)
      | some route => do
        let a ←
          match ← (sv.perform r fresh route).run with
          | .ok a => pure a
          | .error h => pure (sv.haltAnswer r h)
        return if r.method = "HEAD" then a.headOnly else a

end Service

end EntityRest

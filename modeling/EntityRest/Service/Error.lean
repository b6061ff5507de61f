import EntityRest.Json.Basic
import EntityRest.Query.Error
import EntityRest.Schema.Error

/-!
# Service errors

Everything a request can fail with, the status it is answered with, and the body of that answer.
-/

namespace EntityRest

/-- Why a request fails. -/
inductive ServiceError where
  | schema (e : SchemaError)
  | query (e : QueryError)
  | badRequest (message : String) (detail : Option Json)
  | unauthorized (message : String)
  | forbidden (message : String)
  | notFound (resource : String)
  | internal (message : String) (detail : Option Json)
  /-- Any other status. -/
  | status (code : UInt16) (message : String) (detail : Option Json)
deriving DecidableEq

namespace ServiceError

/-- An error with a status of its own; a code that is no error's becomes 500. -/
def ofStatus (code : UInt16) (message : String) : ServiceError :=
  .status (if 400 ≤ code ∧ code ≤ 599 then code else 500) message none

/-- The error of a database that fails with the given reason. -/
def ofDatabase (reason : String) : ServiceError :=
  .internal "database error" (some (.string reason))

/-- The same error with other details, where the kind of error has details of its own. -/
def withDetail (e : ServiceError) (detail : Json) : ServiceError :=
  match e with
  | .badRequest m _ => .badRequest m (some detail)
  | .internal m _ => .internal m (some detail)
  | .status c m _ => .status c m (some detail)
  | e => e

def message : ServiceError → String
  | .schema e => e.message
  | .query e => e.message
  | .badRequest m _ | .unauthorized m | .forbidden m | .internal m _ | .status _ m _ => m
  | .notFound resource => "not found: " ++ resource

def code : ServiceError → UInt16
  | .query _ | .badRequest .. => 400
  | .unauthorized _ => 401
  | .forbidden _ => 403
  | .notFound _ => 404
  | .schema _ | .internal .. => 500
  | .status c _ _ => c

def detail? : ServiceError → Option Json
  | .query e => some (.object [("param", .string e.key)])
  | .badRequest _ d | .internal _ d | .status _ _ d => d
  | _ => none

def body (e : ServiceError) : Json :=
  .object [("error", .object (
    [("code", .ofUInt64 e.code.toUInt64), ("message", .string e.message)] ++
    match e.detail? with
    | some d => [("detail", d)]
    | none => []))]

/-- The status of the answer. A code that no answer can have becomes 500. -/
def httpStatus (e : ServiceError) : Nat :=
  let c := e.code.toNat
  if 100 ≤ c ∧ c ≤ 999 then c else 500

end ServiceError

end EntityRest

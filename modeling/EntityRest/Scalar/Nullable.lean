import EntityRest.Scalar.Payload

/-!
# Nullable scalars

A payload or nothing. Reading JSON or text is permissive: what cannot be read is nothing. Nothing
is `null` in JSON, the empty text, and NULL for the driver.
-/

namespace EntityRest

/-- A payload of the kind, or nothing. -/
abbrev Nullable (k : ScalarKind) := Option (Payload k)

namespace Nullable

variable {k : ScalarKind}

def ofJson (v : Json) : Nullable k :=
  match v with
  | .null => none
  | v => Payload.ofJson? k v

def toJson : Nullable k → Json
  | some p => Payload.toJson k p
  | none => .null

/-- The plain text; nothing is the empty text. -/
def toText : Nullable k → String
  | some p => Payload.toText k p
  | none => ""

/-- Reads plain text. The empty text and `null` in any case are nothing. -/
def ofText (s : String) : Nullable k :=
  if s = "" || Text.lowerAscii s = "null" then none else Payload.ofText? k s

def scan (v : SqlValue) : Except ScanError (Nullable k) :=
  match v with
  | .null => .ok none
  | v => (Payload.scan k v).map some

def toSql : Nullable k → SqlValue
  | some p => Payload.toSql k p
  | none => .null

/-- Nothing, or a payload that counts as empty. -/
def isZero : Nullable k → Bool
  | some p => Payload.isZero k p
  | none => true

/-- The payload, or the one that stands for an absent one. -/
def getPayload : Nullable k → Payload k
  | some p => p
  | none => Payload.blank k

end Nullable

namespace ScalarKind

/-- A document brought into the JSON form of the kind; `null` where it cannot be. -/
def coerceJson (k : ScalarKind) (v : Json) : Json := (Nullable.ofJson v : Nullable k).toJson

def sqlOfJson (k : ScalarKind) (v : Json) : SqlValue := (Nullable.ofJson v : Nullable k).toSql

/-- The driver value of a text, where it is a payload of the kind. -/
def sqlOfText? (k : ScalarKind) (s : String) : Option SqlValue :=
  (Payload.ofText? k s).map (Payload.toSql k)

def jsonOfSql (k : ScalarKind) (v : SqlValue) : Except ScanError Json :=
  (Nullable.scan v : Except ScanError (Nullable k)).map Nullable.toJson

end ScalarKind

end EntityRest

import EntityRest.Scalar.Nullable
import EntityRest.Schema.Basic
import EntityRest.Shape.Flat

/-!
# Payloads of a schema

The fields of a schema read out of a document.
-/

namespace EntityRest

/-- The fields that a document holds, brought into the form of their kinds, under their output
keys. A field whose key is missing is missing from the result. -/
def Schema.readPayload (s : Schema) (v : Json) : Entries Json :=
  .ofPairs (s.fields.filterMap fun f =>
    (v.lookup? f.key).map fun x => (f.key, f.kind.coerceJson x))

end EntityRest

import EntityRest.Json.Object
import EntityRest.Text.Split

/-!
# Flat and structured documents

A flat object holds every leaf under the path that leads to it; a structured one nests objects. The
two conversions work inside arrays as well.
-/

namespace EntityRest

/-- How the parts of a path are joined: `a ++ before ++ b ++ after`. -/
structure Separator where
  before : String
  after : String
deriving DecidableEq

namespace Separator

/-- Parts with points between them. -/
def dot : Separator := ⟨".", ""⟩

/-- Parts after the first in brackets. -/
def bracket : Separator := ⟨"[", "]"⟩

/-- A path with one more part. -/
def extend (sep : Separator) (path part : String) : String :=
  path ++ sep.before ++ part ++ sep.after

/-- The parts of a path. A part that lacks the closing mark is taken as it is. -/
def split (sep : Separator) (path : String) : List String :=
  if sep.before = "" then [path]
  else
    match Text.splitText sep.before path with
    | [] => []
    | p :: ps => p :: ps.map fun q => (Text.dropSuffix? sep.after q).getD q

end Separator

namespace Json

mutual

def toFlat (sep : Separator) : Json → Json
  | .object es => .object (flattenEntries sep id [] es)
  | .array vs => .array (toFlatItems sep vs)
  | v => v

def toFlatItems (sep : Separator) : List Json → List Json
  | [] => []
  | v :: vs => toFlat sep v :: toFlatItems sep vs

/-- Puts the leaves of a document, each under the path that leads to it; an empty object is a
leaf. -/
def flattenInto (sep : Separator) (path : String) (out : Entries Json) : Json → Entries Json
  | .object es =>
    if es.isEmpty then out.put path (.object []) else flattenEntries sep (sep.extend path) out es
  | .array vs => out.put path (.array (toFlatItems sep vs))
  | v => out.put path v

/-- Puts the leaves of entries, whose keys are made into paths by `name`. -/
def flattenEntries (sep : Separator) (name : String → String) (out : Entries Json) :
    List (String × Json) → Entries Json
  | [] => out
  | (k, v) :: es => flattenEntries sep name (flattenInto sep (name k) out v) es

end

mutual

/-- Puts a value under a key. Two objects are merged, and an object is never replaced by anything
else. -/
def putWeak (key : String) (into : Entries Json) : Json → Entries Json
  | .object es =>
    match into.get? key with
    | some (.object old) => into.put key (.object (mergeInto old es))
    | _ => into.put key (.object es)
  | v =>
    match into.get? key with
    | some (.object _) => into
    | _ => into.put key v

/-- Puts entries one after the other. -/
def mergeInto (into : Entries Json) : List (String × Json) → Entries Json
  | [] => into
  | (k, v) :: es => mergeInto (putWeak k into v) es

end

/-- Puts a value at a path. What stands on the way and is no object gives way to one. -/
def putPath (v : Json) : List String → Entries Json → Entries Json
  | [], into => into
  | [key], into => putWeak key into v
  | key :: rest, into =>
    let inner :=
      match into.get? key with
      | some (.object es) => es
      | _ => []
    into.put key (.object (putPath v rest inner))

mutual

def toStructured (sep : Separator) : Json → Json
  | .object es => .object (structureEntries sep [] es)
  | .array vs => .array (toStructuredItems sep vs)
  | v => v

def toStructuredItems (sep : Separator) : List Json → List Json
  | [] => []
  | v :: vs => toStructured sep v :: toStructuredItems sep vs

/-- Puts entries at their paths, one after the other. -/
def structureEntries (sep : Separator) (out : Entries Json) : List (String × Json) → Entries Json
  | [] => out
  | (k, v) :: es => structureEntries sep (putPath (toStructured sep v) (sep.split k) out) es

end

/-- Follows a path of keys into nested objects. -/
def walk? : List String → Json → Option Json
  | [], v => some v
  | key :: rest, v => (v.get? key).bind (walk? rest)

/-- The value of an output key: as a key of its own, or else along its dotted path. -/
def lookup? (v : Json) (key : String) : Option Json :=
  match v.get? key with
  | some x => some x
  | none => walk? (Text.splitChar '.' key) v

end Json

end EntityRest

import EntityRest.Json.Basic

/-!
# Entries in order

The entries of an object, or of a row, in the order in which their keys were first put. Putting a
key that is present keeps its place; taking a key out moves the last entry into the gap.
-/

namespace EntityRest

/-- Keyed values in order of insertion. -/
abbrev Entries (α : Type) := List (String × α)

namespace Entries

variable {α : Type}

def get? (key : String) : Entries α → Option α
  | [] => none
  | (k, v) :: es => if k = key then some v else get? key es

def hasKey (key : String) (es : Entries α) : Bool := (get? key es).isSome

def keys (es : Entries α) : List String := es.map Prod.fst

/-- Puts a value under a key, in its place or at the end. -/
def put (key : String) (value : α) : Entries α → Entries α
  | [] => [(key, value)]
  | (k, v) :: es => if k = key then (k, value) :: es else (k, v) :: put key value es

/-- Puts a list of entries one after the other. -/
def putAll (es : Entries α) (more : List (String × α)) : Entries α :=
  more.foldl (fun es e => put e.1 e.2 es) es

/-- The entries of a list of pairs, in which a later value of a key replaces an earlier one. -/
def ofPairs (pairs : List (String × α)) : Entries α := putAll [] pairs

/-- Takes out a key; the last entry moves into the gap. -/
def swapRemove (key : String) (es : Entries α) : Entries α :=
  match es.findIdx? fun e => e.1 = key with
  | none => es
  | some i =>
    match es.getLast? with
    | none => es
    | some last => if i + 1 = es.length then es.dropLast else (es.set i last).dropLast

end Entries

namespace Json

def get? (key : String) : Json → Option Json
  | .object es => Entries.get? key es
  | _ => none

end Json

end EntityRest

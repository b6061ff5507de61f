import EntityRest.Json.Object

/-!
# Decoding documents into structures

A structure is written as an object, whose unknown keys are ignored, or as an array of its members
in order. A member that is missing takes its default, if it has one.
-/

namespace EntityRest.Json

/-- The values under any of the given keys. -/
def valuesUnder (keys : List String) (es : List (String × Json)) : List Json :=
  (es.filter fun e => keys.contains e.1).map Prod.snd

/-- The members of a structure, each given by the keys it may have. A member given twice, or an
array that is too long, is refused. -/
def members? (keys : List (List String)) : Json → Option (List (Option Json))
  | .object es =>
    keys.mapM fun ks =>
      match valuesUnder ks es with
      | [] => some none
      | [v] => some (some v)
      | _ => none
  | .array vs =>
    if vs.length ≤ keys.length then
      some (vs.map some ++ List.replicate (keys.length - vs.length) none)
    else none
  | _ => none

/-- A member that may be missing. -/
def orElse? {α : Type} (default : α) (decode : Json → Option α) : Option Json → Option α
  | none => some default
  | some v => decode v

def string? : Json → Option String
  | .string s => some s
  | _ => none

def bool? : Json → Option Bool
  | .bool b => some b
  | _ => none

/-- A string or `null`. -/
def optString? : Json → Option (Option String)
  | .null => some none
  | .string s => some (some s)
  | _ => none

/-- An array whose items all decode. -/
def list? {α : Type} (decode : Json → Option α) : Json → Option (List α)
  | .array vs => vs.mapM decode
  | _ => none

/-- A named alternative: its name, or an object that holds `null` under its name. -/
def named? {α : Type} (names : List (String × α)) : Json → Option α
  | .string s => names.lookup s
  | .object [(s, .null)] => names.lookup s
  | _ => none

end EntityRest.Json

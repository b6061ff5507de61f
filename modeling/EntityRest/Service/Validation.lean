import EntityRest.Scalar.Payload
import EntityRest.Schema.Basic
import EntityRest.Json.Object

/-!
# Validation of payloads

The values of a payload are held against the constraints of their fields.
-/

namespace EntityRest

/-- What is wrong with the value of a field. -/
inductive Violation where
  | required
  | oneOf (choices : List String)
  | min (bound : Binary64)
  | max (bound : Binary64)
deriving DecidableEq

def Violation.message (key : String) : Violation → String
  | .required => key ++ " is required"
  | .oneOf choices => key ++ " must be one of: " ++ " ".intercalate choices
  | .min bound => key ++ " must be at least " ++ bound.toText
  | .max bound => key ++ " must be at most " ++ bound.toText

structure Invalid where
  key : String
  violation : Violation
deriving DecidableEq

namespace Constraints

/-- What is held against bounds: a number's value, a text's length, the number of items. -/
def magnitude? : Json → Option Binary64
  | .number n => some n.toBinary
  | .string s => some (.ofInt s.length)
  | .array vs => some (.ofInt vs.length)
  | _ => none

/-- The first constraint that a value violates. -/
def violation? (c : Constraints) (v : Json) : Option Violation :=
  if !c.oneOf.isEmpty && !c.oneOf.contains (v.plain) then some (.oneOf c.oneOf)
  else
    match magnitude? v with
    | none => none
    | some n =>
      match c.min, c.max with
      | some low, high =>
        if n.lt low then some (.min low)
        else
          match high with
          | some high => if high.lt n then some (.max high) else none
          | none => none
      | none, some high => if high.lt n then some (.max high) else none
      | none, none => none

end Constraints

namespace Schema

/-- The value of a key that is present and not null. -/
def present? (values : Entries Json) (key : String) : Option Json :=
  match values.get? key with
  | some .null | none => none
  | some v => some v

/-- What is wrong with a field of a new row. -/
def fieldViolation? (values : Entries Json) (f : Field) : Option Invalid :=
  match present? values f.key with
  | none => if f.constraints.required then some ⟨f.key, .required⟩ else none
  | some v => (f.constraints.violation? v).map fun x => ⟨f.key, x⟩

/-- The first violation of a new row, in the order of the fields. -/
def violation? (s : Schema) (values : Entries Json) : Option Invalid :=
  s.fields.findSome? (fieldViolation? values)

/-- What is wrong with a value given in a change. -/
def entryViolation? (s : Schema) (entry : String × Json) : Option Invalid :=
  match s.field? entry.1 with
  | none => none
  | some f =>
    if entry.2.isNull then
      if f.constraints.required then some ⟨entry.1, .required⟩ else none
    else (f.constraints.violation? entry.2).map fun x => ⟨entry.1, x⟩

/-- The first violation of a change, in the order of the values given. -/
def partialViolation? (s : Schema) (values : Entries Json) : Option Invalid :=
  values.findSome? s.entryViolation?

end Schema

end EntityRest

import EntityRest.Number.Decimal
import EntityRest.Text.Blank
import EntityRest.Text.Split

/-!
# Annotations

The small languages in which a field's output name, source and constraints are written.
-/

namespace EntityRest

/-- What a source annotation says: the expression, and whether the field is hidden or grouped by. -/
structure SourceTag where
  expr : String
  hidden : Bool
  group : Bool
deriving DecidableEq

namespace FieldTag

/-- Takes flags off the reversed parts of a source annotation, as long as another part is left. -/
def takeFlags : List String → List String × Bool × Bool
  | part :: rest :: parts =>
    let flag := Text.trim part
    if flag = "hide" then
      let (left, _, group) := takeFlags (rest :: parts)
      (left, true, group)
    else if flag = "group" then
      let (left, hidden, _) := takeFlags (rest :: parts)
      (left, hidden, true)
    else (part :: rest :: parts, false, false)
  | parts => (parts, false, false)

/-- Reads a source annotation: an expression and, after commas, the flags `hide` and `group`.
Commas inside the expression stay. -/
def source (raw : String) : SourceTag :=
  let (parts, hidden, group) := takeFlags (Text.splitChar ',' raw).reverse
  ⟨Text.trim (",".intercalate parts.reverse), hidden, group⟩

/-- The output key of an output annotation: its first part. -/
def outputKey (raw : String) : String := Text.trim ((Text.splitChar ',' raw).headD "")

/-- Is the field left out of output when it is empty? -/
def omitsEmpty (raw : String) : Bool :=
  ((Text.splitChar ',' raw).drop 1).any fun flag => Text.trim flag = "omitempty"

end FieldTag

/-- Constraints on the values of a field. -/
structure Constraints where
  required : Bool := false
  oneOf : List String := []
  min : Option Binary64 := none
  max : Option Binary64 := none
deriving DecidableEq

namespace Constraints

def isEmpty (c : Constraints) : Bool :=
  !c.required && c.oneOf.isEmpty && c.min.isNone && c.max.isNone

/-- Adds one rule. An unknown rule says nothing; a bound that is no number is refused, with the
rule as the reason. -/
def addRule (c : Constraints) (rule : String) : Except String Constraints :=
  let (name, arg) := (Text.cutFirst? "=" rule).getD (rule, "")
  let bound : Except String Binary64 :=
    match Binary.read? (Chars.trim arg.toList) with
    | some x => .ok x
    | none => .error rule
  match Text.trim name with
  | "required" => .ok { c with required := true }
  | "oneof" => .ok { c with oneOf := (Chars.words arg.toList).map String.ofList }
  | "min" => bound.map fun x => { c with min := some x }
  | "max" => bound.map fun x => { c with max := some x }
  | _ => .ok c

/-- Reads a constraint annotation such as `required,min=1,oneof=a b`. -/
def ofText (raw : String) : Except String Constraints :=
  (Text.items raw).foldlM addRule {}

end Constraints

end EntityRest

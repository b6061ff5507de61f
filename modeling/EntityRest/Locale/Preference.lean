import EntityRest.Number.Decimal
import EntityRest.Text.Split

/-!
# Preferred language

The language that a list of weighted language tags asks for most.
-/

namespace EntityRest.Locale

/-- The weight among the parameters of a tag: that of the first `q=`, or one if there is none or it
is no number. -/
def weight (params : List String) : Binary32 :=
  match params.findSome? fun p => Text.dropPrefix? "q=" (Text.trim p) with
  | some q => (Binary.read? (Chars.trim q.toList)).getD (.ofInt 1)
  | none => .ofInt 1

/-- A tag with its weight, unless it is empty, the wildcard, or not wanted. An undefined weight
counts as wanted. -/
def weighted? (part : String) : Option (Binary32 × String) :=
  match Text.splitChar ';' part with
  | [] => none
  | tag :: params =>
    let tag := Text.trim tag
    let q := weight params
    if tag = "" || tag = "*" || q.lt .zero || q.eqv .zero then none else some (q, tag)

/-- The better of two weighted tags; the first of equals. -/
def better (best : Option (Binary32 × String)) (next : Binary32 × String) :
    Option (Binary32 × String) :=
  match best with
  | some b => if b.1.lt next.1 then some next else some b
  | none => some next

def preferred? (header : String) : Option String :=
  (((Text.splitChar ',' header).filterMap weighted?).foldl better none).map Prod.snd

end EntityRest.Locale

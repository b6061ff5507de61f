import EntityRest.Json.Object
import EntityRest.Json.Printer
import EntityRest.Query.Params
import EntityRest.Schema.Basic

/-!
# Child templates

The filter template of a child list, filled in with the values of a parent row.
-/

namespace EntityRest.Child

/-- The text that a parent value gives. Missing and null give none. -/
def templateText? : Option Json → Option String
  | none | some .null => none
  | some v => some v.plain

/-- Replaces one placeholder after the other; one that occurs needs a value. -/
def fill (row : Entries Json) : List String → String → Option String
  | [], value => some value
  | key :: keys, value =>
    let token := "\x7b" ++ key ++ "\x7d"
    if Text.contains token value then
      match templateText? (row.get? key) with
      | some text =>
        fill row keys (String.ofList (Chars.replace token.toList text.toList value.toList))
      | none => none
    else fill row keys value

/-- The parameters that select the children of a parent row; none where a value is missing. -/
def instantiate (c : Child) (row : Entries Json) : Option Pairs :=
  (splitPairs c.filter).mapM fun (key, value) =>
    (fill row c.placeholders value).map fun v => (key, v)

end EntityRest.Child

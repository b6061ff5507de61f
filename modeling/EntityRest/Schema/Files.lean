import EntityRest.Json.Parser
import EntityRest.Schema.Config
import EntityRest.Schema.Error

/-!
# Files of descriptions

Entity descriptions out of the files of a directory. A file holds one description, or an array of
them; only files with the extension `json` count, and they are read in the order of their names.
-/

namespace EntityRest

structure EntityFile where
  name : String
  text : String
deriving DecidableEq

namespace EntityFile

/-- Does the file hold descriptions? Its name then ends with the extension, and that is not all of
its name. -/
def isDescription (f : EntityFile) : Bool :=
  match Text.cutLast? "." f.name with
  | some (stem, extension) => stem ≠ "" && extension = "json"
  | none => false

/-- The descriptions in a document. -/
def entities? : Json → Option (List EntityConfig)
  | .array vs => vs.mapM EntityConfig.ofJson?
  | v => (EntityConfig.ofJson? v).map fun e => [e]

def read (dir : String) (f : EntityFile) : Except SchemaError (List EntityConfig) :=
  match (Json.ofText? f.text).bind entities? with
  | some es => .ok es
  | none => .error (.load (dir ++ "/" ++ f.name))

/-- The descriptions in the files of a directory, which has to be there. -/
def readAll (dir : String) : Option (List EntityFile) → Except SchemaError (List EntityConfig)
  | none => .error (.load dir)
  | some files => do
    let sorted := (files.filter isDescription).mergeSort fun a b => decide (a.name ≤ b.name)
    return (← sorted.mapM (read dir)).flatten

end EntityFile

end EntityRest

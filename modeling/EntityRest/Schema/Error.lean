/-!
# Schema errors

Why a set of entity descriptions is refused.
-/

namespace EntityRest

/-- What a missing reference was to. -/
inductive ReferenceKind where
  | subquery
  | child
  | templateKey
deriving DecidableEq

def ReferenceKind.name : ReferenceKind → String
  | .subquery => "subquery entity"
  | .child => "child entity"
  | .templateKey => "child template key"

/-- What is wrong with a single description. -/
inductive Defect where
  | noName
  | noTable (entity : String)
  | noVersion (entity : String)
  | badConstraint (rule : String)
  | relationSource (asName entity : String)
deriving DecidableEq

def Defect.message : Defect → String
  | .noName => "entity name must not be empty"
  | .noTable entity => "entity " ++ entity ++ " has no table"
  | .noVersion entity => "entity " ++ entity ++ " has no version"
  | .badConstraint rule => "invalid constraint '" ++ rule ++ "'"
  | .relationSource asName entity =>
    "relation " ++ asName ++ " of entity " ++ entity ++ " needs exactly one of table or schema"

/-- Why descriptions are refused. -/
inductive SchemaError where
  | missingReference (kind : ReferenceKind) (id : String)
  | invalidPrimaryKey (entity key : String)
  | duplicateKey (entity key : String)
  | duplicateAlias (entity asName : String)
  | unknownAlias (entity expr asName : String)
  | duplicateEntity (entity : String)
  | cycle (entity : String)
  | load (reason : String)
  | validation (defect : Defect)
deriving DecidableEq

def SchemaError.message : SchemaError → String
  | .missingReference kind id => "missing reference: " ++ kind.name ++ " '" ++ id ++ "'"
  | .invalidPrimaryKey entity key => "invalid primary key: entity " ++ entity ++ " key " ++ key
  | .duplicateKey entity key => "duplicate output key '" ++ key ++ "' in entity " ++ entity
  | .duplicateAlias entity asName => "duplicate alias '" ++ asName ++ "' in entity " ++ entity
  | .unknownAlias entity expr asName =>
    "unknown alias '" ++ asName ++ "' in '" ++ expr ++ "' of entity " ++ entity
  | .duplicateEntity entity => "duplicate entity: " ++ entity
  | .cycle entity => "subquery relations form a cycle through " ++ entity
  | .load reason => "schema load: " ++ reason
  | .validation defect => "validation: " ++ defect.message

end EntityRest

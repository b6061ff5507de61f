import EntityRest.Schema.Basic
import EntityRest.Schema.Config
import EntityRest.Schema.Error

/-!
# From descriptions to schemas

Reading the annotations of a description and checking what can be checked of one entity alone.
-/

namespace EntityRest

/-- Refuses with the error where a test is met. -/
def refuseIf (bad : Bool) (e : SchemaError) : Except SchemaError Unit :=
  if bad then .error e else .ok ()

/-- A clause with a definite operand. -/
def ClauseConfig.resolve (c : ClauseConfig) : Clause :=
  ⟨c.column, c.op, match c.reference with | some r => .column r | none => .value c.value⟩

/-- Reads the annotations of a field. -/
def FieldConfig.resolve (f : FieldConfig) : Except SchemaError Field :=
  let tag := FieldTag.source f.source
  let constraints : Except String Constraints :=
    match f.rules with
    | some rules => Constraints.ofText rules
    | none => .ok {}
  match constraints with
  | .ok c => .ok ⟨FieldTag.outputKey f.output, tag.expr, f.kind, tag.hidden, tag.group, c⟩
  | .error rule => .error (.validation (.badConstraint rule))

/-- A relation with its one source. -/
def RelationConfig.resolve (entity : String) (r : RelationConfig) : Except SchemaError Relation :=
  match r.table, r.entity with
  | some t, none => .ok ⟨r.kind, .table t, r.asName, r.conditions.map ClauseConfig.resolve⟩
  | none, some e => .ok ⟨r.kind, .entity e, r.asName, r.conditions.map ClauseConfig.resolve⟩
  | _, _ => .error (.validation (.relationSource r.asName entity))

namespace Schema

/-- The first item that stands in the list before it, if any. -/
def firstRepeat? : List String → List String → Option String
  | _, [] => none
  | seen, x :: xs => if seen.contains x then some x else firstRepeat? (x :: seen) xs

/-- The expressions whose aliases have to be declared, in the order in which they are checked. -/
def exprs (s : Schema) : List String :=
  s.fields.map Field.expr ++ s.relations.flatMap (fun r => r.conditions.flatMap Clause.exprs) ++
    s.filters.map Clause.column ++ s.sorts.map SortRule.expr ++ s.groups

/-- The aliases that expressions may use. -/
def aliases (s : Schema) : List String := s.asName :: s.relations.map Relation.asName

/-- Refuses an expression that uses an alias which is not declared. -/
def checkExpr (s : Schema) (expr : String) : Except SchemaError Unit :=
  match (Expr.aliases expr).find? fun a => !s.aliases.contains a with
  | some a => .error (.unknownAlias s.name expr a)
  | none => .ok ()

/-- The first field key that is empty or stands in the list before it, if any. -/
def badFieldKey? : List String → List String → Option String
  | _, [] => none
  | seen, k :: ks => if k = "" || seen.contains k then some k else badFieldKey? (k :: seen) ks

/-- Refuses output keys that are repeated, and empty ones of fields. -/
def checkKeys (s : Schema) : Except SchemaError Unit :=
  let fieldKeys := s.fields.map Field.key
  match badFieldKey? [] fieldKeys with
  | some k => .error (.duplicateKey s.name k)
  | none =>
    match firstRepeat? fieldKeys (s.children.map Child.key) with
    | some k => .error (.duplicateKey s.name k)
    | none => .ok ()

def checkAliases (s : Schema) : Except SchemaError Unit :=
  match firstRepeat? [] s.aliases with
  | some asName => .error (.duplicateAlias s.name asName)
  | none => .ok ()

/-- Checks what can be checked of one entity alone. -/
def validate (s : Schema) : Except SchemaError Unit := do
  refuseIf (Text.trim s.name = "") (.validation .noName)
  refuseIf (Text.trim s.table = "") (.validation (.noTable s.name))
  refuseIf (Text.trim s.version = "") (.validation (.noVersion s.name))
  s.checkKeys
  s.checkAliases
  s.exprs.forM s.checkExpr
  refuseIf s.primaryColumn?.isNone (.invalidPrimaryKey s.name s.primaryKey)

end Schema

/-- Builds the schema of a description and checks it. -/
def EntityConfig.resolve (e : EntityConfig) : Except SchemaError Schema := do
  let fields ← e.fields.mapM FieldConfig.resolve
  let relations ← e.relations.mapM (RelationConfig.resolve e.name)
  let schema : Schema :=
    { name := e.name
      table := e.table
      asName := if e.asName = "" then e.table else e.asName
      version := e.version
      primaryKey := e.primaryKey
      flat := e.flat
      fields
      relations
      filters := e.filters.map ClauseConfig.resolve
      sorts := e.sorts.map fun s => ⟨s.column, s.desc, s.ignoreCase, s.required⟩
      groups := e.groups
      children := e.children.map fun c => ⟨c.key, c.entity, c.filter⟩ }
  schema.validate
  return schema

end EntityRest

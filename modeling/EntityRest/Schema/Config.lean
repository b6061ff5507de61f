import EntityRest.Json.Decode
import EntityRest.Scalar.Kind
import EntityRest.Schema.Operator

/-!
# Entity descriptions

An entity as it is written down: its table, its annotated fields, the relations it joins, static
filters, sorts, groups and child lists.
-/

namespace EntityRest

/-- `column <op> value` or, with a reference, `column <op> expression`. -/
structure ClauseConfig where
  column : String
  op : Operator
  value : Json
  reference : Option String
deriving DecidableEq

/-- A field: the annotation of its output name, the annotation of its source, its kind, and the
annotation of its constraints. -/
structure FieldConfig where
  output : String
  source : String
  kind : ScalarKind
  rules : Option String
deriving DecidableEq

/-- A relation to a table or to another entity. -/
structure RelationConfig where
  kind : JoinKind
  table : Option String
  entity : Option String
  asName : String
  conditions : List ClauseConfig
deriving DecidableEq

/-- A sort; a required one is kept when the request brings its own. -/
structure SortConfig where
  column : String
  desc : Bool
  ignoreCase : Bool
  required : Bool
deriving DecidableEq

/-- A list of children: the rows of another entity that a filter template selects. -/
structure ChildConfig where
  key : String
  entity : String
  filter : String
deriving DecidableEq

structure EntityConfig where
  name : String
  table : String
  asName : String
  version : String
  primaryKey : String := "id"
  flat : Bool := false
  fields : List FieldConfig := []
  relations : List RelationConfig := []
  filters : List ClauseConfig := []
  sorts : List SortConfig := []
  groups : List String := []
  children : List ChildConfig := []
deriving DecidableEq

open Json (members? orElse? string? bool? optString? list? named?)

namespace ClauseConfig

def ofJson? (v : Json) : Option ClauseConfig := do
  let [column, op, value, reference] ← members? [["column"], ["op"], ["value"], ["ref"]] v | none
  return {
    column := ← (← column) |> string?
    op := ← orElse? .eq (named? Operator.names) op
    value := value.getD .null
    reference := ← orElse? none optString? reference }

def toJson (c : ClauseConfig) : Json :=
  .object [("column", .string c.column), ("op", .string c.op.name), ("value", c.value),
    ("ref", c.reference.elim .null .string)]

end ClauseConfig

namespace FieldConfig

def ofJson? (v : Json) : Option FieldConfig := do
  let [output, source, kind, rules] ←
    members? [["json", "as"], ["db"], ["type"], ["validate"]] v | none
  return {
    output := ← (← output) |> string?
    source := ← (← source) |> string?
    kind := ← orElse? .string (named? ScalarKind.names) kind
    rules := ← orElse? none optString? rules }

def toJson (f : FieldConfig) : Json :=
  .object [("json", .string f.output), ("db", .string f.source), ("type", .string f.kind.name),
    ("validate", f.rules.elim .null .string)]

end FieldConfig

namespace RelationConfig

def ofJson? (v : Json) : Option RelationConfig := do
  let [kind, table, entity, asName, conditions] ←
    members? [["type"], ["table"], ["schema"], ["alias"], ["conditions"]] v | none
  return {
    kind := ← orElse? .left (named? JoinKind.names) kind
    table := ← orElse? none optString? table
    entity := ← orElse? none optString? entity
    asName := ← (← asName) |> string?
    conditions := ← orElse? [] (list? ClauseConfig.ofJson?) conditions }

def toJson (r : RelationConfig) : Json :=
  .object [("type", .string r.kind.name), ("table", r.table.elim .null .string),
    ("schema", r.entity.elim .null .string), ("alias", .string r.asName),
    ("conditions", .array (r.conditions.map ClauseConfig.toJson))]

end RelationConfig

namespace SortConfig

def ofJson? (v : Json) : Option SortConfig := do
  let [column, desc, ignoreCase, required] ←
    members? [["column"], ["desc"], ["case_insensitive"], ["required"]] v | none
  return {
    column := ← (← column) |> string?
    desc := ← orElse? false bool? desc
    ignoreCase := ← orElse? false bool? ignoreCase
    required := ← orElse? false bool? required }

def toJson (s : SortConfig) : Json :=
  .object [("column", .string s.column), ("desc", .bool s.desc),
    ("case_insensitive", .bool s.ignoreCase), ("required", .bool s.required)]

end SortConfig

namespace ChildConfig

def ofJson? (v : Json) : Option ChildConfig := do
  let [key, entity, filter] ← members? [["key"], ["entity"], ["filter"]] v | none
  return {
    key := ← (← key) |> string?
    entity := ← (← entity) |> string?
    filter := ← (← filter) |> string? }

def toJson (c : ChildConfig) : Json :=
  .object [("key", .string c.key), ("entity", .string c.entity), ("filter", .string c.filter)]

end ChildConfig

namespace EntityConfig

def ofJson? (v : Json) : Option EntityConfig := do
  let [name, table, asName, version, primaryKey, flat, fields, relations, filters, sorts, groups,
      children] ←
    members? [["name"], ["table"], ["alias"], ["version"], ["primary_key"], ["flat"], ["fields"],
      ["relations"], ["filters"], ["sorts"], ["groups"], ["children"]] v | none
  return {
    name := ← (← name) |> string?
    table := ← (← table) |> string?
    asName := ← orElse? "" string? asName
    version := ← (← version) |> string?
    primaryKey := ← orElse? "id" string? primaryKey
    flat := ← orElse? false bool? flat
    fields := ← orElse? [] (list? FieldConfig.ofJson?) fields
    relations := ← orElse? [] (list? RelationConfig.ofJson?) relations
    filters := ← orElse? [] (list? ClauseConfig.ofJson?) filters
    sorts := ← orElse? [] (list? SortConfig.ofJson?) sorts
    groups := ← orElse? [] (list? string?) groups
    children := ← orElse? [] (list? ChildConfig.ofJson?) children }

/-- The document of an entity, with every member in order. -/
def toJson (e : EntityConfig) : Json :=
  .object [("name", .string e.name), ("table", .string e.table), ("alias", .string e.asName),
    ("version", .string e.version), ("primary_key", .string e.primaryKey), ("flat", .bool e.flat),
    ("fields", .array (e.fields.map FieldConfig.toJson)),
    ("relations", .array (e.relations.map RelationConfig.toJson)),
    ("filters", .array (e.filters.map ClauseConfig.toJson)),
    ("sorts", .array (e.sorts.map SortConfig.toJson)),
    ("groups", .array (e.groups.map .string)),
    ("children", .array (e.children.map ChildConfig.toJson))]

end EntityConfig

end EntityRest

import EntityRest.Json.Basic
import EntityRest.Scalar.Kind
import EntityRest.Schema.FieldTag
import EntityRest.Schema.Expr
import EntityRest.Schema.Operator

/-!
# Schemas

An entity ready for use: its annotations are read, and its clauses have definite operands.
-/

namespace EntityRest

structure Field where
  key : String
  expr : String
  kind : ScalarKind
  hidden : Bool
  group : Bool
  constraints : Constraints
deriving DecidableEq

/-- The column of a field whose expression is a plain column of the given alias. -/
def Field.columnOf? (f : Field) (asName : String) : Option String :=
  match Text.cutFirst? "." f.expr with
  | some (a, column) => if a = asName && Expr.isIdent column.toList then some column else none
  | none => none

/-- What a relation joins. -/
inductive RelationSource where
  | table (name : String)
  | entity (name : String)
deriving DecidableEq

/-- The right-hand side of a clause. -/
inductive Operand where
  | value (v : Json)
  | column (expr : String)
deriving DecidableEq

/-- A static comparison. -/
structure Clause where
  column : String
  op : Operator
  operand : Operand
deriving DecidableEq

def Clause.exprs (c : Clause) : List String :=
  match c.operand with
  | .column x => [c.column, x]
  | .value _ => [c.column]

structure Relation where
  kind : JoinKind
  source : RelationSource
  asName : String
  conditions : List Clause
deriving DecidableEq

structure SortRule where
  expr : String
  desc : Bool
  ignoreCase : Bool
  required : Bool
deriving DecidableEq

/-- A list of child rows, selected by a template whose placeholders take the parent's values. -/
structure Child where
  key : String
  entity : String
  filter : String
deriving DecidableEq

/-- The keys of the parent row that the template refers to, in order of appearance. -/
def Child.placeholders (c : Child) : List String := Expr.placeholders c.filter

/-- An entity ready for use. -/
structure Schema where
  name : String
  table : String
  asName : String
  version : String
  primaryKey : String
  flat : Bool
  fields : List Field
  relations : List Relation
  filters : List Clause
  sorts : List SortRule
  groups : List String
  children : List Child
deriving DecidableEq

namespace Schema

def field? (s : Schema) (key : String) : Option Field := s.fields.find? fun f => f.key = key

def primaryField? (s : Schema) : Option Field := s.field? s.primaryKey

def relation? (s : Schema) (asName : String) : Option Relation :=
  s.relations.find? fun r => r.asName = asName

def child? (s : Schema) (key : String) : Option Child := s.children.find? fun c => c.key = key

/-- The fields stored in the entity's own table, with their columns. -/
def ownColumns (s : Schema) : List (String × Field) :=
  s.fields.filterMap fun f => (f.columnOf? s.asName).map fun column => (column, f)

def primaryColumn? (s : Schema) : Option String :=
  s.primaryField?.bind fun f => f.columnOf? s.asName

/-- The entities that a schema joins as derived tables. -/
def dependencies (s : Schema) : List String :=
  s.relations.filterMap fun r =>
    match r.source with
    | .entity name => some name
    | .table _ => none

end Schema

end EntityRest

import EntityRest.Schema.Basic
import EntityRest.Sql.Statement

/-!
# Tables of schemas

The statements that create and drop the table of an entity. A table holds the entity's own columns
and the constraint of its primary key.
-/

namespace EntityRest.Schema

/-- The definition of a column. The primary key takes no NULL; a unique identifier there gets a
default. -/
def columnDef (s : Schema) (d : Dialect) (column : String) (f : Field) : String :=
  d.quote column ++ " " ++ f.kind.columnType d ++
    (if s.primaryColumn? = some column then
      " NOT NULL" ++ (if f.kind = .uuid then " DEFAULT " ++ d.uuidDefault else "")
    else "")

/-- The definitions of columns after those that are there already. A column that an earlier
definition starts with is not defined again. -/
def columnDefs (s : Schema) (d : Dialect) (defs : List String) :
    List (String × Field) → List String
  | [] => defs
  | (column, f) :: rest =>
    if defs.any (Text.startsWith (d.quote column ++ " ")) then columnDefs s d defs rest
    else columnDefs s d (defs ++ [s.columnDef d column f]) rest

/-- The constraint of the primary key, where that is a column. -/
def keyDefs (s : Schema) (d : Dialect) : List String :=
  match s.primaryColumn? with
  | some column => ["PRIMARY KEY (" ++ d.quote column ++ ")"]
  | none => []

/-- What follows the definitions: an engine and its order, where the dialect has engines. -/
def engineClause (s : Schema) : Dialect → String
  | .clickhouse =>
    " ENGINE = MergeTree()" ++
      match s.primaryColumn? with
      | some column => " ORDER BY " ++ Dialect.quote .clickhouse column
      | none => ""
  | _ => ""

def createTable (s : Schema) (d : Dialect) : String :=
  "CREATE TABLE " ++ d.quote s.table ++ " (" ++
    ", ".intercalate (s.columnDefs d [] s.ownColumns ++ s.keyDefs d) ++ ")" ++ s.engineClause d

def dropTable (s : Schema) (d : Dialect) : String := "DROP TABLE IF EXISTS " ++ d.quote s.table

end EntityRest.Schema

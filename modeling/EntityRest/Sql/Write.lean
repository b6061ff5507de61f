import EntityRest.Schema.Basic
import EntityRest.Sql.Statement

/-!
# Statements that write

Inserting, updating and deleting rows of an entity's own table.
-/

namespace EntityRest.Sql

/-- Columns with the values to store in them. -/
abbrev Assignments := List (String × SqlValue)

def insert (s : Schema) (d : Dialect) (values : Assignments) : List Fragment :=
  [.text ("INSERT INTO " ++ d.quote s.table ++ " (" ++
      ", ".intercalate (values.map fun v => d.quote v.1) ++ ") VALUES (")] ++
    Fragment.joinWith ", " (values.map fun v => [.bind v.2]) ++ [.text ")"]

/-- Updates the row whose key column has the given value. The key column itself is not set; where
nothing else is to be set there is no statement. -/
def update? (s : Schema) (d : Dialect) (keyColumn : String) (id : SqlValue)
    (values : Assignments) : Option (List Fragment) :=
  match values.filter fun v => v.1 ≠ keyColumn with
  | [] => none
  | sets =>
    some ([.text ("UPDATE " ++ d.quote s.table ++ " SET ")] ++
      Fragment.joinWith ", " (sets.map fun v => [.text (d.quote v.1 ++ " = "), .bind v.2]) ++
      [.text (" WHERE " ++ d.quote keyColumn ++ " = "), .bind id])

/-- Deletes the row whose key column has the given value. -/
def delete (s : Schema) (d : Dialect) (keyColumn : String) (id : SqlValue) : List Fragment :=
  [.text ("DELETE FROM " ++ d.quote s.table ++ " WHERE " ++ d.quote keyColumn ++ " = "), .bind id]

end EntityRest.Sql

import EntityRest.Scalar.Kind
import EntityRest.Sql.Statement

/-!
# Version stamps

The table that holds, for the name of every entity, the version for which its table was built.
-/

namespace EntityRest.Migration

def stampTable : String := "_schema_versions"

def createStamps (d : Dialect) : List Fragment :=
  let text := ScalarKind.string.columnType d
  [.text ("CREATE TABLE IF NOT EXISTS " ++ d.quote stampTable ++ " (" ++ d.quote "name" ++ " " ++
    text ++ " NOT NULL PRIMARY KEY, " ++ d.quote "version" ++ " " ++ text ++ " NOT NULL)")]

def selectStamps (d : Dialect) : List Fragment :=
  [.text ("SELECT " ++ d.quote "name" ++ ", " ++ d.quote "version" ++ " FROM " ++
    d.quote stampTable)]

def deleteStamp (d : Dialect) (name : String) : List Fragment :=
  [.text ("DELETE FROM " ++ d.quote stampTable ++ " WHERE " ++ d.quote "name" ++ " = "),
    .value (.text name)]

def insertStamp (d : Dialect) (name version : String) : List Fragment :=
  [.text ("INSERT INTO " ++ d.quote stampTable ++ " (" ++ d.quote "name" ++ ", " ++
      d.quote "version" ++ ") VALUES ("),
    .value (.text name), .text ", ", .value (.text version), .text ")"]

/-- The stamp in a row; there is none where the name or the version is no string. -/
def stampOf? (row : Row) : Option (String × String) :=
  match row.get? "name", row.get? "version" with
  | some (.string name), some (.string version) => some (name, version)
  | _, _ => none

/-- The versions by name; of several stamps of one name the last counts. -/
def stampsOf (rows : List Row) : Entries String := Entries.ofPairs (rows.filterMap stampOf?)

end EntityRest.Migration

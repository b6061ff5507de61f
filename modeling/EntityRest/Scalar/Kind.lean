import EntityRest.Sql.Dialect

/-!
# Scalar kinds

The kinds of payload a field can carry, their names, and the column type that holds each one.
-/

namespace EntityRest

inductive ScalarKind where
  | bool
  | int
  | float
  | string
  | text
  | timestamp
  | date
  | time
  | json
  | uuid
  | unixtime
deriving DecidableEq

namespace ScalarKind

/-- Every kind with its name in descriptions. -/
def names : List (String × ScalarKind) :=
  [("bool", bool), ("int", int), ("float", float), ("string", string), ("text", text),
    ("timestamp", timestamp), ("date", date), ("time", time), ("json", json), ("uuid", uuid),
    ("unixtime", unixtime)]

/-- The name of a kind in descriptions. -/
def name : ScalarKind → String
  | bool => "bool"
  | int => "int"
  | float => "float"
  | string => "string"
  | text => "text"
  | timestamp => "timestamp"
  | date => "date"
  | time => "time"
  | json => "json"
  | uuid => "uuid"
  | unixtime => "unixtime"

/-- The name of a kind in messages. -/
def title : ScalarKind → String
  | bool => "Bool"
  | int => "Int"
  | float => "Float"
  | string => "String"
  | text => "Text"
  | timestamp => "Timestamp"
  | date => "Date"
  | time => "Time"
  | json => "Json"
  | uuid => "Uuid"
  | unixtime => "UnixTime"

/-- Further names by which a kind may be asked for. -/
def synonyms : List (String × ScalarKind) :=
  [("boolean", bool), ("integer", int), ("int64", int), ("bigint", int), ("float64", float),
    ("number", float), ("double", float), ("varchar", string), ("datetime", timestamp),
    ("jsonb", json)]

/-- The kind of a name or synonym; case and outer blanks do not matter. -/
def ofText? (s : String) : Option ScalarKind :=
  (names ++ synonyms).lookup (String.ofList (Chars.lower (Chars.trim s.toList)))

def columnType : ScalarKind → Dialect → String
  | bool, .postgres | bool, .firebird => "BOOLEAN"
  | bool, .mysql => "TINYINT(1)"
  | bool, .sqlite => "INTEGER"
  | bool, .sqlserver => "BIT"
  | bool, .clickhouse => "Bool"
  | int, .sqlite => "INTEGER"
  | int, .clickhouse => "Int64"
  | int, _ => "BIGINT"
  | float, .postgres | float, .firebird => "DOUBLE PRECISION"
  | float, .mysql => "DOUBLE"
  | float, .sqlite => "REAL"
  | float, .sqlserver => "FLOAT"
  | float, .clickhouse => "Float64"
  | string, .sqlite => "TEXT"
  | string, .sqlserver => "NVARCHAR(255)"
  | string, .clickhouse => "String"
  | string, _ => "VARCHAR(255)"
  | text, .sqlserver => "NVARCHAR(MAX)"
  | text, .firebird => "BLOB SUB_TYPE TEXT"
  | text, .clickhouse => "String"
  | text, _ => "TEXT"
  | timestamp, .postgres => "TIMESTAMPTZ"
  | timestamp, .mysql => "DATETIME"
  | timestamp, .sqlite => "TEXT"
  | timestamp, .sqlserver => "DATETIMEOFFSET"
  | timestamp, .firebird => "TIMESTAMP"
  | timestamp, .clickhouse => "DateTime"
  | date, .sqlite => "TEXT"
  | date, .clickhouse => "Date"
  | date, _ => "DATE"
  | time, .sqlite => "TEXT"
  | time, .clickhouse => "String"
  | time, _ => "TIME"
  | json, .postgres => "JSONB"
  | json, .mysql | json, .sqlite => "JSON"
  | json, .sqlserver => "NVARCHAR(MAX)"
  | json, .firebird => "BLOB SUB_TYPE TEXT"
  | json, .clickhouse => "String"
  | uuid, .postgres => "uuid"
  | uuid, .clickhouse => "UUID"
  | uuid, _ => "char(36)"
  | unixtime, .postgres => "bigint"
  | unixtime, .mysql => "BIGINT"
  | unixtime, .clickhouse => "Int64"
  | unixtime, _ => "INTEGER"

end ScalarKind

end EntityRest

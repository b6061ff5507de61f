import EntityRest.Text.Blank
import EntityRest.Text.Lowercase
import EntityRest.Text.Split

/-!
# SQL dialects

What differs between the databases served: quoting of identifiers, reading inside a JSON column,
placeholders, regular expressions, generated identifiers and pagination.
-/

namespace EntityRest

/-- A database whose SQL is written. -/
inductive Dialect where
  | postgres
  | mysql
  | sqlite
  | sqlserver
  | firebird
  | clickhouse
deriving DecidableEq

namespace Dialect

def all : List Dialect := [postgres, mysql, sqlite, sqlserver, firebird, clickhouse]

def name : Dialect → String
  | postgres => "postgres"
  | mysql => "mysql"
  | sqlite => "sqlite"
  | sqlserver => "sqlserver"
  | firebird => "firebird"
  | clickhouse => "clickhouse"

/-- The names by which a driver may be asked for. -/
def driverNames : List (String × Dialect) :=
  [("postgres", postgres), ("postgresql", postgres), ("pg", postgres), ("mysql", mysql),
    ("mariadb", mysql), ("sqlite", sqlite), ("sqlite3", sqlite), ("sqlserver", sqlserver),
    ("mssql", sqlserver), ("firebird", firebird), ("firebirdsql", firebird),
    ("clickhouse", clickhouse)]

/-- The dialect of a driver name; case and outer blanks do not matter. -/
def ofText? (s : String) : Option Dialect :=
  driverNames.lookup (String.ofList (Chars.lower (Chars.trim s.toList)))

/-- The character around an identifier. -/
def quoteChar : Dialect → Char
  | sqlite | mysql | clickhouse => '\x60'
  | postgres | sqlserver | firebird => '"'

/-- An identifier in quotes; a quote inside is written twice. -/
def quoteChars (d : Dialect) (ident : List Char) : List Char :=
  d.quoteChar :: Chars.double d.quoteChar ident ++ [d.quoteChar]

def quote (d : Dialect) (ident : String) : String := String.ofList (d.quoteChars ident.toList)

/-- A dotted path with each of its parts in quotes. -/
def quotePath (d : Dialect) (path : String) : String :=
  ".".intercalate ((Text.splitChar '.' path).map d.quote)

/-- A string literal's contents: each single quote is written twice. -/
def escapeLiteral (s : String) : String := String.ofList (Chars.double '\'' s.toList)

/-- The text at a path inside a JSON column whose SQL is given. -/
def quoteJson (d : Dialect) (column : String) (path : List String) : String :=
  let joined := "'$." ++ escapeLiteral (".".intercalate path) ++ "'"
  let keys := ",".intercalate (path.map fun p => "'" ++ escapeLiteral p ++ "'")
  match d with
  | sqlite | mysql => "JSON_EXTRACT(" ++ column ++ "," ++ joined ++ ")"
  | sqlserver | firebird => "JSON_VALUE(" ++ column ++ "," ++ joined ++ ")"
  | postgres => "json_extract_path_text(" ++ column ++ "::json," ++ keys ++ ")"
  | clickhouse => "JSONExtractString(" ++ column ++ "," ++ keys ++ ")"

/-- The placeholder of the `n`-th parameter, counted from one. -/
def placeholder (d : Dialect) (n : Nat) : String :=
  match d with
  | postgres => "$" ++ toString n
  | sqlserver => "@p" ++ toString n
  | mysql | sqlite | firebird | clickhouse => "?"

/-- An expression that makes a new identifier, for the default of a column. -/
def uuidDefault : Dialect → String
  | postgres => "gen_random_uuid()"
  | mysql => "(UUID())"
  | sqlite =>
    "(lower(hex(randomblob(4))) || '-' || lower(hex(randomblob(2))) || '-4' || " ++
      "substr(lower(hex(randomblob(2))),2) || '-' || " ++
      "substr('89ab',abs(random()) % 4 + 1, 1) || substr(lower(hex(randomblob(2))),2) || '-' || " ++
      "lower(hex(randomblob(6))))"
  | sqlserver => "NEWID()"
  | firebird => "UUID_TO_CHAR(GEN_UUID())"
  | clickhouse => "generateUUIDv4()"

/-- The SQL before, between and after the two sides of a regular-expression match, where the
dialect has one. -/
def regexpParts? (d : Dialect) (negated : Bool) : Option (String × String × String) :=
  match d with
  | postgres => some ("", if negated then " !~ " else " ~ ", "")
  | mysql | sqlite => some ("", if negated then " NOT REGEXP " else " REGEXP ", "")
  | firebird => some ("", if negated then " NOT SIMILAR TO " else " SIMILAR TO ", "")
  | clickhouse => some (if negated then "NOT match(" else "match(", ",", ")")
  | sqlserver => none

def regexp? (d : Dialect) (column pattern : String) (negated : Bool) : Option String :=
  (d.regexpParts? negated).map fun (before, between, after) =>
    before ++ column ++ between ++ pattern ++ after

/-- The pagination suffix. Where rows can be skipped only in an order, one is made up if there is
none. -/
def limitOffset (d : Dialect) (limit : Option Nat) (offset : Nat) (ordered : Bool) : String :=
  let window (order : String) : String :=
    match limit with
    | none => ""
    | some n =>
      order ++ " OFFSET " ++ toString offset ++ " ROWS FETCH NEXT " ++ toString n ++ " ROWS ONLY"
  match d with
  | sqlserver => window (if ordered then "" else " ORDER BY (SELECT NULL)")
  | firebird => window ""
  | postgres | mysql | sqlite | clickhouse =>
    (match limit with
      | some n => " LIMIT " ++ toString n
      | none => "") ++
    (if offset > 0 then " OFFSET " ++ toString offset else "")

end Dialect

end EntityRest

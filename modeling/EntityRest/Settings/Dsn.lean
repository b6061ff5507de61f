import EntityRest.Settings.Basic
import EntityRest.Text.Quoted

/-!
# Reaching the database

The connection text that each driver expects, and the connect options for PostgreSQL.
-/

namespace EntityRest

/-- How a connection is secured. -/
inductive SslMode where
  | disable
  | allow
  | prefer
  | require
  | verifyCa
  | verifyFull
deriving DecidableEq

namespace SslMode

def names : List (String × SslMode) :=
  [("disable", disable), ("allow", allow), ("prefer", prefer), ("require", require),
    ("verify-ca", verifyCa), ("verify-full", verifyFull)]

/-- The mode of a name in any case. -/
def ofText? (s : String) : Option SslMode := names.lookup (Text.lowerAscii s)

end SslMode

structure ConnectOptions where
  host : String
  port : Nat
  username : String
  password : String
  database : String
  sslMode : SslMode
  options : String

namespace DatabaseSettings

/-- A byte in the query part of a connection text. -/
def escapeByte (b : UInt8) : List Char :=
  let c := Char.ofNat b.toNat
  if c.isAlphanum || c = '-' || c = '_' || c = '.' || c = '~' then [c]
  else if c = ' ' then ['+']
  else
    ['%', (Nat.digitChar (b.toNat / 16)).toUpper, (Nat.digitChar (b.toNat % 16)).toUpper]

/-- A text in the query part of a connection text. -/
def queryEscape (s : String) : String := String.ofList ((Utf8.encode s).flatMap escapeByte)

/-- The dialect of the configured driver. There is no default. -/
def dialect (s : DatabaseSettings) : Except SettingsError Dialect :=
  if Text.trim s.driver = "" then .error .missingDriver
  else
    match Dialect.ofText? s.driver with
    | some d => .ok d
    | none => .error (.unknownDriver s.driver)

/-- The connection text in the form that the driver expects. -/
def dsn (s : DatabaseSettings) : Except SettingsError String := do
  let port := toString s.port
  match ← s.dialect with
  | .mysql =>
    return s.user ++ ":" ++ s.password ++ "@tcp(" ++ s.host ++ ":" ++ port ++ ")/" ++ s.name ++
      "?parseTime=true&loc=" ++ queryEscape s.timezone
  | .postgres =>
    return "dbname=" ++ s.name ++ " host=" ++ s.host ++ " port=" ++ port ++ " user=" ++ s.user ++
      " password=" ++ s.password ++ " sslmode=" ++ s.sslMode ++ " TimeZone=" ++ s.timezone
  | .sqlserver =>
    return "sqlserver://" ++ s.user ++ ":" ++ s.password ++ "@" ++ s.host ++ ":" ++ port ++
      "?database=" ++ s.name
  | .firebird =>
    return s.user ++ ":" ++ s.password ++ "@" ++ s.host ++ ":" ++ port ++ "/" ++ s.name ++
      "?charset=" ++ s.charset
  | .clickhouse =>
    return "tcp://" ++ s.host ++ ":" ++ port ++ "?database=" ++ s.name ++ "&username=" ++ s.user ++
      "&password=" ++ s.password
  | .sqlite => return s.path

/-- The options of a PostgreSQL connection; refused for any other driver. -/
def connectOptions (s : DatabaseSettings) : Except SettingsError ConnectOptions := do
  if (← s.dialect) ≠ .postgres then throw (.unknownDriver s.driver)
  match SslMode.ofText? s.sslMode with
  | none =>
    throw (.invalid "DB_SSLMODE"
      ("error with configuration: unknown value " ++
        String.ofList (Chars.quoted s.sslMode.toList) ++ " for `ssl_mode`"))
  | some sslMode =>
    return {
      host := s.host
      port := s.port
      username := s.user
      password := s.password
      database := s.name
      sslMode
      options := "-c TimeZone=" ++ s.timezone }

end DatabaseSettings

end EntityRest

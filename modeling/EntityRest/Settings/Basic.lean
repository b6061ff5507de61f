import EntityRest.Query.Compile
import EntityRest.Settings.Env

/-!
# Settings

What a service can be configured with, and the variables that configure it.
-/

namespace EntityRest

structure DatabaseSettings where
  driver : String := ""
  host : String := "localhost"
  port : Nat := 5432
  user : String := ""
  password : String := ""
  name : String := ""
  sslMode : String := "disable"
  timezone : String := "UTC"
  charset : String := "UTF8"
  /-- The file of a database without a server. -/
  path : String := ""
  maxConnections : Nat := 10
  /-- Are tables of another version than their schemas rebuilt? -/
  migrate : Bool := false

/-- Whether and where responses are cached, and for how long. -/
structure CacheSettings where
  enabled : Bool := false
  /-- Where a shared cache is reached; the local one is used where this is empty. -/
  url : String := ""
  ttl : Duration := .ofSeconds 60

/-- How long a response is kept; a span of zero means until it is invalidated. -/
def CacheSettings.lifetime? (c : CacheSettings) : Option Duration :=
  if c.ttl.nanos = 0 then none else some c.ttl

structure ServerSettings where
  addr : String := "0.0.0.0:3000"
  bodyLimit : Nat := 2 * 1024 * 1024
  timeoutGet : Duration := .ofSeconds 30
  timeoutPost : Duration := .ofSeconds 30
  timeoutPut : Duration := .ofSeconds 30
  timeoutDelete : Duration := .ofSeconds 30
  entitiesDir : Option String := none

def ServerSettings.timeoutFor (s : ServerSettings) (method : String) : Duration :=
  match method with
  | "POST" => s.timeoutPost
  | "PUT" | "PATCH" => s.timeoutPut
  | "DELETE" => s.timeoutDelete
  | _ => s.timeoutGet

/-- Page sizes where none are set. -/
def QueryOptions.standard : QueryOptions := ⟨10, 100⟩

structure Settings where
  database : DatabaseSettings := {}
  cache : CacheSettings := {}
  query : QueryOptions := .standard
  server : ServerSettings := {}
  /-- The language of messages where a request names none. -/
  lang : String := "en"

namespace Settings

def readDatabase (env : Env) : Except SettingsError DatabaseSettings := do
  let d : DatabaseSettings := {}
  return {
    driver := ← env.get "DB_DRIVER" Env.string d.driver
    host := ← env.get "DB_HOST" Env.string d.host
    port := ← env.get "DB_PORT" (Env.nat 16) d.port
    user := ← env.get "DB_USER" Env.string d.user
    password := ← env.get "DB_PASSWORD" Env.string d.password
    name := ← env.get "DB_NAME" Env.string d.name
    sslMode := ← env.get "DB_SSLMODE" Env.string d.sslMode
    timezone := ← env.get "DB_TIMEZONE" Env.string d.timezone
    charset := ← env.get "DB_CHARSET" Env.string d.charset
    path := ← env.get "DB_PATH" Env.string d.path
    maxConnections := ← env.get "DB_MAX_CONNECTIONS" (Env.nat 32) d.maxConnections
    migrate := ← env.get "DB_MIGRATE" Env.bool d.migrate }

def readCache (env : Env) : Except SettingsError CacheSettings := do
  let c : CacheSettings := {}
  return {
    enabled := ← env.get "CACHE_ENABLED" Env.bool c.enabled
    url := ← env.get "CACHE_URL" Env.string c.url
    ttl := ← env.get "CACHE_TTL" Env.duration c.ttl }

def readQuery (env : Env) : Except SettingsError QueryOptions := do
  let o := QueryOptions.standard
  return {
    defaultPerPage := ← env.get "QUERY_DEFAULT_PER_PAGE" Env.uint64 o.defaultPerPage
    maxPerPage := ← env.get "QUERY_MAX_PER_PAGE" Env.uint64 o.maxPerPage }

def readServer (env : Env) : Except SettingsError ServerSettings := do
  let s : ServerSettings := {}
  let addr ← env.get "APP_ADDR" Env.string s.addr
  let bodyLimit ← env.get "APP_BODY_LIMIT" (Env.nat 64) s.bodyLimit
  let timeoutGet ← env.get "APP_TIMEOUT_GET" Env.duration s.timeoutGet
  let timeoutPost ← env.get "APP_TIMEOUT_POST" Env.duration s.timeoutPost
  let timeoutPut ← env.get "APP_TIMEOUT_PUT" Env.duration s.timeoutPut
  let timeoutDelete ← env.get "APP_TIMEOUT_DELETE" Env.duration s.timeoutDelete
  let dir ← env.get "APP_ENTITIES_DIR" Env.string ""
  return {
    addr, bodyLimit, timeoutGet, timeoutPost, timeoutPut, timeoutDelete
    entitiesDir := if dir = "" then none else some dir }

/-- Reads all settings. The first variable with a wrong value decides the error. -/
def ofEnv (env : Env) : Except SettingsError Settings := do
  let database ← readDatabase env
  let cache ← readCache env
  let query ← readQuery env
  let server ← readServer env
  let lang ← env.get "APP_LANG" Env.string "en"
  return { database, cache, query, server, lang }

end Settings

end EntityRest

import EntityRest.Http.MediaType
import EntityRest.Json.Parser
import EntityRest.Query.Params
import EntityRest.Text.Percent

/-!
# Requests

A request and what is read out of it: the path and the parameters of its target, its headers, and
its body as JSON.
-/

namespace EntityRest

/-- A request. The target is a path, and parameters behind a question mark. A scheme and an
authority may stand before it. -/
structure Request where
  method : String
  target : String
  headers : List (String × String)
  body : String

namespace Request

def isSchemeChar (c : Char) : Bool := c.isAlphanum || c = '+' || c = '-' || c = '.'

/-- A target without its scheme and authority. The authority ends where a path, parameters or a
fragment start. -/
def localPart (target : List Char) : List Char :=
  match Chars.dropPrefix? [':', '/', '/'] (target.dropWhile isSchemeChar) with
  | some s => s.dropWhile fun c => c ≠ '/' && c ≠ '?' && c ≠ '#'
  | none => target

/-- A target that starts with its path is left alone. -/
theorem localPart_path (s : List Char) : localPart ('/' :: s) = '/' :: s := rfl

/-- The target from its path on, without a fragment. -/
def resource (r : Request) : String :=
  String.ofList ((localPart r.target.toList).takeWhile (· ≠ '#'))

def path (r : Request) : String :=
  match Text.cutFirst? "?" r.resource with
  | some (path, _) => path
  | none => r.resource

def params (r : Request) : Pairs :=
  match Text.cutFirst? "?" r.resource with
  | some (_, query) =>
    (splitPairs query).map fun (k, v) => (Percent.decodeForm k, Percent.decodeForm v)
  | none => []

/-- The first header of a name, which is given in lower case, if it has only visible characters of
ASCII, blanks and tabs. -/
def header? (r : Request) (name : String) : Option String :=
  match r.headers.find? fun h => Text.lowerAscii h.1 = name with
  | some (_, value) =>
    if value.toList.all fun c => (0x20 ≤ c.toNat && c.toNat < 0x7F) || c = '\t' then some value
    else none
  | none => none

/-- The document in the body, of at most `limit` bytes; else the status that refuses it. What
follows the document is ignored. -/
def json (r : Request) (limit : Nat) : Except Nat Json :=
  if !((r.header? "content-type").map MediaType.isJson).getD false then .error 415
  else if limit < r.body.utf8ByteSize then .error 413
  else
    match Json.readValue Json.maxDepth r.body.toList with
    | some (v, _) => .ok v
    | none => .error 400

end Request

end EntityRest

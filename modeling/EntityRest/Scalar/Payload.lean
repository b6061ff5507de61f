import EntityRest.Calendar.Reader
import EntityRest.Json.Parser
import EntityRest.Number.Integer
import EntityRest.Scalar.Kind
import EntityRest.Sql.Value

/-!
# Payloads

The values of each scalar kind, their JSON, text and driver forms, and the permissive readers of
those forms. Only a driver value is refused with a reason.
-/

namespace EntityRest

/-- A driver value that does not fit the kind asked for. -/
structure ScanError where
  target : ScalarKind
  found : String
deriving DecidableEq

def ScanError.message (e : ScanError) : String :=
  "cannot scan " ++ e.found ++ " into " ++ e.target.title

/-- The values of a kind. -/
abbrev Payload : ScalarKind → Type
  | .bool => Bool
  | .int => Int64
  | .float => Binary64
  | .string => String
  | .text => String
  | .timestamp => Timestamp
  | .date => Date
  | .time => TimeOfDay
  | .json => Json
  | .uuid => Uuid
  | .unixtime => Int64

/-- Floats as plain text: never an exponent, no zero after the point, and on a tie the upper
digit. -/
def Binary.plainStyle : FloatStyle := ⟨.up, fun _ => true, false⟩

def Binary.toText {F : BinaryFormat} (x : Binary F) : String :=
  String.ofList (Binary.plainStyle.render x)

/-- The truth value that a word stands for. -/
def readBool? (s : String) : Option Bool :=
  if s ∈ ["1", "t", "T", "true", "True", "TRUE"] then some true
  else if s ∈ ["0", "f", "F", "false", "False", "FALSE"] then some false
  else none

namespace Payload

def int64 : IntRange := .signed 64

/-- The integer that a float equals, where it lies inside the signed range. -/
def intOfBinary? (x : Binary64) : Option Int64 :=
  if x.isWhole && x.abs.lt (.ofInt int64.high) then
    some (Int64.ofInt (x.truncate int64.low int64.high))
  else none

/-- Reads seconds since the epoch: an integer, or an instant. -/
def readUnix? (s : List Char) : Option Int64 :=
  let s := Chars.trim s
  match readInt64? s with
  | some n => some n
  | none => (Timestamp.ofText? s).map fun t => Int64.ofInt t.toUnix

def ofText? : (k : ScalarKind) → String → Option (Payload k)
  | .bool, s => readBool? s
  | .int, s => readInt64? (Chars.trim s.toList)
  | .float, s => Binary.read? (Chars.trim s.toList)
  | .string, s => some s
  | .text, s => some s
  | .timestamp, s => Timestamp.ofText? s.toList
  | .date, s => Date.ofText? s.toList
  | .time, s => TimeOfDay.ofText? s.toList
  | .json, s => Json.ofText? s
  | .uuid, s => Uuid.ofText? (Chars.trim s.toList)
  | .unixtime, s => readUnix? s.toList

/-- The text of a scalar document: a string without quotes, a truth value or a number. -/
def stringOfJson? : Json → Option String
  | .string s => some s
  | v@(.bool _) | v@(.number _) => some v.render
  | _ => none

def ofJson? : (k : ScalarKind) → Json → Option (Payload k)
  | .bool, .bool b => some b
  | .bool, .string s => readBool? s
  | .bool, .number n =>
    match n.toInt64? with
    | some i => if i = 1 then some true else if i = 0 then some false else none
    | none => none
  | .int, .number n =>
    match n.toInt64? with
    | some i => some i
    | none => intOfBinary? n.toBinary
  | .int, .string s => ofText? .int s
  | .float, .number n => some n.toBinary
  | .float, .string s => ofText? .float s
  | .string, v => stringOfJson? v
  | .text, v => stringOfJson? v
  | .timestamp, .string s => ofText? .timestamp s
  | .date, .string s => ofText? .date s
  | .time, .string s => ofText? .time s
  | .json, .null => none
  | .json, v => some v
  | .uuid, .string s => ofText? .uuid s
  | .unixtime, .number n => n.toInt64?
  | .unixtime, .string s => ofText? .unixtime s
  | _, _ => none

def toText : (k : ScalarKind) → Payload k → String
  | .bool, b => if b then "true" else "false"
  | .int, n => toString n.toInt
  | .float, x => Binary.toText x
  | .string, s => s
  | .text, s => s
  | .timestamp, t => String.ofList (Timestamp.render t)
  | .date, d => String.ofList (Date.render d)
  | .time, t => String.ofList (TimeOfDay.render t)
  | .json, v => Json.render v
  | .uuid, u => String.ofList (Uuid.render u)
  | .unixtime, n => toString n.toInt

def toJson : (k : ScalarKind) → Payload k → Json
  | .bool, b => .bool b
  | .int, n => .ofInt64 n
  | .float, x => .ofBinary x
  | .string, s => .string s
  | .text, s => .string s
  | .timestamp, t => .string (toText .timestamp t)
  | .date, d => .string (toText .date d)
  | .time, t => .string (toText .time t)
  | .json, v => v
  | .uuid, u => .string (toText .uuid u)
  | .unixtime, n => .ofInt64 n

def toSql : (k : ScalarKind) → Payload k → SqlValue
  | .bool, b => .bool b
  | .int, n => .int n
  | .float, x => .float x
  | .string, s => .text s
  | .text, s => .text s
  | .timestamp, t => .timestamp t
  | .date, d => .date d
  | .time, t => .time t
  | .json, v => .json v
  | .uuid, u => .uuid u
  | .unixtime, n => .int n

/-- Reads a textual driver value by the text form of the kind. -/
def scanText (k : ScalarKind) (v : SqlValue) : Except ScanError (Payload k) :=
  let read : Option (Payload k) :=
    match v with
    | .text s => ofText? k s
    | .bytes bs => (Utf8.decode? bs).bind fun cs => ofText? k (String.ofList cs)
    | _ => none
  match read with
  | some p => .ok p
  | none => .error ⟨k, v.kind⟩

def stringOfSql : SqlValue → String
  | .text s => s
  | .json (.string s) => s
  | v => v.toText

def scan : (k : ScalarKind) → SqlValue → Except ScanError (Payload k)
  | .bool, .bool b => .ok b
  | .bool, .int n => .ok (n != 0)
  | .int, .int n => .ok n
  | .int, .float x =>
    if x.isWhole then .ok (Int64.ofInt (x.truncate int64.low int64.high))
    else scanText .int (.float x)
  | .float, .float x => .ok x
  | .float, .int n => .ok (.ofInt n.toInt)
  | .string, v => .ok (stringOfSql v)
  | .text, v => .ok (stringOfSql v)
  | .timestamp, .timestamp t => .ok t
  | .timestamp, .date d => .ok (Timestamp.ofDate d)
  | .timestamp, .int n =>
    match Timestamp.ofUnix? n.toInt 0 with
    | some t => .ok t
    | none => .error ⟨.timestamp, "int"⟩
  | .date, .date d => .ok d
  | .date, .timestamp t => .ok t.date
  | .time, .time t => .ok t
  | .time, .timestamp t => .ok t.time
  | .json, .json v => .ok v
  | .json, .text s => scanText .json (.text s)
  | .json, .bytes bs => scanText .json (.bytes bs)
  | .json, v => .ok v.toJson
  | .uuid, .uuid u => .ok u
  | .unixtime, .int n => .ok n
  | .unixtime, .timestamp t => .ok (Int64.ofInt t.toUnix)
  | k, v => scanText k v

/-- The payload that stands for an absent one. -/
def blank : (k : ScalarKind) → Payload k
  | .bool => false
  | .int => 0
  | .float => (.zero : Binary64)
  | .string => ""
  | .text => ""
  | .timestamp => Timestamp.epoch
  | .date => Date.epoch
  | .time => TimeOfDay.midnight
  | .json => Json.null
  | .uuid => Uuid.zero
  | .unixtime => 0

/-- Does a payload count as empty? Only the epoch does. -/
def isZero : (k : ScalarKind) → Payload k → Bool
  | .timestamp, t => Timestamp.toUnix t = 0 && t.time.nanos = 0
  | .unixtime, n => n = 0
  | _, _ => false

end Payload

end EntityRest

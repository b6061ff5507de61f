import EntityRest.Calendar.Timestamp
import EntityRest.Json.Object
import EntityRest.Json.Printer
import EntityRest.Text.Utf8
import EntityRest.Uuid

/-!
# Driver values

A value as it crosses the border to the database, in either direction.
-/

namespace EntityRest

/-- A value read from or bound into a statement. -/
inductive SqlValue where
  | null
  | bool (value : Bool)
  | int (value : Int64)
  | float (value : Binary64)
  | text (value : String)
  | bytes (value : List UInt8)
  | timestamp (value : Timestamp)
  | date (value : Date)
  | time (value : TimeOfDay)
  | json (value : Json)
  | uuid (value : Uuid)
deriving DecidableEq

namespace SqlValue

instance : Inhabited SqlValue := ⟨.null⟩

/-- The value of a document when no type is known: scalars become scalars, and an integer beyond
the signed range becomes a float. -/
def ofJson : Json → SqlValue
  | .null => .null
  | .bool b => .bool b
  | .number n =>
    match n.toInt64? with
    | some i => .int i
    | none => .float n.toBinary
  | .string s => .text s
  | v@(.array _) | v@(.object _) => .json v

def toJson : SqlValue → Json
  | .null => .null
  | .bool b => .bool b
  | .int n => .ofInt64 n
  | .float x => .ofBinary x
  | .text s => .string s
  | .bytes bs => .string (String.ofList (Utf8.decodeLossy bs))
  | .timestamp t => .string (String.ofList t.render)
  | .date d => .string (String.ofList d.render)
  | .time t => .string (String.ofList t.render)
  | .json v => v
  | .uuid u => .string (String.ofList u.render)

def isNull : SqlValue → Bool
  | .null => true
  | _ => false

def kind : SqlValue → String
  | .null => "null"
  | .bool _ => "bool"
  | .int _ => "int"
  | .float _ => "float"
  | .text _ => "text"
  | .bytes _ => "bytes"
  | .timestamp _ => "timestamp"
  | .date _ => "date"
  | .time _ => "time"
  | .json _ => "json"
  | .uuid _ => "uuid"

/-- The plain text of a value: nothing for NULL, a string without its quotes, else JSON text. -/
def toText (v : SqlValue) : String :=
  match v.toJson with
  | .string s => s
  | .null => ""
  | other => other.render

end SqlValue

end EntityRest

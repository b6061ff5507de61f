import EntityRest.Sql.Value

/-!
# Binary form of driver values

The type names and the big-endian bytes in which values are sent to PostgreSQL. Instants and dates
are counted from the year 2000.
-/

namespace EntityRest.SqlValue

/-- The type under which a value is bound. -/
def wireType : SqlValue → String
  | .null | .text _ => "TEXT"
  | .bool _ => "BOOL"
  | .int _ => "INT8"
  | .float _ => "FLOAT8"
  | .bytes _ => "BYTEA"
  | .timestamp _ => "TIMESTAMPTZ"
  | .date _ => "DATE"
  | .time _ => "TIME"
  | .json _ => "JSONB"
  | .uuid _ => "UUID"

/-- The last `n` bytes of a number in two's complement, the highest first. -/
def bigEndian : Nat → Int → List UInt8
  | 0, _ => []
  | n + 1, v => bigEndian n (v / 256) ++ [UInt8.ofNat (v % 256).toNat]

def wireEpoch : Timestamp := .ofDate ⟨2000, 1, 1, by decide⟩

/-- The bytes of a value; NULL has none. -/
def wireBytes? : SqlValue → Option (List UInt8)
  | .null => none
  | .bool b => some [if b then 1 else 0]
  | .int n => some (bigEndian 8 n.toInt)
  | .float x => some (bigEndian 8 x.word)
  | .text s => some (Utf8.encode s)
  | .bytes bs => some bs
  | .timestamp t => some (bigEndian 8 (Int.tdiv (wireEpoch.nanosSince t) 1000))
  | .date d => some (bigEndian 4 (d.toDays - wireEpoch.date.toDays))
  | .time t => some (bigEndian 8 (((t.seconds * TimeOfDay.second + t.nanos) / 1000 : Nat) : Int))
  | .json v => some (1 :: Utf8.encode v.render)
  | .uuid u => some (u.bytes.map UInt8.ofNat)

end EntityRest.SqlValue

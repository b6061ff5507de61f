import EntityRest.Number.Decimal

/-!
# JSON values

Documents keep the order of their entries. A number is either an integer that fits 64 bits, signed
or unsigned, or a finite double-precision number; the two kinds are never equal.
-/

namespace EntityRest

inductive JsonNumber where
  | int (value : Int) (bounds : -0x8000000000000000 ≤ value ∧ value < 0x10000000000000000)
  | float (value : Binary64) (finite : value.isFinite = true)
deriving DecidableEq

namespace JsonNumber

def ofInt64 (n : Int64) : JsonNumber :=
  .int n.toInt ⟨n.le_toInt, Int.lt_trans n.toInt_lt (by decide)⟩

def ofUInt64 (n : UInt64) : JsonNumber :=
  .int n.toNat ⟨by omega, by have := n.toNat_lt; omega⟩

/-- The integer itself where it fits 64 bits. -/
def ofInt? (n : Int) : Option JsonNumber :=
  if h : -0x8000000000000000 ≤ n ∧ n < 0x10000000000000000 then some (.int n h) else none

/-- The number of a finite float. -/
def ofBinary? (x : Binary64) : Option JsonNumber :=
  if h : x.isFinite = true then some (.float x h) else none

def toInt64? : JsonNumber → Option Int64
  | .int n _ => if n < 0x8000000000000000 then some (Int64.ofInt n) else none
  | .float .. => none

def toUInt64? : JsonNumber → Option UInt64
  | .int n _ => if 0 ≤ n then some (UInt64.ofNat n.toNat) else none
  | .float .. => none

/-- The value as a float; an integer is rounded. -/
def toBinary : JsonNumber → Binary64
  | .int n _ => .ofInt n
  | .float x _ => x

end JsonNumber

inductive Json where
  | null
  | bool (value : Bool)
  | number (value : JsonNumber)
  | string (value : String)
  | array (items : List Json)
  | object (entries : List (String × Json))

namespace Json

instance : Inhabited Json := ⟨.null⟩

def ofInt64 (n : Int64) : Json := .number (.ofInt64 n)

def ofUInt64 (n : UInt64) : Json := .number (.ofUInt64 n)

/-- The document of a float: `null` where it is not finite. -/
def ofBinary (x : Binary64) : Json :=
  match JsonNumber.ofBinary? x with
  | some n => .number n
  | none => .null

def isNull : Json → Bool
  | .null => true
  | _ => false

mutual

def decEq : (a b : Json) → Decidable (a = b)
  | .null, .null => isTrue rfl
  | .bool a, .bool b => decidable_of_iff (a = b) (by simp)
  | .number a, .number b => decidable_of_iff (a = b) (by simp)
  | .string a, .string b => decidable_of_iff (a = b) (by simp)
  | .array a, .array b =>
    match decEqItems a b with
    | isTrue h => isTrue (by rw [h])
    | isFalse h => isFalse (by simpa using h)
  | .object a, .object b =>
    match decEqEntries a b with
    | isTrue h => isTrue (by rw [h])
    | isFalse h => isFalse (by simpa using h)
  | .null, .bool _ | .null, .number _ | .null, .string _ | .null, .array _ | .null, .object _
  | .bool _, .null | .bool _, .number _ | .bool _, .string _ | .bool _, .array _
  | .bool _, .object _ | .number _, .null | .number _, .bool _ | .number _, .string _
  | .number _, .array _ | .number _, .object _ | .string _, .null | .string _, .bool _
  | .string _, .number _ | .string _, .array _ | .string _, .object _ | .array _, .null
  | .array _, .bool _ | .array _, .number _ | .array _, .string _ | .array _, .object _
  | .object _, .null | .object _, .bool _ | .object _, .number _ | .object _, .string _
  | .object _, .array _ => isFalse (by simp)

def decEqItems : (a b : List Json) → Decidable (a = b)
  | [], [] => isTrue rfl
  | x :: a, y :: b =>
    match decEq x y, decEqItems a b with
    | isTrue h, isTrue g => isTrue (by rw [h, g])
    | isFalse h, _ => isFalse (by simp [h])
    | _, isFalse g => isFalse (by simp [g])
  | [], _ :: _ | _ :: _, [] => isFalse (by simp)

def decEqEntries : (a b : List (String × Json)) → Decidable (a = b)
  | [], [] => isTrue rfl
  | (j, x) :: a, (k, y) :: b =>
    match decEq x y, decEqEntries a b with
    | isTrue h, isTrue g => decidable_of_iff (j = k) (by simp [h, g])
    | isFalse h, _ => isFalse (by simp [h])
    | _, isFalse g => isFalse (by simp [g])
  | [], _ :: _ | _ :: _, [] => isFalse (by simp)

end

instance : DecidableEq Json := decEq

end Json

end EntityRest

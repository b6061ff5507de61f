import EntityRest.Text.Utf8

/-!
# Percent encoding

Bytes written as a percent sign and two hexadecimal digits, in paths and in forms. A percent sign
without two digits after it stands for itself.
-/

namespace EntityRest.Percent

/-- The value of a hexadecimal digit, as a byte of ASCII. -/
def hexValue? (b : UInt8) : Option UInt8 :=
  if 48 ≤ b ∧ b ≤ 57 then some (b - 48)
  else if 97 ≤ b ∧ b ≤ 102 then some (b - 87)
  else if 65 ≤ b ∧ b ≤ 70 then some (b - 55)
  else none

/-- The byte that two hexadecimal digits write. -/
def byteOf? (high low : UInt8) : Option UInt8 :=
  match hexValue? high, hexValue? low with
  | some h, some l => some (h * 16 + l)
  | _, _ => none

def decode : List UInt8 → List UInt8
  | 37 :: h :: l :: bs =>
    match byteOf? h l with
    | some b => b :: decode bs
    | none => 37 :: decode (h :: l :: bs)
  | b :: bs => b :: decode bs
  | [] => []

/-- A segment of a path. It has to be well-formed once decoded. -/
def decodeSegment? (s : String) : Option String :=
  (Utf8.decode? (decode (Utf8.encode s))).map String.ofList

/-- A key or value of a form, in which a plus sign stands for a space. -/
def decodeForm (s : String) : String :=
  String.ofList (Utf8.decodeLossy (decode ((Utf8.encode s).map fun b => if b = 43 then 32 else b)))

end EntityRest.Percent

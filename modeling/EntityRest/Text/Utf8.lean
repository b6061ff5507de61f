/-!
# UTF-8

Decoding bytes to text. A strict reader refuses any malformed sequence; a lenient reader puts one
replacement character for each maximal part of a malformed sequence.
-/

namespace EntityRest.Utf8

/-- What a byte may start: the number of bytes that follow, and the bounds of the first of them. -/
def lead (b : Nat) : Option (Nat × Nat × Nat) :=
  if 0xC2 ≤ b ∧ b ≤ 0xDF then some (1, 0x80, 0xBF)
  else if b = 0xE0 then some (2, 0xA0, 0xBF)
  else if b = 0xED then some (2, 0x80, 0x9F)
  else if 0xE1 ≤ b ∧ b ≤ 0xEF then some (2, 0x80, 0xBF)
  else if b = 0xF0 then some (3, 0x90, 0xBF)
  else if 0xF1 ≤ b ∧ b ≤ 0xF3 then some (3, 0x80, 0xBF)
  else if b = 0xF4 then some (3, 0x80, 0x8F)
  else none

/-- The payload bits of a leading byte that is followed by `n` more. -/
def leadBits (n b : Nat) : Nat :=
  match n with
  | 1 => b % 0x20
  | 2 => b % 0x10
  | _ => b % 0x08

/-- Where a decoder stands: between characters, or with `owed` more bytes of a character whose
bits so far are `bits`, the next one between `low` and `high`. -/
inductive State where
  | start
  | within (owed bits low high : Nat)

/-- Decodes bytes one by one. `none` stands for one malformed part. -/
def decodeFrom : State → List UInt8 → List (Option Char)
  | .start, [] => []
  | .within .., [] => [none]
  | .start, b :: bs =>
    if b.toNat < 0x80 then some (Char.ofNat b.toNat) :: decodeFrom .start bs
    else
      match lead b.toNat with
      | some (n, low, high) => decodeFrom (.within n (leadBits n b.toNat) low high) bs
      | none => none :: decodeFrom .start bs
  | .within owed bits low high, b :: bs =>
    if low ≤ b.toNat ∧ b.toNat ≤ high then
      let bits := bits * 64 + b.toNat % 64
      if owed ≤ 1 then some (Char.ofNat bits) :: decodeFrom .start bs
      else decodeFrom (.within (owed - 1) bits 0x80 0xBF) bs
    else if b.toNat < 0x80 then none :: some (Char.ofNat b.toNat) :: decodeFrom .start bs
    else
      match lead b.toNat with
      | some (n, low, high) => none :: decodeFrom (.within n (leadBits n b.toNat) low high) bs
      | none => none :: none :: decodeFrom .start bs

/-- The text of well-formed bytes. -/
def decode? (bs : List UInt8) : Option (List Char) := (decodeFrom .start bs).mapM id

/-- The text of any bytes, with U+FFFD for each malformed part. -/
def decodeLossy (bs : List UInt8) : List Char :=
  (decodeFrom .start bs).map fun c => c.getD (Char.ofNat 0xFFFD)

def encode (s : String) : List UInt8 := s.toUTF8.toList

end EntityRest.Utf8

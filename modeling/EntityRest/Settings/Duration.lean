import EntityRest.Number.Decimal

/-!
# Durations

Durations as text: numbers with units one after the other, such as `1h30m`.
-/

namespace EntityRest

/-- A span of time, in nanoseconds. -/
structure Duration where
  nanos : UInt64
deriving DecidableEq

namespace Duration

def ofSeconds (n : Nat) : Duration := ⟨UInt64.ofNat (n * 1000000000)⟩

/-- The units with their lengths in nanoseconds. -/
def units : List (List Char × Nat) :=
  [(['n', 's'], 1), (['u', 's'], 1000), (['µ', 's'], 1000), (['μ', 's'], 1000),
    (['m', 's'], 1000000), (['s'], 1000000000), (['m'], 60000000000), (['h'], 3600000000000)]

/-- A character of a number: a digit or a point. -/
def isNumberChar (c : Char) : Bool := Decimal.isDigit c || c = '.'

/-- Reads terms, each a number and a unit, and adds them up. Every term takes a character at least,
so as many terms as characters are enough. -/
def readTerms : Nat → Binary64 → List Char → Option Binary64
  | _, total, [] => some total
  | 0, _, _ :: _ => none
  | fuel + 1, total, s =>
    let number := s.takeWhile isNumberChar
    let rest := s.dropWhile isNumberChar
    let unit := rest.takeWhile fun c => !isNumberChar c
    let after := rest.dropWhile fun c => !isNumberChar c
    match (Binary.read? number : Option Binary64), units.lookup unit with
    | some n, some scale => readTerms fuel (total.add (n.mul (.ofInt scale))) after
    | _, _ => none

/-- Reads a duration: zero, or terms after an optional plus sign. The sum is rounded to whole
nanoseconds and held within 64 bits. -/
def ofText? (s : List Char) : Option Duration :=
  if s = ['0'] then some ⟨0⟩
  else if s.isEmpty then none
  else
    let terms :=
      match s with
      | '+' :: t => t
      | t => t
    (readTerms terms.length .zero terms).map fun total =>
      ⟨UInt64.ofNat (total.roundNat (UInt64.size - 1))⟩

end Duration

end EntityRest

/-!
# Binary floating-point numbers

A finite magnitude is its rank among the magnitudes of its format: rank 0 is zero, and the next
rank is the next larger number. The exact value of a rank is a natural number of units, the unit
being the smallest positive number, so that every operation is computed exactly and rounded once.
-/

namespace EntityRest

/-- A binary format: `fraction` bits below the leading one, `bands` ranges of equal spacing, and
`2 ^ -unit` as its smallest positive number. -/
structure BinaryFormat where
  fraction : Nat
  bands : Nat
  unit : Nat

namespace BinaryFormat

def double : BinaryFormat := ⟨52, 2047, 1074⟩

def single : BinaryFormat := ⟨23, 255, 149⟩

/-- The number of finite magnitudes, and so the rank that stands for infinity. -/
def limit (F : BinaryFormat) : Nat := F.bands * Nat.pow 2 F.fraction

/-- The exact value of a rank, in units. -/
def units (F : BinaryFormat) (rank : Nat) : Nat :=
  let band := Nat.pow 2 F.fraction
  if rank < band then rank else (band + rank % band) * Nat.pow 2 (rank / band - 1)

end BinaryFormat

/-- The whole number nearest to `num / den`; halfway goes to the even neighbour. -/
def roundDiv (num den : Nat) : Nat :=
  let q := num / den
  let r := num % den
  if 2 * r < den then q else if den < 2 * r then q + 1 else q + q % 2

/-- A number of a binary format. Zero has a sign, and so has the undefined number. -/
inductive Binary (F : BinaryFormat) where
  | nan (negative : Bool)
  | inf (negative : Bool)
  | finite (negative : Bool) (rank : Fin F.limit)
deriving DecidableEq

abbrev Binary64 := Binary BinaryFormat.double

abbrev Binary32 := Binary BinaryFormat.single

namespace Binary

variable {F : BinaryFormat}

/-- The magnitude of the given rank, or infinity when the format has no such rank. -/
def ofRank (negative : Bool) (rank : Nat) : Binary F :=
  if h : rank < F.limit then .finite negative ⟨rank, h⟩ else .inf negative

/-- The rank nearest to `num / den`; halfway goes to the even rank. -/
def rankOfRatio (F : BinaryFormat) (num den : Nat) : Nat :=
  let w := num * Nat.pow 2 F.unit
  let shift := (w / den).log2 - F.fraction
  shift * Nat.pow 2 F.fraction + roundDiv w (den * Nat.pow 2 shift)

/-- The number nearest to `± num / den`, for `den` not zero. -/
def ofRatio (negative : Bool) (num den : Nat) : Binary F :=
  ofRank negative (rankOfRatio F num den)

def ofInt (n : Int) : Binary F := ofRatio (n < 0) n.natAbs 1

def zero : Binary F := ofInt 0

instance : Inhabited (Binary F) := ⟨zero⟩

def isUndefined : Binary F → Bool
  | .nan _ => true
  | _ => false

/-- Is the number neither infinite nor undefined? -/
def isFinite : Binary F → Bool
  | .finite .. => true
  | _ => false

/-- The exact value of a finite number, in units. -/
def units? : Binary F → Option Int
  | .finite negative rank =>
    let n : Int := F.units rank
    some (if negative then -n else n)
  | _ => none

/-- The place of a number in the order of its format; the two zeros share one. -/
def place? : Binary F → Option Int
  | .nan _ => none
  | .inf negative => some (if negative then -F.limit else F.limit)
  | .finite negative rank => some (if negative then -rank.val else rank.val)

/-- Equality of values: the two zeros are equal, and nothing equals an undefined number. -/
def eqv (x y : Binary F) : Bool :=
  match x.place?, y.place? with
  | some a, some b => a = b
  | _, _ => false

/-- Strict order of values. -/
def lt (x y : Binary F) : Bool :=
  match x.place?, y.place? with
  | some a, some b => a < b
  | _, _ => false

/-- Has the number no part after the point? Infinite and undefined numbers have no such part
to speak of and are not whole. -/
def isWhole (x : Binary F) : Bool :=
  match x.units? with
  | some n => n % (Nat.pow 2 F.unit : Nat) = 0
  | none => false

/-- The whole part of a number, rounded toward zero and held within the bounds; zero for an
undefined number. -/
def truncate (low high : Int) : Binary F → Int
  | .nan _ => 0
  | .inf negative => if negative then low else high
  | .finite negative rank =>
    let n : Int := (F.units rank / Nat.pow 2 F.unit : Nat)
    max low (min high (if negative then -n else n))

def abs : Binary F → Binary F
  | .nan _ => .nan false
  | .inf _ => .inf false
  | .finite _ rank => .finite false rank

def neg : Binary F → Binary F
  | .nan negative => .nan !negative
  | .inf negative => .inf !negative
  | .finite negative rank => .finite (!negative) rank

def isNegative : Binary F → Bool
  | .nan negative => negative
  | .inf negative => negative
  | .finite negative _ => negative

/-- The product, rounded. An undefined factor is the result. -/
def mul : Binary F → Binary F → Binary F
  | .finite s a, .finite t b =>
    ofRatio (s != t) (F.units a * F.units b) (Nat.pow 2 (2 * F.unit))
  | .nan s, _ | _, .nan s => .nan s
  | .inf s, .finite t b | .finite s b, .inf t => if b.val = 0 then .nan false else .inf (s != t)
  | .inf s, .inf t => .inf (s != t)

/-- The sum, rounded. A sum of zero is negative only where both numbers are. An undefined summand
is the result. -/
def add : Binary F → Binary F → Binary F
  | .finite s a, .finite t b =>
    let x : Int := if s then -F.units a else F.units a
    let y : Int := if t then -F.units b else F.units b
    if x + y = 0 then ofRank (s && t) 0 else ofRatio (x + y < 0) (x + y).natAbs (Nat.pow 2 F.unit)
  | .nan s, _ | _, .nan s => .nan s
  | .inf s, .finite .. | .finite .., .inf s => .inf s
  | .inf s, .inf t => if s = t then .inf s else .nan false

/-- The whole number nearest to a number, a half going away from zero, held between zero and the
bound; zero for an undefined number. -/
def roundNat (bound : Nat) : Binary F → Nat
  | .nan _ => 0
  | .inf negative => if negative then 0 else bound
  | .finite negative rank =>
    if negative then 0
    else min bound ((2 * F.units rank + Nat.pow 2 F.unit) / (2 * Nat.pow 2 F.unit))

/-- The quotient, rounded. An undefined operand is the result. -/
def div : Binary F → Binary F → Binary F
  | .finite s a, .finite t b =>
    if b.val = 0 then (if a.val = 0 then .nan false else .inf (s != t))
    else ofRatio (s != t) (F.units a) (F.units b)
  | .nan s, _ | _, .nan s => .nan s
  | .inf s, .finite t _ => .inf (s != t)
  | .finite s _, .inf t => ofRank (s != t) 0
  | .inf _, .inf _ => .nan false

/-- The highest bit of a word, which is set for a minus. -/
def signBit (F : BinaryFormat) (negative : Bool) : Nat :=
  if negative then (F.bands + 1) * Nat.pow 2 F.fraction else 0

/-- The word of a number: sign, exponent and fraction, from the highest bit down. -/
def word : Binary F → Nat
  | .nan negative => F.limit + Nat.pow 2 (F.fraction - 1) + signBit F negative
  | .inf negative => F.limit + signBit F negative
  | .finite negative rank => rank + signBit F negative

end Binary

end EntityRest

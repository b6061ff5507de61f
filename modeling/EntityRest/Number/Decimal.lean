import EntityRest.Number.Binary

/-!
# Decimal form of binary numbers

The fewest decimal digits that read back as a given magnitude, the styles in which they are laid
out, and the reading of decimal text.
-/

namespace EntityRest

/-- The number `digits * 10 ^ exponent`. -/
structure Decimal where
  digits : Nat
  exponent : Int
deriving DecidableEq

namespace Decimal

/-- The decimal as a fraction of naturals. -/
def ratio (d : Decimal) : Nat × Nat :=
  (d.digits * Nat.pow 10 d.exponent.toNat, Nat.pow 10 (-d.exponent).toNat)

/-- Drops trailing zeros of the digits, at most `fuel` of them. -/
def trimZeros : Nat → Decimal → Decimal
  | 0, d => d
  | fuel + 1, d =>
    if d.digits ≠ 0 ∧ d.digits % 10 = 0 then trimZeros fuel ⟨d.digits / 10, d.exponent + 1⟩ else d

/-- Which of two equally near decimals is taken. -/
inductive Tie where
  | even
  | up

end Decimal

namespace BinaryFormat

/-- The least `j ≥ start` with `num * 10 ^ j ≥ den`, looked for in `fuel` steps. -/
def firstPower (num den : Nat) : Nat → Nat → Nat
  | 0, j => j
  | fuel + 1, j => if den ≤ num * Nat.pow 10 j then j else firstPower num den fuel (j + 1)

/-- The exponent of the leading decimal digit of `num / den`, neither being zero. -/
def leadingExponent (num den : Nat) : Int :=
  if den ≤ num then ((Nat.toDigits 10 (num / den)).length : Int) - 1
  else -(firstPower num den 8 ((den / num).log2 * 30103 / 100000) : Int)

/-- The shorter neighbour on the grid of `n`-digit decimals that reads back as the rank, the nearer
one if both do. Bounds are in half units. -/
def onGrid? (F : BinaryFormat) (tie : Decimal.Tie) (rank n : Nat) (lead : Int) : Option Decimal :=
  let v := 2 * F.units rank
  let low := F.units (rank - 1) + F.units rank
  let high := F.units rank + F.units (rank + 1)
  let exponent := lead - n + 1
  -- One step of the grid is `step / scale` half units.
  let step := Nat.pow 10 exponent.toNat * Nat.pow 2 (F.unit + 1)
  let scale := Nat.pow 10 (-exponent).toNat
  let reads (d : Nat) : Bool :=
    let x := d * step
    if rank % 2 = 0 then low * scale ≤ x && x ≤ high * scale
    else low * scale < x && x < high * scale
  let d := v * scale / step
  let rest := v * scale % step
  match reads d, reads (d + 1) with
  | false, false => none
  | true, false => some ⟨d, exponent⟩
  | false, true => some ⟨d + 1, exponent⟩
  | true, true =>
    let upper := step < 2 * rest ||
      (2 * rest = step && (match tie with | .even => d % 2 = 1 | .up => true))
    some ⟨if upper then d + 1 else d, exponent⟩

/-- Tries grids of `n`, `n + 1`, … digits. -/
def shortestFrom (F : BinaryFormat) (tie : Decimal.Tie) (rank : Nat) (lead : Int) :
    Nat → Nat → Decimal
  | 0, n => (F.onGrid? tie rank n lead).getD ⟨0, 0⟩
  | fuel + 1, n =>
    match F.onGrid? tie rank n lead with
    | some d => d
    | none => shortestFrom F tie rank lead fuel (n + 1)

/-- The decimal of fewest digits that rounds to the rank, and the nearest of those. Seventeen
digits are enough for every format in use. -/
def shortest (F : BinaryFormat) (tie : Decimal.Tie) (rank : Nat) : Decimal :=
  if rank = 0 then ⟨0, 0⟩
  else
    Decimal.trimZeros 17
      (shortestFrom F tie rank (leadingExponent (F.units rank) (Nat.pow 2 F.unit)) 16 1)

end BinaryFormat

/-- How the digits of a number are laid out. -/
structure FloatStyle where
  /-- Which of two equally near decimals is written. -/
  tie : Decimal.Tie
  /-- Is a number whose leading digit has this exponent written without an exponent? -/
  positional : Int → Bool
  /-- Is a whole number written with one zero after the point? -/
  pointZero : Bool

namespace FloatStyle

/-- Digits `ds` with the leading one at exponent `lead`, written without an exponent. -/
def layPositional (style : FloatStyle) (ds : List Char) (lead : Int) : List Char :=
  if lead < 0 then '0' :: '.' :: (List.replicate (-lead - 1).toNat '0' ++ ds)
  else
    let whole := lead.toNat + 1
    let padded := ds ++ List.replicate (whole - ds.length) '0'
    match padded.drop whole with
    | [] => padded ++ (if style.pointZero then ['.', '0'] else [])
    | rest => padded.take whole ++ '.' :: rest

/-- Digits `ds` with the leading one at exponent `lead`, written with an exponent. -/
def layScientific (ds : List Char) (lead : Int) : List Char :=
  let mantissa :=
    match ds with
    | d :: [] => [d]
    | d :: rest => d :: '.' :: rest
    | [] => []
  mantissa ++ 'e' :: (if lead < 0 then '-' else '+') :: Nat.toDigits 10 lead.natAbs

/-- The text of a number. The sign of the undefined number is not shown. -/
def render {F : BinaryFormat} (style : FloatStyle) : Binary F → List Char
  | .nan _ => ['N', 'a', 'N']
  | .inf negative => (if negative then ['-'] else []) ++ ['i', 'n', 'f']
  | .finite negative rank =>
    let d := F.shortest style.tie rank
    let ds := Nat.toDigits 10 d.digits
    let lead := d.exponent + ds.length - 1
    (if negative then ['-'] else []) ++
      (if style.positional lead then style.layPositional ds lead else layScientific ds lead)

end FloatStyle

namespace Decimal

/-- Is the character an ASCII digit? -/
def isDigit (c : Char) : Bool := '0' ≤ c && c ≤ '9'

def digitValue (c : Char) : Nat := c.toNat - 48

def ofDigits (cs : List Char) : Nat := cs.foldl (fun n c => n * 10 + digitValue c) 0

/-- Splits a sign off a text: is it a minus, and what follows. -/
def splitSign : List Char → Bool × List Char
  | '-' :: s => (true, s)
  | '+' :: s => (false, s)
  | s => (false, s)

/-- An exponent part: a mark `e` or `E`, an optional sign and one or more digits; or nothing. -/
def exponent? : List Char → Option Int
  | [] => some 0
  | c :: s =>
    if c = 'e' ∨ c = 'E' then
      let (negative, ds) := splitSign s
      if ds.isEmpty || !ds.all isDigit then none
      else some (if negative then -(ofDigits ds : Int) else ofDigits ds)
    else none

/-- Decimal text without a sign: digits around an optional point, at least one of them, and an
optional exponent. -/
def ofText? (s : List Char) : Option Decimal :=
  let whole := s.takeWhile isDigit
  let (part, rest) :=
    match s.dropWhile isDigit with
    | '.' :: r => (r.takeWhile isDigit, r.dropWhile isDigit)
    | r => ([], r)
  if whole.isEmpty && part.isEmpty then none
  else (exponent? rest).map fun e => ⟨ofDigits (whole ++ part), e - part.length⟩

/-- The number nearest to a decimal. Exponents far outside every format are cut short. -/
def toBinary {F : BinaryFormat} (negative : Bool) (d : Decimal) : Binary F :=
  if d.digits = 0 then .ofRank negative 0
  else
    let size : Int := (Nat.toDigits 10 d.digits).length + d.exponent
    if size > 400 then .inf negative
    else if size < -400 then .ofRank negative 0
    else .ofRatio negative d.ratio.1 d.ratio.2

end Decimal

/-- Why a text is no floating-point number. -/
inductive FloatError where
  | empty
  | invalid
deriving DecidableEq

def FloatError.message : FloatError → String
  | .empty => "cannot parse float from empty string"
  | .invalid => "invalid float literal"

namespace Binary

/-- Reads a number: an optional sign, then `inf`, `infinity` or `nan` in any case, or decimal text.
A number too large for the format reads as infinite. -/
def read {F : BinaryFormat} (s : List Char) : Except FloatError (Binary F) :=
  if s.isEmpty then .error .empty
  else
    let (negative, t) := Decimal.splitSign s
    let word := t.map Char.toLower
    if word = ['i', 'n', 'f'] ∨ word = ['i', 'n', 'f', 'i', 'n', 'i', 't', 'y'] then
      .ok (.inf negative)
    else if word = ['n', 'a', 'n'] then .ok (.nan negative)
    else
      match Decimal.ofText? t with
      | some d => .ok (d.toBinary negative)
      | none => .error .invalid

/-- The number that a text writes, if it writes one. -/
def read? {F : BinaryFormat} (s : List Char) : Option (Binary F) := (read s).toOption

end Binary

end EntityRest

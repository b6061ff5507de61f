import EntityRest.Number.Decimal

/-!
# Reading bounded integers

An optional sign and ASCII digits. The first character that is no digit, or the first digit that
leaves the bounds, decides the error.
-/

namespace EntityRest

/-- Why a text is no integer of a type. -/
inductive IntError where
  | empty
  | invalidDigit
  | tooLarge
  | tooSmall
deriving DecidableEq

def IntError.message : IntError → String
  | .empty => "cannot parse integer from empty string"
  | .invalidDigit => "invalid digit found in string"
  | .tooLarge => "number too large to fit in target type"
  | .tooSmall => "number too small to fit in target type"

structure IntRange where
  low : Int
  high : Int

namespace IntRange

def signed (bits : Nat) : IntRange := ⟨-Nat.pow 2 (bits - 1), Nat.pow 2 (bits - 1) - 1⟩

def unsigned (bits : Nat) : IntRange := ⟨0, Nat.pow 2 bits - 1⟩

/-- Reads digits after `n`, counting up to `high` or, below zero, down to `low`. -/
def readDigits (range : IntRange) (negative : Bool) (n : Int) : List Char → Except IntError Int
  | [] => .ok n
  | c :: s =>
    if Decimal.isDigit c then
      let d : Int := Decimal.digitValue c
      let m := if negative then n * 10 - d else n * 10 + d
      if m < range.low then .error .tooSmall
      else if range.high < m then .error .tooLarge
      else readDigits range negative m s
    else .error .invalidDigit

/-- Reads an integer of the range. A minus sign is read only where the range goes below zero. -/
def read (range : IntRange) (s : List Char) : Except IntError Int :=
  match s with
  | [] => .error .empty
  | ['+'] | ['-'] => .error .invalidDigit
  | '+' :: t => range.readDigits false 0 t
  | '-' :: t => if range.low < 0 then range.readDigits true 0 t else .error .invalidDigit
  | t => range.readDigits false 0 t

end IntRange

def readInt64? (s : List Char) : Option Int64 :=
  match (IntRange.signed 64).read s with
  | .ok n => some (Int64.ofInt n)
  | .error _ => none

end EntityRest

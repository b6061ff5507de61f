import EntityRest.Scalar.Payload
import EntityRest.Text.Split

/-!
# Complex numbers

Complex numbers as text, such as `1+2i`.
-/

namespace EntityRest

structure Complex where
  re : Binary64
  im : Binary64
deriving DecidableEq

namespace Complex

/-- Reads a factor of the imaginary unit; a sign or nothing stands for one. -/
def readFactor? (s : List Char) : Option Binary64 :=
  if s = [] ∨ s = ['+'] then some (.ofInt 1)
  else if s = ['-'] then some (.ofInt (-1))
  else Binary.read? s

/-- Cuts a text before its last sign that is neither its first character nor the sign of an
exponent. -/
def cutSign? : List Char → Option (List Char × List Char)
  | a :: b :: s =>
    match cutSign? (b :: s) with
    | some (l, r) => some (a :: l, r)
    | none => if (b = '+' || b = '-') && a ≠ 'e' && a ≠ 'E' then some ([a], b :: s) else none
  | _ => none

/-- Reads a complex number, in parentheses or not. -/
def ofText? (s : List Char) : Option Complex :=
  let inner := ((Chars.dropPrefix? ['('] s).bind (Chars.dropSuffix? [')'])).getD s
  match Chars.dropSuffix? ['i'] inner with
  | none => (Binary.read? inner).map fun re => ⟨re, .zero⟩
  | some body =>
    match cutSign? body with
    | some (l, r) => do return ⟨← Binary.read? l, ← readFactor? r⟩
    | none => (readFactor? body).map fun im => ⟨.zero, im⟩

/-- The text of a number with its sign, which is not shown for an undefined number. -/
def signed (x : Binary64) : String :=
  if x.isUndefined || x.isNegative then x.toText else "+" ++ x.toText

def render (z : Complex) : String := "(" ++ z.re.toText ++ signed z.im ++ "i)"

end Complex

end EntityRest

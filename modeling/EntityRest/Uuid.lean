/-!
# Universally unique identifiers

Thirty-two hexadecimal digits. They are read bare or with hyphens, the latter also in braces or
behind a resource-name mark, and written in lower case with hyphens.
-/

namespace EntityRest

/-- An identifier of 128 bits, as hexadecimal digits. -/
structure Uuid where
  digits : List (Fin 16)
  length_eq : digits.length = 32
deriving DecidableEq

namespace Uuid

def zero : Uuid := ⟨List.replicate 32 0, by decide⟩

instance : Inhabited Uuid := ⟨zero⟩

def digit? (c : Char) : Option (Fin 16) :=
  if h : '0' ≤ c ∧ c ≤ '9' then
    some ⟨c.toNat - 48, by have : c.toNat ≤ 57 := h.2; omega⟩
  else if h : 'a' ≤ c ∧ c ≤ 'f' then
    some ⟨c.toNat - 87, by have : c.toNat ≤ 102 := h.2; omega⟩
  else if h : 'A' ≤ c ∧ c ≤ 'F' then
    some ⟨c.toNat - 55, by have : c.toNat ≤ 70 := h.2; omega⟩
  else none

def digitChar (d : Fin 16) : Char := Nat.digitChar d.val

def ofDigits? (s : List Char) : Option Uuid :=
  match s.mapM digit? with
  | some ds => if h : ds.length = 32 then some ⟨ds, h⟩ else none
  | none => none

/-- The lengths of the groups between hyphens. -/
def groups : List Nat := [8, 4, 4, 4, 12]

/-- Takes groups of the given lengths with hyphens between them out of a whole text. -/
def ungroup? : List Nat → List Char → Option (List Char)
  | [], _ => none
  | [n], s => if s.length = n then some s else none
  | n :: ns, s =>
    match s.drop n with
    | '-' :: r => (ungroup? ns r).map fun t => s.take n ++ t
    | _ => none

/-- Puts hyphens between groups of the given lengths. -/
def group : List Nat → List Char → List Char
  | [], s => s
  | [_], s => s
  | n :: ns, s => s.take n ++ '-' :: group ns (s.drop n)

def ofGroups? (s : List Char) : Option Uuid := (ungroup? groups s).bind ofDigits?

/-- The mark of a resource name, in lower case. -/
def urnMark : List Char := "urn:uuid:".toList

/-- Reads an identifier in any of its forms. The case of letters does not matter. -/
def ofText? (s : List Char) : Option Uuid :=
  if s.length = 32 then ofDigits? s
  else if s.length = 36 then ofGroups? s
  else if s.length = 38 then
    match s with
    | '\x7b' :: t => if t.getLast? = some '\x7d' then ofGroups? t.dropLast else none
    | _ => none
  else
    if (s.take 9).map Char.toLower = urnMark then ofGroups? (s.drop 9) else none

/-- Lower-case digits with hyphens. -/
def render (u : Uuid) : List Char := group groups (u.digits.map digitChar)

def bytes (u : Uuid) : List Nat :=
  (List.range 16).map fun i =>
    (u.digits.getD (2 * i) 0).val * 16 + (u.digits.getD (2 * i + 1) 0).val

end Uuid

end EntityRest

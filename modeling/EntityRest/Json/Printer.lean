import EntityRest.Json.Basic

/-!
# Writing JSON text

Compact text: no blanks, entries in order, and only the characters escaped that have to be.
-/

namespace EntityRest

/-- Floats in JSON text: the even digit on a tie, positional from `0.00001` up to below `1e16`, and
a whole number keeps one zero after the point. -/
def JsonNumber.style : FloatStyle := ⟨.even, fun lead => -5 ≤ lead && lead < 16, true⟩

def JsonNumber.render : JsonNumber → List Char
  | .int n _ => (if n < 0 then ['-'] else []) ++ Nat.toDigits 10 n.natAbs
  | .float x _ => JsonNumber.style.render x

namespace Json

/-- A digit of a lower-case hexadecimal number. -/
def hexChar (n : Nat) : Char := Nat.digitChar (n % 16)

/-- A character inside a string. -/
def escapeChar (c : Char) : List Char :=
  match c with
  | '"' => ['\\', '"']
  | '\\' => ['\\', '\\']
  | '\n' => ['\\', 'n']
  | '\r' => ['\\', 'r']
  | '\t' => ['\\', 't']
  | c =>
    let n := c.toNat
    if n = 8 then ['\\', 'b']
    else if n = 12 then ['\\', 'f']
    else if n < 32 then ['\\', 'u', '0', '0', hexChar (n / 16), hexChar n]
    else [c]

/-- A string with its quotes. -/
def renderString (s : String) : List Char := '"' :: s.toList.flatMap escapeChar ++ ['"']

mutual

/-- The compact text of a document, as characters. -/
def renderChars : Json → List Char
  | .null => ['n', 'u', 'l', 'l']
  | .bool true => ['t', 'r', 'u', 'e']
  | .bool false => ['f', 'a', 'l', 's', 'e']
  | .number n => n.render
  | .string s => renderString s
  | .array [] => ['[', ']']
  | .array (v :: vs) => '[' :: renderChars v ++ renderItems vs
  | .object [] => ['\x7b', '\x7d']
  | .object ((k, v) :: es) => '\x7b' :: renderString k ++ ':' :: renderChars v ++ renderEntries es

/-- Further items and the closing bracket. -/
def renderItems : List Json → List Char
  | [] => [']']
  | v :: vs => ',' :: renderChars v ++ renderItems vs

/-- Further entries and the closing brace. -/
def renderEntries : List (String × Json) → List Char
  | [] => ['\x7d']
  | (k, v) :: es => ',' :: renderString k ++ ':' :: renderChars v ++ renderEntries es

end

/-- The compact text of a document. -/
def render (v : Json) : String := String.ofList (renderChars v)

/-- The plain text of a document: a string as it is, anything else as compact text. -/
def plain : Json → String
  | .string s => s
  | v => v.render

end Json

end EntityRest

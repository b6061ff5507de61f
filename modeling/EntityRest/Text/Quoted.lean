import EntityRest.Text.Hidden

/-!
# Quoted text

A text between double quotes, with escapes for the characters that would not show by themselves.
-/

namespace EntityRest.Chars

/-- The short escapes: the character, and the letter behind the backslash. -/
def shortEscapes : List (Char × Char) :=
  [('"', '"'), ('\\', '\\'), ('\n', 'n'), ('\r', 'r'), ('\t', 't'), ('\x00', '0')]

/-- A character within quotes: itself, a short escape, or its code point in hexadecimal if it is
hidden. -/
def quoteChar (c : Char) : List Char :=
  match shortEscapes.lookup c with
  | some letter => ['\\', letter]
  | none =>
    if isHidden c then ['\\', 'u', '\x7b'] ++ Nat.toDigits 16 c.toNat ++ ['\x7d'] else [c]

/-- A text between quotes. -/
def quoted (s : List Char) : List Char := '"' :: s.flatMap quoteChar ++ ['"']

end EntityRest.Chars

/-!
# Blank characters

The characters of the Unicode property White_Space, trimming, and the words between blanks.
-/

namespace EntityRest.Chars

/-- The characters with the property White_Space. -/
def isBlank (c : Char) : Bool :=
  let n := c.toNat
  (0x09 ≤ n && n ≤ 0x0D) || n = 0x20 || n = 0x85 || n = 0xA0 || n = 0x1680 ||
    (0x2000 ≤ n && n ≤ 0x200A) || n = 0x2028 || n = 0x2029 || n = 0x202F || n = 0x205F ||
    n = 0x3000

def trimLeft (s : List Char) : List Char := s.dropWhile isBlank

def trimRight : List Char → List Char
  | [] => []
  | c :: s =>
    match trimRight s with
    | [] => if isBlank c then [] else [c]
    | t => c :: t

/-- The text without the blanks at both ends. -/
def trim (s : List Char) : List Char := trimRight (trimLeft s)

/-- The maximal runs of characters that are not blank, read with the run under way. -/
def wordsFrom (run : List Char) : List Char → List (List Char)
  | [] => if run.isEmpty then [] else [run]
  | c :: s =>
    if isBlank c then
      if run.isEmpty then wordsFrom [] s else run :: wordsFrom [] s
    else wordsFrom (run ++ [c]) s

/-- The maximal runs of characters that are not blank. -/
def words (s : List Char) : List (List Char) := wordsFrom [] s

end EntityRest.Chars

namespace EntityRest.Text

def trim (s : String) : String := String.ofList (Chars.trim s.toList)

/-- Runs of blanks become one space and the ends are trimmed. -/
def collapse (s : String) : String := " ".intercalate ((Chars.words s.toList).map String.ofList)

end EntityRest.Text

import EntityRest.Text.Blank

/-!
# Cutting text

Splitting at separators, cutting at the first or last occurrence of a mark, and replacing one
piece of text by another. Occurrences are taken from left to right and never overlap.
-/

namespace EntityRest.Chars

/-- Puts a character in front of the first piece. -/
def consFirst (c : Char) : List (List Char) → List (List Char)
  | [] => [[c]]
  | p :: ps => (c :: p) :: ps

/-- The pieces between the occurrences of one character; there is always at least one. -/
def splitChar (sep : Char) : List Char → List (List Char)
  | [] => [[]]
  | c :: s => if c = sep then [] :: splitChar sep s else consFirst c (splitChar sep s)

/-- Splits at a separator whose last `skip` characters are still to be passed over. -/
def splitTextFrom (sep : List Char) : Nat → List Char → List (List Char)
  | _, [] => [[]]
  | skip + 1, _ :: s => splitTextFrom sep skip s
  | 0, c :: s =>
    if sep.isPrefixOf (c :: s) then [] :: splitTextFrom sep (sep.length - 1) s
    else consFirst c (splitTextFrom sep 0 s)

/-- The pieces between the occurrences of a separator of one or more characters. -/
def splitText (sep s : List Char) : List (List Char) := splitTextFrom sep 0 s

/-- The rest of a text that starts with `p`. -/
def dropPrefix? : List Char → List Char → Option (List Char)
  | [], s => some s
  | _ :: _, [] => none
  | a :: p, c :: s => if a = c then dropPrefix? p s else none

/-- The part of a text that ends with `e`, before that ending. -/
def dropSuffix? (e s : List Char) : Option (List Char) :=
  (dropPrefix? e.reverse s.reverse).map List.reverse

/-- The two sides of the first occurrence of a piece of text. -/
def cutFirst? (mark : List Char) : List Char → Option (List Char × List Char)
  | [] => (dropPrefix? mark []).map fun r => ([], r)
  | c :: s =>
    match dropPrefix? mark (c :: s) with
    | some r => some ([], r)
    | none => (cutFirst? mark s).map fun (l, r) => (c :: l, r)

/-- The two sides of the last occurrence of a piece of text. -/
def cutLast? (mark : List Char) : List Char → Option (List Char × List Char)
  | [] => (dropPrefix? mark []).map fun r => ([], r)
  | c :: s =>
    match cutLast? mark s with
    | some (l, r) => some (c :: l, r)
    | none => (dropPrefix? mark (c :: s)).map fun r => ([], r)

/-- Replaces occurrences, with `skip` characters of the last one still to be passed over. -/
def replaceFrom (old new : List Char) : Nat → List Char → List Char
  | _, [] => []
  | skip + 1, _ :: s => replaceFrom old new skip s
  | 0, c :: s =>
    if old.isPrefixOf (c :: s) then new ++ replaceFrom old new (old.length - 1) s
    else c :: replaceFrom old new 0 s

/-- Every occurrence of `old`, which has at least one character, replaced by `new`. -/
def replace (old new s : List Char) : List Char := replaceFrom old new 0 s

/-- Writes every occurrence of the character twice. -/
def double (q : Char) : List Char → List Char
  | [] => []
  | c :: s => if c = q then q :: q :: double q s else c :: double q s

def contains (mark s : List Char) : Bool := (cutFirst? mark s).isSome

end EntityRest.Chars

namespace EntityRest.Text

def splitChar (sep : Char) (s : String) : List String :=
  (Chars.splitChar sep s.toList).map String.ofList

def splitText (sep s : String) : List String :=
  (Chars.splitText sep.toList s.toList).map String.ofList

def cutFirst? (mark s : String) : Option (String × String) :=
  (Chars.cutFirst? mark.toList s.toList).map fun (l, r) => (String.ofList l, String.ofList r)

def cutLast? (mark s : String) : Option (String × String) :=
  (Chars.cutLast? mark.toList s.toList).map fun (l, r) => (String.ofList l, String.ofList r)

def dropPrefix? (p s : String) : Option String :=
  (Chars.dropPrefix? p.toList s.toList).map String.ofList

def dropSuffix? (e s : String) : Option String :=
  (Chars.dropSuffix? e.toList s.toList).map String.ofList

def startsWith (p s : String) : Bool := p.toList.isPrefixOf s.toList

def contains (mark s : String) : Bool := Chars.contains mark.toList s.toList

/-- The comma-separated items of a text that are not blank, trimmed. -/
def items (s : String) : List String := ((splitChar ',' s).map trim).filter (· ≠ "")

def lowerAscii (s : String) : String := String.ofList (s.toList.map Char.toLower)

end EntityRest.Text

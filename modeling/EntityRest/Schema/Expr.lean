import EntityRest.Sql.Dialect
import EntityRest.Text.Word

/-!
# SQL expressions as written

Expressions are free text. Three things are read off them: the table aliases they use outside
string literals, whether they are a plain column path, and the placeholders of a template.
-/

namespace EntityRest.Expr

open Chars (isNameStart isWord)

/-- The length of a string literal after its opening quote. Two quotes in a row belong to the
literal, unless then no closing quote would follow. -/
def literalLength? : List Char → Option Nat
  | [] => none
  | '\'' :: '\'' :: s =>
    match literalLength? s with
    | some n => some (n + 2)
    | none => some 1
  | c :: s => if c = '\'' then some 1 else (literalLength? s).map (· + 1)

/-- Empties the string literals of an expression, passing over `skip` characters first. -/
def emptyLiteralsFrom : Nat → List Char → List Char
  | _, [] => []
  | skip + 1, _ :: s => emptyLiteralsFrom skip s
  | 0, c :: s =>
    if c = '\'' then
      match literalLength? s with
      | some n => '\'' :: '\'' :: emptyLiteralsFrom n s
      | none => c :: emptyLiteralsFrom 0 s
    else c :: emptyLiteralsFrom 0 s

/-- The expression with every string literal empty. -/
def emptyLiterals (s : List Char) : List Char := emptyLiteralsFrom 0 s

/-- A maximal run of word characters, or one other character. -/
inductive Token where
  | word (chars : List Char)
  | mark (c : Char)
deriving DecidableEq

def Token.consChar (c : Char) (ts : List Token) : List Token :=
  if isWord c then
    match ts with
    | .word w :: ts => .word (c :: w) :: ts
    | ts => .word [c] :: ts
  else .mark c :: ts

def tokens (s : List Char) : List Token := s.foldr Token.consChar []

def startsName : List Char → Bool
  | c :: _ => isNameStart c
  | [] => false

/-- The names before a point and another name, from left to right; a name after a point is not
looked at again. -/
def qualifiers : List Token → List (List Char)
  | .word a :: .mark m :: .word b :: ts =>
    if m = '.' && startsName a && startsName b then a :: qualifiers ts
    else qualifiers (.mark m :: .word b :: ts)
  | _ :: ts => qualifiers ts
  | [] => []

/-- Keeps the first of equal items. -/
def distinct {α : Type} [DecidableEq α] (xs : List α) : List α :=
  xs.foldl (fun seen x => if x ∈ seen then seen else seen ++ [x]) []

/-- The table aliases that an expression uses outside string literals, in order of first use. -/
def aliases (expr : String) : List String :=
  (distinct (qualifiers (tokens (emptyLiterals expr.toList)))).map String.ofList

/-- A name: a letter or underscore and further word characters. -/
def isName (s : List Char) : Bool := startsName s && s.all isWord

/-- Is the expression a plain `column` or `alias.column`? -/
def isPath (expr : String) : Bool :=
  match Chars.splitChar '.' expr.toList with
  | [a] => isName a
  | [a, b] => isName a && isName b
  | _ => false

/-- The SQL of an expression: a plain path is quoted, anything else stands as written. -/
def render (d : Dialect) (expr : String) : String := if isPath expr then d.quotePath expr else expr

/-- Is the text an ASCII name? -/
def isIdent (s : List Char) : Bool :=
  match s with
  | [] => false
  | c :: s => isNameStart c && s.all fun c => isNameStart c || ('0' ≤ c && c ≤ '9')

/-- The name between an opening brace and the closing brace that ends the run of word characters
and points after it. -/
def placeholder? (s : List Char) : Option (List Char) :=
  let run := s.takeWhile fun c => isWord c || c = '.'
  match s.dropWhile fun c => isWord c || c = '.' with
  | '\x7d' :: _ => if startsName run then some run else none
  | _ => none

def placeholderChars : List Char → List (List Char)
  | [] => []
  | c :: s =>
    let rest := placeholderChars s
    if c = '\x7b' then
      match placeholder? s with
      | some p => p :: rest
      | none => rest
    else rest

/-- The names in braces of a template, in order of appearance. -/
def placeholders (template : String) : List String :=
  (placeholderChars template.toList).map String.ofList

end EntityRest.Expr

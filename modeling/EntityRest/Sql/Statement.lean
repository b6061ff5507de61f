import EntityRest.Sql.Dialect
import EntityRest.Sql.Value

/-!
# Statements

SQL is built as a list of fragments, text or bound values, in the order in which they are written.
Numbering the values from left to right gives the statement with its parameters.
-/

namespace EntityRest

/-- A piece of SQL: text as it stands, or a value to bind. -/
inductive Fragment where
  | text (sql : String)
  | value (v : SqlValue)
deriving DecidableEq

/-- SQL with the parameters of its placeholders, in order. -/
structure Statement where
  sql : String
  params : List SqlValue
deriving DecidableEq

/-- A row as it is fetched: values under output keys. -/
abbrev Row := Entries Json

namespace Fragment

/-- A value in a statement. NULL is never bound; it is written as a word. -/
def bind (v : SqlValue) : Fragment := if v.isNull then .text "NULL" else .value v

def params (fs : List Fragment) : List SqlValue :=
  fs.filterMap fun f =>
    match f with
    | .value v => some v
    | .text _ => none

/-- The texts, with placeholders numbered from `n` for the values. -/
def texts (d : Dialect) : Nat → List Fragment → List String
  | _, [] => []
  | n, .text s :: fs => s :: texts d n fs
  | n, .value _ :: fs => d.placeholder n :: texts d (n + 1) fs

def statement (d : Dialect) (fs : List Fragment) : Statement :=
  ⟨String.join (texts d 1 fs), params fs⟩

/-- Lists of fragments one after the other with a text between them. -/
def joinWith (sep : String) : List (List Fragment) → List Fragment
  | [] => []
  | [fs] => fs
  | fs :: rest => fs ++ .text sep :: joinWith sep rest

end Fragment

end EntityRest

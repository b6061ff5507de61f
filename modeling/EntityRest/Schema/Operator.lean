/-!
# Operators and joins

The comparisons of filters and the kinds of joins.
-/

namespace EntityRest

/-- A comparison. -/
inductive Operator where
  | eq
  | ne
  | gt
  | gte
  | lt
  | lte
  | like
  | ilike
  | nlike
  | nilike
  | within
  | without
  | regexp
  | nregexp
deriving DecidableEq

namespace Operator

def names : List (String × Operator) :=
  [("eq", eq), ("ne", ne), ("gt", gt), ("gte", gte), ("lt", lt), ("lte", lte), ("like", like),
    ("ilike", ilike), ("nlike", nlike), ("nilike", nilike), ("in", within), ("nin", without),
    ("regexp", regexp), ("nregexp", nregexp)]

def name : Operator → String
  | eq => "eq"
  | ne => "ne"
  | gt => "gt"
  | gte => "gte"
  | lt => "lt"
  | lte => "lte"
  | like => "like"
  | ilike => "ilike"
  | nlike => "nlike"
  | nilike => "nilike"
  | within => "in"
  | without => "nin"
  | regexp => "regexp"
  | nregexp => "nregexp"

def ofName? (s : String) : Option Operator := names.lookup s

/-- Does the operator compare with a pattern of wildcards? -/
def isLike : Operator → Bool
  | like | ilike | nlike | nilike => true
  | _ => false

def ignoresCase : Operator → Bool
  | ilike | nilike => true
  | _ => false

end Operator

/-- How a relation is joined. -/
inductive JoinKind where
  | inner
  | left
  | right
  | full
deriving DecidableEq

namespace JoinKind

def names : List (String × JoinKind) :=
  [("inner", inner), ("left", left), ("right", right), ("full", full)]

def name : JoinKind → String
  | inner => "inner"
  | left => "left"
  | right => "right"
  | full => "full"

def sql : JoinKind → String
  | inner => "INNER JOIN"
  | left => "LEFT JOIN"
  | right => "RIGHT JOIN"
  | full => "FULL JOIN"

end JoinKind

end EntityRest

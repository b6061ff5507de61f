import EntityRest.Schema.Expr
import EntityRest.Schema.Operator
import EntityRest.Sql.Statement

/-!
# Select statements

Statements that read rows, kept in their parts: output columns, joined tables, conditions, groups,
orders and a window. Every part can be written, so that writing never fails.
-/

namespace EntityRest

/-- What a comparison reads: an expression, or the text at a path inside a JSON expression. -/
inductive SqlTerm where
  | plain (expr : String)
  | json (expr : String) (path : List String)
deriving DecidableEq

namespace SqlTerm

def expr : SqlTerm → String
  | plain e => e
  | json e _ => e

def sql (d : Dialect) : SqlTerm → String
  | plain e => Expr.render d e
  | json e path => d.quoteJson (Expr.render d e) path

end SqlTerm

/-- The right-hand side of a comparison. -/
inductive Side where
  | value (v : SqlValue)
  | column (t : SqlTerm)
deriving DecidableEq

/-- The operators with one right-hand side that every dialect writes alike. -/
inductive Comparator where
  | eq
  | ne
  | gt
  | gte
  | lt
  | lte
  | like
  | nlike
  | ilike
  | nilike
deriving DecidableEq

/-- The text before, between and after the two sides of a comparison. -/
def Comparator.parts : Comparator → String × String × String
  | eq => ("", "=", "")
  | ne => ("", "!=", "")
  | gt => ("", ">", "")
  | gte => ("", ">=", "")
  | lt => ("", "<", "")
  | lte => ("", "<=", "")
  | like => ("", " LIKE ", "")
  | nlike => ("", " NOT LIKE ", "")
  | ilike => ("LOWER(", ") LIKE ", "")
  | nilike => ("LOWER(", ") NOT LIKE ", "")

/-- A condition on a row. -/
inductive Predicate where
  | null (lhs : SqlTerm) (negated : Bool)
  | member (lhs : SqlTerm) (negated : Bool) (values : List SqlValue)
  | compare (lhs : SqlTerm) (op : Comparator) (rhs : Side)
  | regexp (lhs : SqlTerm) (parts : String × String × String) (rhs : Side)
deriving DecidableEq

/-- A member of a conjunction: one condition, or several of which one has to hold. -/
inductive Conjunct where
  | one (p : Predicate)
  | any (ps : List Predicate)
deriving DecidableEq

/-- An output column: its SQL, its key, the expression behind it, and whether that is aggregated. -/
structure Column where
  sql : String
  key : String
  expr : String
  aggregate : Bool
deriving DecidableEq

structure OrderTerm where
  sql : String
  expr : String
deriving DecidableEq

/-- At most `limit` rows, after `offset` others. -/
structure Window where
  limit : Nat
  offset : Nat
deriving DecidableEq

/-- What a join says besides its source. -/
structure JoinHead where
  kind : JoinKind
  asName : String
  on : List Predicate
deriving DecidableEq

/-- The parts of a statement besides its joins. -/
structure SelectBody where
  columns : List Column
  table : String
  asName : String
  conjuncts : List Conjunct
  groups : List String
  orders : List OrderTerm
  window : Option Window
deriving DecidableEq

mutual

inductive Select where
  | mk (body : SelectBody) (joins : List Join)

/-- A joined table, or a joined statement in its place. -/
inductive Join where
  | table (head : JoinHead) (name : String)
  | derived (head : JoinHead) (select : Select)

end

/-- A statement that counts: groups of another statement, or rows. Where joins could repeat rows,
the distinct values of a term are counted. -/
inductive Count where
  | groups (inner : Select)
  | rows (distinct : Option SqlTerm) (table asName : String) (joins : List Join)
      (conjuncts : List Conjunct)

namespace Select

def body : Select → SelectBody
  | mk b _ => b

def joins : Select → List Join
  | mk _ js => js

end Select

def Join.head : Join → JoinHead
  | table h _ => h
  | derived h _ => h

/-! ## Writing -/

namespace Side

/-- A side of a comparison; a column is lowered where case is ignored. -/
def fragment (d : Dialect) (lowered : Bool) : Side → Fragment
  | value v => .bind v
  | column t => .text (if lowered then "LOWER(" ++ t.sql d ++ ")" else t.sql d)

end Side

namespace Predicate

/-- Two sides in the parts of a comparison. -/
def sides (lhs : String) (parts : String × String × String) (rhs : Fragment) : List Fragment :=
  [.text (parts.1 ++ lhs ++ parts.2.1), rhs] ++
    (if parts.2.2 = "" then [] else [.text parts.2.2])

def ignoresCase : Comparator → Bool
  | .ilike | .nilike => true
  | _ => false

/-- A condition. Membership in no values is written as a constant. -/
def fragments (d : Dialect) : Predicate → List Fragment
  | null lhs negated => [.text (lhs.sql d ++ if negated then " IS NOT NULL" else " IS NULL")]
  | member _ negated [] => [.text (if negated then "1=1" else "1=0")]
  | member lhs negated values =>
    [.text (lhs.sql d ++ if negated then " NOT IN (" else " IN (")] ++
      Fragment.joinWith "," (values.map fun v => [.bind v]) ++ [.text ")"]
  | compare lhs op rhs => sides (lhs.sql d) op.parts (rhs.fragment d (ignoresCase op))
  | regexp lhs parts rhs => sides (lhs.sql d) parts (rhs.fragment d false)

end Predicate

namespace Conjunct

/-- A member of a conjunction; alternatives stand in parentheses. -/
def fragments (d : Dialect) : Conjunct → List Fragment
  | one p => p.fragments d
  | any ps =>
    [.text "("] ++ Fragment.joinWith " OR " (ps.map (Predicate.fragments d)) ++ [.text ")"]

def clause (d : Dialect) (cs : List Conjunct) : List Fragment :=
  if cs.isEmpty then []
  else .text " WHERE " :: Fragment.joinWith " AND " (cs.map (Conjunct.fragments d))

end Conjunct

namespace SelectBody

/-- The parts before the table and its joins. -/
def opening (d : Dialect) (b : SelectBody) : List Fragment :=
  [.text ("SELECT " ++ ", ".intercalate (b.columns.map fun c => c.sql ++ " AS " ++ d.quote c.key) ++
    " FROM ")]

def groupClause (d : Dialect) (b : SelectBody) : String :=
  if b.groups.isEmpty then ""
  else " GROUP BY " ++ ", ".intercalate (b.groups.map (Expr.render d))

def orderClause (b : SelectBody) : String :=
  if b.orders.isEmpty then "" else " ORDER BY " ++ ", ".intercalate (b.orders.map OrderTerm.sql)

def windowClause (d : Dialect) (b : SelectBody) : String :=
  match b.window with
  | some w => d.limitOffset (some w.limit) w.offset (!b.orders.isEmpty)
  | none => ""

/-- The parts after the joins. -/
def closing (d : Dialect) (b : SelectBody) : List Fragment :=
  Conjunct.clause d b.conjuncts ++ [.text (b.groupClause d ++ b.orderClause ++ b.windowClause d)]

end SelectBody

/-- A table under its alias. -/
def tableSql (d : Dialect) (table asName : String) : Fragment :=
  .text (d.quote table ++ " AS " ++ d.quote asName)

namespace JoinHead

/-- The part after the source of a join. A join without conditions is on a constant. -/
def tail (d : Dialect) (h : JoinHead) : List Fragment :=
  .text (" AS " ++ d.quote h.asName ++ " ON ") ::
    (if h.on.isEmpty then [.text "1=1"]
    else Fragment.joinWith " AND " (h.on.map (Predicate.fragments d)))

end JoinHead

mutual

def Select.fragments (d : Dialect) : Select → List Fragment
  | .mk b joins =>
    b.opening d ++ tableSql d b.table b.asName :: Join.fragmentsAll d joins ++ b.closing d

def Join.fragments (d : Dialect) : Join → List Fragment
  | .table h name => .text (" " ++ h.kind.sql ++ " " ++ d.quote name) :: h.tail d
  | .derived h select =>
    .text (" " ++ h.kind.sql ++ " (") :: Select.fragments d select ++ .text ")" :: h.tail d

def Join.fragmentsAll (d : Dialect) : List Join → List Fragment
  | [] => []
  | j :: js => Join.fragments d j ++ Join.fragmentsAll d js

end

namespace Count

/-- What is counted: every row, or the distinct values of a term. -/
def counted (d : Dialect) : Option SqlTerm → String
  | some t => "COUNT(DISTINCT " ++ t.sql d ++ ")"
  | none => "COUNT(*)"

def fragments (d : Dialect) : Count → List Fragment
  | .groups inner =>
    .text "SELECT COUNT(*) FROM (" :: inner.fragments d ++ [.text (") AS " ++ d.quote "_grouped")]
  | .rows distinct table asName joins conjuncts =>
    .text ("SELECT " ++ counted d distinct ++ " FROM ") :: tableSql d table asName ::
      Join.fragmentsAll d joins ++ Conjunct.clause d conjuncts

end Count

end EntityRest

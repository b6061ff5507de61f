import EntityRest.Query.Join
import EntityRest.Query.Resolve
import EntityRest.Schema.Registry

/-!
# From requests to statements

Comparisons are checked against their operators, joins are chosen, relations to other entities
become derived tables, and a read gets its row statement and, where a page is asked for, its count.
-/

namespace EntityRest

namespace Comparison

/-- The operators written the same way in every dialect. -/
def comparator? : Operator → Option Comparator
  | .eq => some .eq
  | .ne => some .ne
  | .gt => some .gt
  | .gte => some .gte
  | .lt => some .lt
  | .lte => some .lte
  | .like => some .like
  | .nlike => some .nlike
  | .ilike => some .ilike
  | .nilike => some .nilike
  | .within | .without | .regexp | .nregexp => none

/-- Tests for NULL, and whether they are negated. -/
def nullTest? : Operator → Option Bool
  | .eq => some false
  | .ne => some true
  | _ => none

/-- Tests for membership, and whether they are negated. -/
def membership? : Operator → Option Bool
  | .within => some false
  | .without => some true
  | _ => none

/-- Regular expressions, and whether they are negated. -/
def regexp? : Operator → Option Bool
  | .regexp => some false
  | .nregexp => some true
  | _ => none

/-- A comparison with one right-hand side. -/
def withSide (d : Dialect) (c : Comparison) (side : Side) : Except QueryError Predicate :=
  match comparator? c.op, regexp? c.op with
  | some op, _ => .ok (.compare c.lhs op side)
  | none, some negated =>
    match d.regexpParts? negated with
    | some parts => .ok (.regexp c.lhs parts side)
    | none => .error ⟨.unsupportedOperator, c.param⟩
  | none, none => .error ⟨.invalidValue, c.param⟩

/-- Checks that the operator takes such a right-hand side. -/
def predicate (d : Dialect) (c : Comparison) : Except QueryError Predicate :=
  match c.rhs with
  | .null =>
    match nullTest? c.op with
    | some negated => .ok (.null c.lhs negated)
    | none => .error ⟨.invalidValue, c.param⟩
  | .list vs =>
    match membership? c.op with
    | some negated => .ok (.member c.lhs negated vs)
    | none => .error ⟨.invalidValue, c.param⟩
  | .value v =>
    match membership? c.op with
    | some negated => .ok (.member c.lhs negated [v])
    | none => c.withSide d (.value v)
  | .column t =>
    match membership? c.op with
    | some _ => .error ⟨.invalidValue, c.param⟩
    | none => c.withSide d (.column t)

end Comparison

/-- Checks a condition. -/
def Condition.conjunct (d : Dialect) : Condition → Except QueryError Conjunct
  | .one c => (c.predicate d).map .one
  | .any cs => (cs.mapM (Comparison.predicate d)).map .any

/-- Page sizes: what is taken when none is asked for, and what is never exceeded. -/
structure QueryOptions where
  defaultPerPage : UInt64
  maxPerPage : UInt64

/-- The statements of a read with what is needed to answer it. -/
structure Plan where
  select : Select
  count : Option Count
  page : UInt64
  perPage : UInt64
  includes : List String
  strip : List String

namespace Schema

def joinHead (d : Dialect) (r : Relation) : Except QueryError JoinHead := do
  let on ← r.conditions.mapM fun c => (clauseComparison c).predicate d
  return ⟨r.kind, r.asName, on⟩

/-- A join of a relation; `derived` gives the statement of an entity joined as a derived table. -/
def join (d : Dialect) (derived : String → Except QueryError Select) (r : Relation) :
    Except QueryError Join :=
  match r.source with
  | .table name => do return .table (← joinHead d r) name
  | .entity name => do
    let select ← derived name
    return .derived (← joinHead d r) select

def rowSelect (d : Dialect) (derived : String → Except QueryError Select) (s : Schema)
    (r : Resolved) (window : Option Window) (ordered : Bool) : Except QueryError Select := do
  let joins ← (s.requiredJoins (r.rowExprs ordered)).mapM (join d derived)
  let conjuncts ← r.conditions.mapM (Condition.conjunct d)
  return .mk ⟨r.columns, s.table, s.asName, conjuncts, r.groups, r.ordersIf ordered, window⟩ joins

/-- What is counted where rows are counted: the primary key, once each, if joins could repeat
rows. -/
def countedTerm (s : Schema) (relations : List Relation) : Option SqlTerm :=
  if relations.isEmpty then none else s.primaryField?.map fun f => .plain f.expr

/-- The count of a settled request: its groups, or else its rows. -/
def countSelect (d : Dialect) (derived : String → Except QueryError Select) (s : Schema)
    (r : Resolved) : Except QueryError Count :=
  if r.isGrouped then (s.rowSelect d derived r none false).map .groups
  else do
    let relations := s.requiredJoins r.exprs
    let joins ← relations.mapM (join d derived)
    let conjuncts ← r.conditions.mapM (Condition.conjunct d)
    return .rows (s.countedTerm relations) s.table s.asName joins conjuncts

def countIf (d : Dialect) (derived : String → Except QueryError Select) (s : Schema)
    (r : Resolved) (asked : Bool) : Except QueryError (Option Count) :=
  if asked then (s.countSelect d derived r).map some else .ok none

def keyFilter (s : Schema) (id : String) : Filter := ⟨s.primaryKey, s.primaryKey, .eq, id⟩

end Schema

namespace Registry

/-- The statement of an entity joined as a derived table, with derived tables nested at most `depth`
deep. Derived tables form no cycle, so the number of entities is deep enough. -/
def derivedSelect (reg : Registry) (d : Dialect) : Nat → String → Except QueryError Select
  | 0, name => .error ⟨.unknownField, name⟩
  | depth + 1, name =>
    match reg.get? name with
    | none => .error ⟨.unknownField, name⟩
    | some s => do
      let r ← s.resolve d {} []
      s.rowSelect d (derivedSelect reg d depth) r none true

/-- The child lists asked for, each once; an unknown one is refused. -/
def includeKeys (s : Schema) (q : Query) : Except QueryError (List String) :=
  match q.includes.find? fun key => (s.child? key).isNone with
  | some key => .error ⟨.unknownInclude, key⟩
  | none => .ok (addAllNew [] q.includes)

def plan (reg : Registry) (d : Dialect) (s : Schema) (q : Query) (window : Option Window) :
    Except QueryError Plan := do
  let includes ← includeKeys s q
  let r ← s.resolve d q includes
  let derived := reg.derivedSelect d reg.size
  let select ← s.rowSelect d derived r window true
  let count ← s.countIf d derived r (window.isSome && q.isPaginated)
  return ⟨select, count, 1, 0, includes, r.strip⟩

/-- The number of rows on a page: at least one, and at most the largest allowed. -/
def pageSize (o : QueryOptions) (q : Query) : UInt64 :=
  max 1 (min (q.perPage.getD o.defaultPerPage) (max o.maxPerPage 1))

/-- The rows before a page, as far as they can be counted. -/
def pageOffset (page perPage : UInt64) : Nat :=
  min ((page.toNat - 1) * perPage.toNat) (UInt64.size - 1)

/-- The statements of a list of rows: always a page, and a count when a page was asked for. -/
def compile (reg : Registry) (d : Dialect) (o : QueryOptions) (s : Schema) (q : Query) :
    Except QueryError Plan := do
  let page := q.page.getD 1
  let perPage := pageSize o q
  let plan ← reg.plan d s q (some ⟨perPage.toNat, pageOffset page perPage⟩)
  return { plan with page, perPage }

/-- The statement of every row, without a page. -/
def compileAll (reg : Registry) (d : Dialect) (s : Schema) (q : Query) : Except QueryError Plan :=
  reg.plan d s q none

def compileOne (reg : Registry) (d : Dialect) (s : Schema) (q : Query) (id : String) :
    Except QueryError Plan :=
  let filters := q.filters ++ [s.keyFilter id]
  reg.plan d s { q with page := none, perPage := none, filters } none

end Registry

namespace Plan

def selectStatement (d : Dialect) (p : Plan) : Statement :=
  Fragment.statement d (p.select.fragments d)

def countStatement? (d : Dialect) (p : Plan) : Option Statement :=
  p.count.map fun c => Fragment.statement d (c.fragments d)

end Plan

end EntityRest

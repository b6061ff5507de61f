import EntityRest.Query.Params
import EntityRest.Query.Select
import EntityRest.Scalar.Nullable
import EntityRest.Schema.Basic

/-!
# From requests to schemas

Output keys of a request are looked up in a schema, values are brought into the kinds of their
fields, and the columns, comparisons, groups and orders of a statement are settled.
-/

namespace EntityRest

/-- A comparison before it is checked that its operator takes such a right-hand side. -/
inductive Operands where
  | null
  | value (v : SqlValue)
  | list (vs : List SqlValue)
  | column (t : SqlTerm)
deriving DecidableEq

/-- A comparison asked for; `param` is named when it turns out to be wrong. -/
structure Comparison where
  lhs : SqlTerm
  op : Operator
  rhs : Operands
  param : String
deriving DecidableEq

/-- A comparison, or alternatives. -/
inductive Condition where
  | one (c : Comparison)
  | any (cs : List Comparison)
deriving DecidableEq

/-- The expressions on the left-hand sides of a condition. -/
def Condition.leftExprs : Condition → List String
  | .one c => [c.lhs.expr]
  | .any cs => cs.map fun c => c.lhs.expr

/-- Where an output key leads: what is read, and the kind of its values. -/
structure Target where
  term : SqlTerm
  kind : ScalarKind
deriving DecidableEq

/-- A request settled against a schema; `strip` are the output keys that only child lists need. -/
structure Resolved where
  columns : List Column
  conditions : List Condition
  groups : List String
  orders : List OrderTerm
  strip : List String
deriving DecidableEq

/-- A pattern of wildcards; without one it may stand anywhere. -/
def likePattern (lowered : Bool) (s : String) : String :=
  let s := if lowered then String.ofList (Chars.lower s.toList) else s
  if Text.contains "%" s then s else "%" ++ s ++ "%"

/-- Adds an item that is not there yet. -/
def addNew (xs : List String) (x : String) : List String := if xs.contains x then xs else xs ++ [x]

def addAllNew (xs more : List String) : List String := more.foldl addNew xs

namespace Resolved

/-- The expressions that the conditions read, for the choice of joins. -/
def exprs (r : Resolved) : List String := addAllNew [] (r.conditions.flatMap Condition.leftExprs)

/-- The orders of a statement, which may leave them out. -/
def ordersIf (r : Resolved) (ordered : Bool) : List OrderTerm := if ordered then r.orders else []

/-- The expressions of a row statement that decide about its joins. -/
def rowExprs (r : Resolved) (ordered : Bool) : List String :=
  r.columns.map Column.expr ++ r.exprs ++ r.groups ++ (r.ordersIf ordered).map OrderTerm.expr

def isGrouped (r : Resolved) : Bool := r.columns.any Column.aggregate || !r.groups.isEmpty

end Resolved

namespace Schema

def fieldColumn (d : Dialect) (f : Field) : Column := ⟨Expr.render d f.expr, f.key, f.expr, false⟩

/-- The path inside a JSON field that a key means, if it is the field's key and a point and
more. -/
def jsonPath? (f : Field) (key : String) : Option String :=
  if f.kind = .json then
    match Text.dropPrefix? (f.key ++ ".") key with
    | some rest => if rest = "" then none else some rest
    | none => none
  else none

/-- The later of two fields if its key is at least as long. -/
def longerKey (best : Option (Field × String)) (next : Field × String) : Option (Field × String) :=
  match best with
  | some (f, p) =>
    if f.key.utf8ByteSize ≤ next.1.key.utf8ByteSize then some next else some (f, p)
  | none => some next

/-- Where a key leads: to its field, or else into the JSON field with the longest fitting key. -/
def target? (s : Schema) (key : String) : Option Target :=
  match s.field? key with
  | some f => some ⟨.plain f.expr, f.kind⟩
  | none =>
    let nested := s.fields.filterMap fun f => (jsonPath? f key).map fun path => (f, path)
    (nested.foldl longerKey none).map fun (f, path) =>
      ⟨.json f.expr (Text.splitChar '.' path), .string⟩

/-- The visible fields that a selected key means: its own, or those below it. -/
def selected (s : Schema) (key : String) : List Field :=
  match s.field? key with
  | some f => if f.hidden then [] else [f]
  | none => s.fields.filter fun f => !f.hidden && Text.startsWith (key ++ ".") f.key

def itemColumns (d : Dialect) (s : Schema) : SelectItem → Except QueryError (List Column)
  | .field key =>
    match s.selected key with
    | [] => .error ⟨.unknownField, "$select"⟩
    | fs => .ok (fs.map (fieldColumn d))
  | .aggregate agg key =>
    match s.field? key with
    | none => .error ⟨.unknownField, "$select"⟩
    | some f =>
      .ok [⟨agg.sql ++ "(" ++ Expr.render d f.expr ++ ")", agg.name ++ "." ++ key, f.expr, true⟩]

/-- Adds a column whose key is not there yet. -/
def addColumn (cs : List Column) (c : Column) : List Column :=
  if cs.any fun x => x.key = c.key then cs else cs ++ [c]

/-- The output columns of a request: those selected, or else every visible field. -/
def columns (d : Dialect) (s : Schema) (q : Query) : Except QueryError (List Column) :=
  match q.select with
  | none => .ok ((s.fields.filter fun f => !f.hidden).map (fieldColumn d))
  | some items => do
    let found ← items.mapM (s.itemColumns d)
    return found.flatten.foldl addColumn []

/-- Adds the columns that a child template needs and that are not there yet. -/
def addTemplateColumns (d : Dialect) (s : Schema) :
    List Column × List String → List String → Except QueryError (List Column × List String)
  | out, [] => .ok out
  | (cs, strip), key :: keys =>
    if cs.any fun c => c.key = key then addTemplateColumns d s (cs, strip) keys
    else
      match s.field? key with
      | none => .error ⟨.unknownField, key⟩
      | some f => addTemplateColumns d s (cs ++ [fieldColumn d f], strip ++ [key]) keys

/-- The keys that the templates of the included child lists refer to. -/
def templateKeys (s : Schema) (includes : List String) : List String :=
  includes.flatMap fun key => ((s.child? key).map Child.placeholders).getD []

/-- Reads the values of a membership test. -/
def listValues? (k : ScalarKind) (text : String) : Option (List SqlValue) :=
  (Text.items text).mapM k.sqlOfText?

/-- The value of a filter, read as one of the kind. -/
def valueOperands (kind : ScalarKind) (f : Filter) : Except QueryError Operands :=
  match kind.sqlOfText? f.value with
  | some v => .ok (.value v)
  | none => .error ⟨.invalidValue, f.param⟩

def listOperands (kind : ScalarKind) (f : Filter) : Except QueryError Operands :=
  match listValues? kind f.value with
  | some vs => .ok (.list vs)
  | none => .error ⟨.invalidValue, f.param⟩

def filterOperands (d : Dialect) (kind : ScalarKind) (f : Filter) : Except QueryError Operands :=
  match f.op with
  | .eq | .ne =>
    if Text.lowerAscii f.value = "null" then .ok .null else valueOperands kind f
  | .like | .nlike => .ok (.value (.text (likePattern false f.value)))
  | .ilike | .nilike => .ok (.value (.text (likePattern true f.value)))
  | .regexp | .nregexp =>
    if (d.regexpParts? false).isNone then .error ⟨.unsupportedOperator, f.param⟩
    else .ok (.value (.text f.value))
  | .within | .without => listOperands kind f
  | .gt | .gte | .lt | .lte => valueOperands kind f

def filterComparison (d : Dialect) (s : Schema) (f : Filter) : Except QueryError Comparison :=
  match s.target? f.key with
  | none => .error ⟨.unknownField, f.param⟩
  | some t => do return ⟨t.term, f.op, ← filterOperands d t.kind f, f.param⟩

def searchComparison (s : Schema) (term key : String) : Except QueryError Comparison :=
  match s.target? key with
  | none => .error ⟨.unknownField, "$search"⟩
  | some t => .ok ⟨t.term, .ilike, .value (.text (likePattern true term)), "$search"⟩

def clauseOperands (c : Clause) : Operands :=
  match c.operand with
  | .column x => .column (.plain x)
  | .value .null => .null
  | .value (.array items) => .list (items.map SqlValue.ofJson)
  | .value v =>
    if c.op.isLike then
      let text :=
        match v with
        | .string s => s
        | v => v.render
      .value (.text (likePattern c.op.ignoresCase text))
    else .value (.ofJson v)

def clauseComparison (c : Clause) : Comparison :=
  ⟨.plain c.column, c.op, clauseOperands c, c.column⟩

/-- The conditions of a request: the static filters, then the filters, the groups of alternatives
and the searches asked for. -/
def conditions (d : Dialect) (s : Schema) (q : Query) : Except QueryError (List Condition) := do
  let filters ← q.filters.mapM (s.filterComparison d)
  let groups ← q.orGroups.mapM fun g => g.mapM (s.filterComparison d)
  let searches ← q.searches.mapM fun x => x.fields.mapM (s.searchComparison x.term)
  return (s.filters.map clauseComparison).map .one ++ filters.map .one ++ groups.map .any ++
    searches.map .any

/-- The grouping expressions: declared ones, those asked for, and those of fields marked so. If
there are none, but the request aggregates, its other columns are grouped by. -/
def groupExprs (s : Schema) (q : Query) (cs : List Column) : Except QueryError (List String) := do
  let asked ← q.group.mapM fun key =>
    match s.field? key with
    | some f => .ok f.expr
    | none => .error ⟨.unknownField, "$group"⟩
  let marked := (s.fields.filter Field.group).map Field.expr
  let groups := addAllNew s.groups (asked ++ marked)
  if cs.any Column.aggregate && groups.isEmpty then
    return addAllNew [] ((cs.filter fun c => !c.aggregate).map Column.expr)
  else return groups

def orderTerm (sql expr : String) (desc ignoreCase : Bool) : OrderTerm :=
  ⟨(if ignoreCase then "LOWER(" ++ sql ++ ")" else sql) ++ (if desc then " DESC" else " ASC"), expr⟩

/-- The term of a declared sort. -/
def ruleTerm (d : Dialect) (r : SortRule) : OrderTerm :=
  orderTerm (Expr.render d r.expr) r.expr r.desc r.ignoreCase

/-- The term of a sort asked for. -/
def itemTerm (d : Dialect) (s : Schema) (item : SortItem) : Except QueryError OrderTerm :=
  match s.target? item.key with
  | some t => .ok (orderTerm (t.term.sql d) t.term.expr item.desc item.ignoreCase)
  | none => .error ⟨.unknownField, "$sort"⟩

/-- The order asked for, behind the required sorts; or else the declared order. -/
def orderTerms (d : Dialect) (s : Schema) (q : Query) : Except QueryError (List OrderTerm) :=
  match q.sort with
  | some items => do
    let asked ← items.mapM (s.itemTerm d)
    return (s.sorts.filter SortRule.required).map (ruleTerm d) ++ asked
  | none => .ok (s.sorts.map (ruleTerm d))

/-- An aggregate alone has no order, and groups are ordered only by what they are grouped by. -/
def keepOrders (cs : List Column) (groups : List String) (orders : List OrderTerm) :
    List OrderTerm :=
  if cs.any Column.aggregate && cs.all Column.aggregate then []
  else if groups.isEmpty then orders
  else orders.filter fun o => groups.contains o.expr

/-- Settles a request against a schema. -/
def resolve (d : Dialect) (s : Schema) (q : Query) (includes : List String) :
    Except QueryError Resolved := do
  let selected ← s.columns d q
  let (cs, strip) ← s.addTemplateColumns d (selected, []) (s.templateKeys includes)
  let conditions ← s.conditions d q
  let groups ← s.groupExprs q cs
  let orders ← s.orderTerms d q
  return {
    columns := cs
    conditions
    groups
    orders := keepOrders cs groups orders
    strip }

end Schema

end EntityRest

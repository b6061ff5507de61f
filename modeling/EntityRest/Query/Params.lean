import EntityRest.Number.Integer
import EntityRest.Query.Error
import EntityRest.Schema.Operator
import EntityRest.Text.Split

/-!
# Request parameters

The parameters of a read: reserved ones, which start with a dollar sign, and filters, which are all
the others. Reading them needs no schema.
-/

namespace EntityRest

/-- A function over the rows of a group. -/
inductive Aggregate where
  | count
  | sum
  | avg
  | min
  | max
deriving DecidableEq

namespace Aggregate

def names : List (String × Aggregate) :=
  [("count", count), ("sum", sum), ("avg", avg), ("min", min), ("max", max)]

def name : Aggregate → String
  | count => "count"
  | sum => "sum"
  | avg => "avg"
  | min => "min"
  | max => "max"

def sql : Aggregate → String
  | count => "COUNT"
  | sum => "SUM"
  | avg => "AVG"
  | min => "MIN"
  | max => "MAX"

/-- The aggregate of a name behind a dollar sign. -/
def ofParam? (s : String) : Option Aggregate :=
  (Text.dropPrefix? "$" s).bind fun name => names.lookup name

end Aggregate

inductive SelectItem where
  | field (key : String)
  | aggregate (agg : Aggregate) (key : String)
deriving DecidableEq

/-- A comparison asked for; `param` is the name as it was written. -/
structure Filter where
  param : String
  key : String
  op : Operator
  value : String
deriving DecidableEq

structure SortItem where
  key : String
  desc : Bool
  ignoreCase : Bool
deriving DecidableEq

/-- A term looked for in several fields. -/
structure Search where
  fields : List String
  term : String
deriving DecidableEq

/-- What a read asks for. -/
structure Query where
  select : Option (List SelectItem) := none
  group : List String := []
  filters : List Filter := []
  /-- Each group holds alternatives. -/
  orGroups : List (List Filter) := []
  searches : List Search := []
  sort : Option (List SortItem) := none
  page : Option UInt64 := none
  perPage : Option UInt64 := none
  includes : List String := []
deriving DecidableEq

/-- Parameters by name, in the order in which they were given. -/
abbrev Pairs := List (String × String)

/-- Reads a number of at least one. -/
def positive? (s : String) : Option UInt64 :=
  match (IntRange.unsigned 64).read (Chars.trim s.toList) with
  | .ok n => if 1 ≤ n then some (UInt64.ofNat n.toNat) else none
  | .error _ => none

namespace Filter

/-- Reads a filter: its key, and after `.$` the name of its operator. -/
def ofPair (param value : String) : Except QueryError Filter := do
  let (key, op) ←
    match Text.cutLast? ".$" param with
    | some (key, name) =>
      match Operator.ofName? name with
      | some op => pure (key, op)
      | none => throw ⟨.unknownOperator, param⟩
    | none => pure (param, .eq)
  if key = "" || Text.startsWith "$" key then throw ⟨.unknownField, param⟩
  return ⟨param, key, op, value⟩

end Filter

namespace SelectItem

/-- Reads an item: a key, or an aggregate and its key with a colon between them. -/
def ofText (item : String) : Except QueryError SelectItem :=
  if Text.startsWith "$" item then
    match Text.cutFirst? ":" item with
    | none => .error ⟨.malformed, "$select"⟩
    | some (agg, key) =>
      match Aggregate.ofParam? agg with
      | none => .error ⟨.unknownOperator, "$select"⟩
      | some agg =>
        let key := Text.trim key
        if key = "" then .error ⟨.malformed, "$select"⟩ else .ok (.aggregate agg key)
  else .ok (.field item)

end SelectItem

namespace SortItem

/-- Reads an item: a minus sign for descending order, a key, and `:i` to ignore case. -/
def ofText (item : String) : SortItem :=
  let (desc, rest) :=
    match Text.dropPrefix? "-" item with
    | some rest => (true, rest)
    | none => (false, item)
  match Text.dropSuffix? ":i" rest with
  | some key => ⟨key, desc, true⟩
  | none => ⟨rest, desc, false⟩

end SortItem

namespace Search

/-- Reads a search: fields, an equals sign and the term. -/
def ofText (s : String) : Except QueryError Search :=
  match Text.cutFirst? "=" s with
  | none => .error ⟨.malformed, "$search"⟩
  | some (fields, term) =>
    let fields := Text.items fields
    if fields.isEmpty then .error ⟨.malformed, "$search"⟩ else .ok ⟨fields, term⟩

end Search

namespace Query

/-- The parts of a text between separators that are not blank, trimmed. -/
def parts (sep s : String) : List String := ((Text.splitText sep s).map Text.trim).filter (· ≠ "")

def alternative (clause : String) : Except QueryError Filter :=
  match Text.cutFirst? "=" clause with
  | none => .error ⟨.malformed, "$or"⟩
  | some (key, value) => Filter.ofPair (Text.trim key) value

/-- Reads groups of alternatives: `;;` between groups and `||` between alternatives. -/
def groups (s : String) : Except QueryError (List (List Filter)) := do
  let groups ← (parts ";;" s).mapM fun family => (parts "||" family).mapM alternative
  return groups.filter fun g => !g.isEmpty

/-- Adds further items to a list that may not be there yet; nothing is added by no items. -/
def extend {α : Type} (items? : Option (List α)) (more : List α) : Option (List α) :=
  if more.isEmpty then items? else some (items?.getD [] ++ more)

def addPair (q : Query) (pair : String × String) : Except QueryError Query :=
  let (key, value) := pair
  match key with
  | "$select" => do
    return { q with select := extend q.select (← (Text.items value).mapM SelectItem.ofText) }
  | "$group" => .ok { q with group := q.group ++ Text.items value }
  | "$sort" => .ok { q with sort := extend q.sort ((Text.items value).map SortItem.ofText) }
  | "$page" =>
    match positive? value with
    | some n => .ok { q with page := some n }
    | none => .error ⟨.invalidNumber, key⟩
  | "$per_page" =>
    match positive? value with
    | some n => .ok { q with perPage := some n }
    | none => .error ⟨.invalidNumber, key⟩
  | "$include" => .ok { q with includes := q.includes ++ Text.items value }
  | "$or" => do return { q with orGroups := q.orGroups ++ (← groups value) }
  | "$search" => do return { q with searches := q.searches ++ [← Search.ofText value] }
  | _ =>
    if Text.startsWith "$" key then .error ⟨.unknownParam, key⟩
    else do return { q with filters := q.filters ++ [← Filter.ofPair key value] }

/-- Reads the parameters of a request, from left to right. -/
def ofPairs (pairs : Pairs) : Except QueryError Query := pairs.foldlM addPair {}

/-- Does the request ask for a page, and so for a count? -/
def isPaginated (q : Query) : Bool := q.page.isSome || q.perPage.isSome

def hasAggregates (q : Query) : Bool :=
  (q.select.getD []).any fun item =>
    match item with
    | .aggregate .. => true
    | .field _ => false

end Query

/-- Cuts a raw query text into pairs; a part without an equals sign has an empty value. -/
def splitPairs (template : String) : Pairs :=
  ((Text.splitChar '&' template).filter (· ≠ "")).map fun p =>
    (Text.cutFirst? "=" p).getD (p, "")

end EntityRest

import EntityRest.Proofs.Schema.Registry
import EntityRest.Query.Compile

/-! The three ways to compile a read, and what the success of each step of compilation says. -/

namespace EntityRest

/-! ## Steps -/

namespace Schema

variable {d : Dialect} {derived : String → Except QueryError Select} {s : Schema}

theorem joinHead_eq_ok {r : Relation} {h : JoinHead} :
    joinHead d r = .ok h ↔
      ∃ on, List.Forall₂ (fun c p => (clauseComparison c).predicate d = .ok p) r.conditions on ∧
        h = ⟨r.kind, r.asName, on⟩ := by
  simp only [joinHead, bind_eq_ok, pure_eq_ok, mapM_eq_ok]

theorem join_table_eq_ok {r : Relation} {name : String} {j : Join} (hr : r.source = .table name) :
    join d derived r = .ok j ↔ ∃ h, joinHead d r = .ok h ∧ j = .table h name := by
  simp only [join, hr, bind_eq_ok, pure_eq_ok]

theorem join_entity_eq_ok {r : Relation} {name : String} {j : Join} (hr : r.source = .entity name) :
    join d derived r = .ok j ↔
      ∃ sub h, derived name = .ok sub ∧ joinHead d r = .ok h ∧ j = .derived h sub := by
  simp only [join, hr, bind_eq_ok, pure_eq_ok]
  constructor
  · rintro ⟨sub, hsub, h, hh, rfl⟩
    exact ⟨sub, h, hsub, hh, rfl⟩
  · rintro ⟨sub, h, hsub, hh, rfl⟩
    exact ⟨sub, hsub, h, hh, rfl⟩

theorem rowSelect_eq_ok {r : Resolved} {window : Option Window} {ordered : Bool} {sel : Select} :
    s.rowSelect d derived r window ordered = .ok sel ↔
      ∃ joins conjuncts,
        List.Forall₂ (fun rel j => join d derived rel = .ok j)
          (s.requiredJoins (r.rowExprs ordered)) joins ∧
        List.Forall₂ (fun c p => Condition.conjunct d c = .ok p) r.conditions conjuncts ∧
        sel = .mk ⟨r.columns, s.table, s.asName, conjuncts, r.groups, r.ordersIf ordered, window⟩
          joins := by
  simp only [rowSelect, bind_eq_ok, pure_eq_ok, mapM_eq_ok]
  constructor
  · rintro ⟨joins, hjoins, conjuncts, hconjuncts, rfl⟩
    exact ⟨joins, conjuncts, hjoins, hconjuncts, rfl⟩
  · rintro ⟨joins, conjuncts, hjoins, hconjuncts, rfl⟩
    exact ⟨joins, hjoins, conjuncts, hconjuncts, rfl⟩

/-- Groups are counted as the rows of a statement. -/
theorem countSelect_eq_ok_of_isGrouped {r : Resolved} {c : Count} (hr : r.isGrouped = true) :
    s.countSelect d derived r = .ok c ↔
      ∃ inner, s.rowSelect d derived r none false = .ok inner ∧ c = .groups inner := by
  rw [countSelect, if_pos hr, map_eq_ok]

theorem countSelect_eq_ok_of_not_isGrouped {r : Resolved} {c : Count} (hr : r.isGrouped = false) :
    s.countSelect d derived r = .ok c ↔
      ∃ joins conjuncts,
        List.Forall₂ (fun rel j => join d derived rel = .ok j) (s.requiredJoins r.exprs) joins ∧
        List.Forall₂ (fun c p => Condition.conjunct d c = .ok p) r.conditions conjuncts ∧
        c = .rows (s.countedTerm (s.requiredJoins r.exprs)) s.table s.asName joins conjuncts := by
  simp only [countSelect, hr, Bool.false_eq_true, if_false, bind_eq_ok, pure_eq_ok, mapM_eq_ok]
  constructor
  · rintro ⟨joins, hjoins, conjuncts, hconjuncts, rfl⟩
    exact ⟨joins, conjuncts, hjoins, hconjuncts, rfl⟩
  · rintro ⟨joins, conjuncts, hjoins, hconjuncts, rfl⟩
    exact ⟨joins, hjoins, conjuncts, hconjuncts, rfl⟩

theorem countIf_eq_ok {r : Resolved} {asked : Bool} {c : Option Count} :
    s.countIf d derived r asked = .ok c ↔
      (asked = true ∧ ∃ c', s.countSelect d derived r = .ok c' ∧ c = some c') ∨
        (asked = false ∧ c = none) := by
  cases asked with
  | false => simp [countIf, eq_comm]
  | true => simp [countIf, map_eq_ok]

theorem resolve_eq_ok {q : Query} {includes : List String} {r : Resolved} :
    s.resolve d q includes = .ok r ↔
      ∃ selected columns strip conditions groups orders,
        s.columns d q = .ok selected ∧
        s.addTemplateColumns d (selected, []) (s.templateKeys includes) = .ok (columns, strip) ∧
        s.conditions d q = .ok conditions ∧
        s.groupExprs q columns = .ok groups ∧
        s.orderTerms d q = .ok orders ∧
        r = ⟨columns, conditions, groups, keepOrders columns groups orders, strip⟩ := by
  simp only [resolve, bind_eq_ok, pure_eq_ok, Prod.exists]
  constructor
  · rintro ⟨selected, h₁, columns, strip, h₂, conditions, h₃, groups, h₄, orders, h₅, rfl⟩
    exact ⟨selected, columns, strip, conditions, groups, orders, h₁, h₂, h₃, h₄, h₅, rfl⟩
  · rintro ⟨selected, columns, strip, conditions, groups, orders, h₁, h₂, h₃, h₄, h₅, rfl⟩
    exact ⟨selected, h₁, columns, strip, h₂, conditions, h₃, groups, h₄, orders, h₅, rfl⟩

end Schema

namespace Registry

variable {reg : Registry} {d : Dialect} {s : Schema}

theorem derivedSelect_succ_eq_ok {depth : Nat} {name : String} {sel : Select} :
    reg.derivedSelect d (depth + 1) name = .ok sel ↔
      ∃ s r, reg.get? name = some s ∧ s.resolve d {} [] = .ok r ∧
        s.rowSelect d (reg.derivedSelect d depth) r none true = .ok sel := by
  rw [derivedSelect]
  cases reg.get? name with
  | none => simp
  | some s =>
      simp only [bind_eq_ok, Option.some.injEq]
      constructor
      · rintro ⟨r, hr, h⟩
        exact ⟨s, r, rfl, hr, h⟩
      · rintro ⟨_, r, rfl, hr, h⟩
        exact ⟨r, hr, h⟩

theorem mem_of_get? {name : String} {s : Schema} (h : reg.get? name = some s) :
    s ∈ reg.schemas :=
  List.mem_of_find?_eq_some h

theorem name_of_get? {name : String} {s : Schema} (h : reg.get? name = some s) : s.name = name := by
  simpa using List.find?_some h

theorem plan_eq_ok {q : Query} {window : Option Window} {p : Plan} :
    reg.plan d s q window = .ok p ↔
      ∃ includes r select count,
        includeKeys s q = .ok includes ∧
        s.resolve d q includes = .ok r ∧
        s.rowSelect d (reg.derivedSelect d reg.size) r window true = .ok select ∧
        s.countIf d (reg.derivedSelect d reg.size) r (window.isSome && q.isPaginated) =
          .ok count ∧
        p = ⟨select, count, 1, 0, includes, r.strip⟩ := by
  simp only [plan, bind_eq_ok, pure_eq_ok]
  constructor
  · rintro ⟨includes, h₁, r, h₂, select, h₃, count, h₄, rfl⟩
    exact ⟨includes, r, select, count, h₁, h₂, h₃, h₄, rfl⟩
  · rintro ⟨includes, r, select, count, h₁, h₂, h₃, h₄, rfl⟩
    exact ⟨includes, h₁, r, h₂, select, h₃, count, h₄, rfl⟩

end Registry

/-! ## Modes -/

/-- How a read is compiled: as a page of rows, as every row, or as the row of an id. -/
inductive ReadMode where
  | page (o : QueryOptions)
  | all
  | one (id : String)

namespace ReadMode

/-- The request that is compiled: an id is one more filter, and stands against pages. -/
def query (s : Schema) (q : Query) : ReadMode → Query
  | page _ | all => q
  | one id => { q with page := none, perPage := none, filters := q.filters ++ [s.keyFilter id] }

def window (q : Query) : ReadMode → Option Window
  | page o => some ⟨(Registry.pageSize o q).toNat,
      Registry.pageOffset (q.page.getD 1) (Registry.pageSize o q)⟩
  | all | one _ => none

end ReadMode

namespace Registry

/-- The plan of a read in one of the modes. -/
def compileAs (reg : Registry) (d : Dialect) (s : Schema) (q : Query) :
    ReadMode → Except QueryError Plan
  | .page o => reg.compile d o s q
  | .all => reg.compileAll d s q
  | .one id => reg.compileOne d s q id

/-- The statements of a read are those of the plan of its request and window. -/
theorem plan_of_compileAs {reg : Registry} {d : Dialect} {s : Schema} {q : Query} {m : ReadMode}
    {p : Plan} (h : reg.compileAs d s q m = .ok p) :
    ∃ page perPage, reg.plan d s (m.query s q) (m.window q) =
      .ok { p with page, perPage } := by
  cases m with
  | page o =>
      obtain ⟨plan, hplan, hp⟩ := bind_eq_ok.mp h
      obtain rfl := pure_eq_ok.mp hp
      exact ⟨plan.page, plan.perPage, hplan⟩
  | all => exact ⟨p.page, p.perPage, h⟩
  | one id => exact ⟨p.page, p.perPage, h⟩

end Registry

/-! ## A request to a small registry -/

namespace Shop

/-- Parameters of a filter of each kind, a group of alternatives and a search. -/
def pairs (title ids path either term : String) : Pairs :=
  [("title.$ne", title), ("id.$in", ids), ("extra.a.b", path),
    ("$or", "paid.$gt=" ++ either ++ "||title.$ilike=" ++ either),
    ("$search", "title,extra.c=" ++ term), ("$page", "2")]

/-- The request that these parameters make, where they have no marks of their own. -/
def request (title ids path either term : String) : Query where
  filters := [⟨"title.$ne", "title", .ne, title⟩, ⟨"id.$in", "id", .within, ids⟩,
    ⟨"extra.a.b", "extra.a.b", .eq, path⟩]
  orGroups := [[⟨"paid.$gt", "paid", .gt, either⟩, ⟨"title.$ilike", "title", .ilike, either⟩]]
  searches := [⟨["title", "extra.c"], term⟩]
  page := some 2

end Shop

end EntityRest

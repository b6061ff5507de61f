import EntityRest.Proofs.Query.Plan
import EntityRest.Proofs.Schema.Registry
import EntityRest.Proofs.Sql.Fragment
import EntityRest.Sql.Write

/-! # Parameters in their places

A request rendered as text, with every value handed over where it stands. Written into a buffer,
the text is the statement that is sent; with the values themselves it is the statement with each
parameter in the place of its placeholder. -/

namespace EntityRest

open List (Forall₂)

/-! ## Rendering -/

namespace Rendering

section

variable {m : Type → Type} [Monad m] (put : SqlValue → m String) (d : Dialect)

/-- A value. NULL is a word, whatever becomes of the others. -/
def value (v : SqlValue) : m String := if v.isNull then pure "NULL" else put v

/-- Texts one after the other with a text between them. -/
def separated (sep : String) (parts : List (m String)) : m String :=
  sep.intercalate <$> parts.mapM id

/-- The text around the two sides of a comparison, if the operator takes one right-hand side. -/
def around : Operator → Option (String × String × String)
  | .eq => some ("", "=", "")
  | .ne => some ("", "!=", "")
  | .gt => some ("", ">", "")
  | .gte => some ("", ">=", "")
  | .lt => some ("", "<", "")
  | .lte => some ("", "<=", "")
  | .like => some ("", " LIKE ", "")
  | .nlike => some ("", " NOT LIKE ", "")
  | .ilike => some ("LOWER(", ") LIKE ", "")
  | .nilike => some ("LOWER(", ") NOT LIKE ", "")
  | .regexp => d.regexpParts? false
  | .nregexp => d.regexpParts? true
  | .within | .without => none

def sides (c : Comparison) (rhs : m String) : Option (m String) :=
  (around d c.op).map fun (before, between, after) => do
    return before ++ c.lhs.sql d ++ between ++ (← rhs) ++ after

/-- Membership in a list, value by value. -/
def members (lhs : String) (negated : Bool) (vs : List SqlValue) : m String :=
  if vs.isEmpty then pure (if negated then "1=1" else "1=0")
  else do
    let list ← separated "," (vs.map (value put))
    return lhs ++ (if negated then " NOT IN (" else " IN (") ++ list ++ ")"

/-- A comparison, if its operator takes the right-hand side. -/
def comparison (c : Comparison) : Option (m String) :=
  match c.op, c.rhs with
  | .eq, .null => some (pure (c.lhs.sql d ++ " IS NULL"))
  | .ne, .null => some (pure (c.lhs.sql d ++ " IS NOT NULL"))
  | .within, .list vs => some (members put (c.lhs.sql d) false vs)
  | .within, .value v => some (members put (c.lhs.sql d) false [v])
  | .without, .list vs => some (members put (c.lhs.sql d) true vs)
  | .without, .value v => some (members put (c.lhs.sql d) true [v])
  | .ilike, .column t | .nilike, .column t => sides d c (pure ("LOWER(" ++ t.sql d ++ ")"))
  | _, .column t => sides d c (pure (t.sql d))
  | _, .value v => sides d c (value put v)
  | _, .list _ | _, .null => none

/-- A comparison, or alternatives in parentheses. -/
def condition : Condition → Option (m String)
  | .one c => comparison put d c
  | .any cs => do
    let parts ← cs.mapM (comparison put d)
    return (fun t => "(" ++ t ++ ")") <$> separated " OR " parts

def whereClause (cs : List Condition) : Option (m String) := do
  let parts ← cs.mapM (condition put d)
  return if parts.isEmpty then pure "" else (" WHERE " ++ ·) <$> separated " AND " parts

/-- A table, or a statement in its place. -/
def source (derived : String → Option (m String)) : RelationSource → Option (m String)
  | .table name => some (pure (d.quote name))
  | .entity name => (derived name).map ((fun t => "(" ++ t ++ ")") <$> ·)

/-- What a relation is joined on; without conditions a constant. -/
def joinedOn (parts : List (m String)) : m String :=
  if parts.isEmpty then pure "1=1" else separated " AND " parts

/-- A joined relation: its source, then its conditions in declared order. -/
def joined (derived : String → Option (m String)) (r : Relation) : Option (m String) := do
  let source ← source d derived r.source
  let on ← r.conditions.mapM fun c => comparison put d (Schema.clauseComparison c)
  return do
    let source ← source
    let on ← joinedOn on
    return " " ++ r.kind.sql ++ " " ++ source ++ " AS " ++ d.quote r.asName ++ " ON " ++ on

/-- The table of a schema and the joined relations, then the conditions. -/
def body (derived : String → Option (m String)) (s : Schema) (relations : List Relation)
    (conditions : List Condition) : Option (m String) := do
  let joins ← relations.mapM (joined put d derived)
  let condition ← whereClause put d conditions
  return do
    let joins ← joins.mapM id
    return d.quote s.table ++ " AS " ++ d.quote s.asName ++ String.join joins ++ (← condition)

def closing (groups : List String) (orders : List OrderTerm) (window : Option Window) : String :=
  (if groups.isEmpty then "" else " GROUP BY " ++ ", ".intercalate (groups.map (Expr.render d))) ++
  (if orders.isEmpty then "" else " ORDER BY " ++ ", ".intercalate (orders.map OrderTerm.sql)) ++
  (window.elim "" fun w => d.limitOffset (some w.limit) w.offset (!orders.isEmpty))

def row (derived : String → Option (m String)) (s : Schema) (r : Resolved)
    (window : Option Window) (ordered : Bool) : Option (m String) := do
  let body ← body put d derived s (s.requiredJoins (r.rowExprs ordered)) r.conditions
  return do
    return "SELECT " ++
      ", ".intercalate (r.columns.map fun c => c.sql ++ " AS " ++ d.quote c.key) ++
      " FROM " ++ (← body) ++ closing d r.groups (r.ordersIf ordered) window

def count (derived : String → Option (m String)) (s : Schema) (r : Resolved) :
    Option (m String) :=
  if r.isGrouped then
    (row put d derived s r none false).map fun inner => do
      return "SELECT COUNT(*) FROM (" ++ (← inner) ++ ") AS " ++ d.quote "_grouped"
  else do
    let relations := s.requiredJoins r.exprs
    let body ← body put d derived s relations r.conditions
    return do
      return "SELECT " ++ Count.counted d (s.countedTerm relations) ++ " FROM " ++ (← body)

/-- The statement of an entity that is joined, with others nested in it at most `depth` deep. -/
def nested (reg : Registry) : Nat → String → Option (m String)
  | 0, _ => none
  | depth + 1, name => do
    let s ← reg.get? name
    let r ← (s.resolve d {} []).toOption
    row put d (nested reg depth) s r none true

/-- The request settled against the schema. -/
def settled (s : Schema) (q : Query) : Option Resolved := do
  let includes ← (Registry.includeKeys s q).toOption
  (s.resolve d q includes).toOption

/-- The row statement of a read. -/
def rows (reg : Registry) (s : Schema) (q : Query) (window : Option Window) :
    Option (m String) := do
  row put d (nested put d reg reg.size) s (← settled d s q) window true

/-- The count statement of a read. -/
def total (reg : Registry) (s : Schema) (q : Query) : Option (m String) := do
  count put d (nested put d reg reg.size) s (← settled d s q)

/-- Inserting a row, value by value. -/
def insert (s : Schema) (values : Sql.Assignments) : m String := do
  let texts ← separated ", " (values.map fun v => value put v.2)
  return "INSERT INTO " ++ d.quote s.table ++ " (" ++
    ", ".intercalate (values.map fun v => d.quote v.1) ++ ") VALUES (" ++ texts ++ ")"

/-- Updating the other columns of a row, then finding it by its key. -/
def update (s : Schema) (keyColumn : String) (id : SqlValue) (values : Sql.Assignments) :
    m String := do
  let sets ← separated ", " ((values.filter fun v => v.1 ≠ keyColumn).map fun v =>
    (d.quote v.1 ++ " = " ++ ·) <$> value put v.2)
  let id ← value put id
  return "UPDATE " ++ d.quote s.table ++ " SET " ++ sets ++ " WHERE " ++ d.quote keyColumn ++
    " = " ++ id

/-- Deleting the row of a key. -/
def delete (s : Schema) (keyColumn : String) (id : SqlValue) : m String := do
  return "DELETE FROM " ++ d.quote s.table ++ " WHERE " ++ d.quote keyColumn ++ " = " ++
    (← value put id)

/-! ## Rendered requests and fragments -/

variable {put d} [LawfulMonad m]

open Fragment (writeWith writeWith_nil writeWith_append writeWith_text writeWith_text_cons
  writeWith_joinWith)

theorem value_eq (v : SqlValue) : value put v = writeWith put [.bind v] := by
  unfold value Fragment.bind
  split
  · rw [writeWith_text]
  · simp [writeWith]

theorem separated_map {α : Type} (sep : String) (f : α → List Fragment) (xs : List α) :
    separated sep (xs.map fun x => writeWith put (f x)) =
      writeWith put (Fragment.joinWith sep (xs.map f)) := by
  rw [separated, writeWith_joinWith, List.mapM_map, List.mapM_map]
  rfl

theorem writeWith_sides (lhs : String) (parts : String × String × String) (f : Fragment) :
    writeWith put (Predicate.sides lhs parts f) = do
      return parts.1 ++ lhs ++ parts.2.1 ++ (← writeWith put [f]) ++ parts.2.2 := by
  rw [Predicate.sides, writeWith_append, writeWith_text_cons]
  split
  · rename_i h
    simp only [h, writeWith, bind_assoc, pure_bind, String.append_empty]
  · rw [writeWith_text]
    simp only [bind_assoc, pure_bind]

theorem sides_of_withSide {c : Comparison} {side : Side} {p : Predicate}
    (h : c.withSide d side = .ok p) :
    sides d c (writeWith put [side.fragment d c.op.ignoresCase]) =
      some (writeWith put (p.fragments d)) := by
  obtain ⟨lhs, op, rhs, param⟩ := c
  cases op with
  | regexp | nregexp =>
      simp only [Comparison.withSide, Comparison.comparator?, Comparison.regexp?] at h
      split at h
      · rename_i parts hparts
        cases h
        simp only [sides, around, hparts, Predicate.fragments, writeWith_sides]
        rfl
      · cases h
  | within | without => cases h
  | _ =>
      cases h
      simp only [Predicate.fragments, writeWith_sides]
      rfl

theorem members_eq (lhs : SqlTerm) (negated : Bool) (vs : List SqlValue) :
    members put (lhs.sql d) negated vs =
      writeWith put ((Predicate.member lhs negated vs).fragments d) := by
  cases vs with
  | nil => rw [Predicate.fragments, writeWith_text, members, if_pos List.isEmpty_nil]
  | cons v vs =>
      have hvalues : (v :: vs).map (value put) = (v :: vs).map fun v => writeWith put [.bind v] :=
        List.map_congr_left fun v _ => value_eq v
      rw [members, if_neg (by simp), hvalues, separated_map, Predicate.fragments,
        writeWith_append, writeWith_append, writeWith_text, writeWith_text]
      · simp only [bind_assoc, pure_bind]
      · simp

theorem comparison_eq {c : Comparison} {p : Predicate} (h : c.predicate d = .ok p) :
    comparison put d c = some (writeWith put (p.fragments d)) := by
  obtain ⟨lhs, op, rhs, param⟩ := c
  cases rhs with
  | null =>
      cases op <;> cases h
      all_goals
        rw [Predicate.fragments, writeWith_text]
        rfl
  | list vs =>
      cases op <;> cases h
      all_goals
        rw [← members_eq]
        rfl
  | value v =>
      cases hop : Comparison.membership? op with
      | some negated =>
          simp only [Comparison.predicate, hop] at h
          cases h
          rw [← members_eq]
          cases op <;> cases hop <;> rfl
      | none =>
          simp only [Comparison.predicate, hop] at h
          rw [← sides_of_withSide h, Side.fragment, ← value_eq]
          cases op <;> first | rfl | cases hop
  | column t =>
      cases hop : Comparison.membership? op with
      | some negated =>
          simp only [Comparison.predicate, hop] at h
          cases h
      | none =>
          simp only [Comparison.predicate, hop] at h
          rw [← sides_of_withSide h, Side.fragment, writeWith_text]
          cases op <;> rfl

omit [LawfulMonad m] in
theorem mapM_eq_some_map {α β : Type} {R : α → β → Prop} {f : α → Option (m String)}
    {g : β → List Fragment} {xs : List α} {ys : List β} (h : Forall₂ R xs ys)
    (hfg : ∀ x y, R x y → f x = some (writeWith put (g y))) :
    xs.mapM f = some (ys.map fun y => writeWith put (g y)) := by
  induction h with
  | nil => rfl
  | cons hxy _ ih => simp [List.mapM_cons, hfg _ _ hxy, ih]

theorem condition_eq {c : Condition} {p : Conjunct} (h : c.conjunct d = .ok p) :
    condition put d c = some (writeWith put (p.fragments d)) := by
  cases c with
  | one c =>
      obtain ⟨p, hp, rfl⟩ := map_eq_ok.mp h
      exact comparison_eq hp
  | any cs =>
      obtain ⟨ps, hps, rfl⟩ := map_eq_ok.mp h
      simp only [condition, mapM_eq_some_map (mapM_eq_ok.mp hps) fun _ _ => comparison_eq,
        Option.bind_eq_bind, Option.bind_some, Option.pure_def, Conjunct.fragments, separated_map,
        writeWith_append, writeWith_text, bind_assoc, pure_bind, map_eq_pure_bind]

theorem whereClause_eq {cs : List Condition} {ps : List Conjunct}
    (h : Forall₂ (fun c p => Condition.conjunct d c = .ok p) cs ps) :
    whereClause put d cs = some (writeWith put (Conjunct.clause d ps)) := by
  simp only [whereClause, mapM_eq_some_map h fun _ _ => condition_eq, Option.bind_eq_bind,
    Option.bind_some, Option.pure_def, List.isEmpty_map, Conjunct.clause]
  by_cases hps : ps.isEmpty
  · rw [if_pos hps, if_pos hps, writeWith]
  · rw [if_neg hps, if_neg hps, writeWith_text_cons, separated_map, map_eq_pure_bind]

/-! ## Statements -/

variable {derived : String → Except QueryError Select} {sub : String → Option (m String)}

variable (put) in
theorem tail_eq {r : Relation} {h : JoinHead} (hh : Schema.joinHead d r = .ok h) :
    ∃ on : List (m String),
      r.conditions.mapM (fun c => comparison put d (Schema.clauseComparison c)) = some on ∧
      writeWith put (h.tail d) = do
        return " AS " ++ d.quote r.asName ++ " ON " ++ (← joinedOn on) := by
  obtain ⟨on, hon, rfl⟩ := Schema.joinHead_eq_ok.mp hh
  refine ⟨_, mapM_eq_some_map hon fun _ _ => comparison_eq, ?_⟩
  rw [JoinHead.tail, writeWith_text_cons, joinedOn, List.isEmpty_map, separated_map]
  by_cases hempty : on.isEmpty
  · rw [if_pos hempty, if_pos hempty, writeWith_text]
  · rw [if_neg hempty, if_neg hempty]

theorem join_joins (joins : List Join) :
    String.join <$> (joins.map fun j => writeWith put (j.fragments d)).mapM id =
      writeWith put (Join.fragmentsAll d joins) := by
  induction joins with
  | nil =>
      rw [List.map_nil, List.mapM_nil, map_pure, Join.fragmentsAll, writeWith_nil]
      rfl
  | cons j joins ih =>
      rw [Join.fragmentsAll, writeWith_append, ← ih]
      simp only [List.map_cons, List.mapM_cons, id_eq, map_bind, map_pure, bind_map_left,
        String.join_cons]

theorem closing_eq (b : SelectBody) :
    closing d b.groups b.orders b.window =
      b.groupClause d ++ b.orderClause ++ b.windowClause d := by
  obtain ⟨columns, table, asName, conjuncts, groups, orders, window⟩ := b
  cases window <;> rfl

section Derived

variable (hsub : ∀ name sel, derived name = .ok sel →
  sub name = some (writeWith put (sel.fragments d)))

include hsub

theorem joined_eq {r : Relation} {j : Join} (h : Schema.join d derived r = .ok j) :
    joined put d sub r = some (writeWith put (j.fragments d)) := by
  cases hsource : r.source with
  | table name =>
      obtain ⟨head, hhead, rfl⟩ := (Schema.join_table_eq_ok hsource).mp h
      obtain ⟨on, hon, htail⟩ := tail_eq put hhead
      simp only [joined, hsource, source, hon, Option.bind_eq_bind, Option.bind_some,
        Option.pure_def, Join.fragments, writeWith_text_cons, htail, pure_bind, bind_assoc]
      obtain ⟨_, -, rfl⟩ := Schema.joinHead_eq_ok.mp hhead
      simp only [String.append_assoc]
  | entity name =>
      obtain ⟨sel, head, hsel, hhead, rfl⟩ := (Schema.join_entity_eq_ok hsource).mp h
      obtain ⟨on, hon, htail⟩ := tail_eq put hhead
      have hparen (s : String) : " (" ++ s = " " ++ ("(" ++ s) := by
        rw [← String.append_assoc]
        rfl
      simp only [joined, hsource, source, hsub name sel hsel, Option.map_some, hon,
        Option.bind_eq_bind, Option.bind_some, Option.pure_def, Join.fragments,
        List.cons_append, writeWith_text_cons, writeWith_append, htail, pure_bind, bind_assoc,
        map_eq_pure_bind]
      obtain ⟨_, -, rfl⟩ := Schema.joinHead_eq_ok.mp hhead
      simp only [String.append_assoc, hparen]

theorem body_eq {s : Schema} {relations : List Relation} {conditions : List Condition}
    {joins : List Join} {conjuncts : List Conjunct}
    (hjoins : Forall₂ (fun r j => Schema.join d derived r = .ok j) relations joins)
    (hconjuncts : Forall₂ (fun c p => Condition.conjunct d c = .ok p) conditions conjuncts) :
    body put d sub s relations conditions =
      some (writeWith put (tableSql d s.table s.asName :: Join.fragmentsAll d joins ++
        Conjunct.clause d conjuncts)) := by
  simp only [body, mapM_eq_some_map hjoins fun _ _ => joined_eq hsub, whereClause_eq hconjuncts,
    Option.bind_eq_bind, Option.bind_some, Option.pure_def, ← join_joins, tableSql,
    List.cons_append, writeWith_text_cons, writeWith_append, bind_assoc, pure_bind, bind_map_left,
    String.append_assoc]

theorem row_eq {s : Schema} {r : Resolved} {window : Option Window} {ordered : Bool}
    {sel : Select} (h : s.rowSelect d derived r window ordered = .ok sel) :
    row put d sub s r window ordered = some (writeWith put (sel.fragments d)) := by
  obtain ⟨joins, conjuncts, hjoins, hconjuncts, rfl⟩ := Schema.rowSelect_eq_ok.mp h
  have hclosing := closing_eq (d := d)
    ⟨r.columns, s.table, s.asName, conjuncts, r.groups, r.ordersIf ordered, window⟩
  simp only at hclosing
  simp only [row, body_eq hsub hjoins hconjuncts, hclosing, Option.bind_eq_bind, Option.bind_some,
    Option.pure_def, Select.fragments, SelectBody.opening, SelectBody.closing, tableSql,
    List.cons_append, List.nil_append, writeWith_nil, writeWith_text_cons, writeWith_append,
    bind_assoc, pure_bind, String.append_assoc, String.append_empty]

theorem count_eq {s : Schema} {r : Resolved} {c : Count} (h : s.countSelect d derived r = .ok c) :
    count put d sub s r = some (writeWith put (c.fragments d)) := by
  cases hgrouped : r.isGrouped with
  | true =>
      obtain ⟨inner, hinner, rfl⟩ := (Schema.countSelect_eq_ok_of_isGrouped hgrouped).mp h
      simp only [count, hgrouped, if_true, row_eq hsub hinner, Option.map_some, Count.fragments,
        List.cons_append, writeWith_text_cons, writeWith_append, writeWith_nil, bind_assoc,
        pure_bind, String.append_assoc, String.append_empty]
  | false =>
      obtain ⟨joins, conjuncts, hjoins, hconjuncts, rfl⟩ :=
        (Schema.countSelect_eq_ok_of_not_isGrouped hgrouped).mp h
      simp only [count, hgrouped, Bool.false_eq_true, if_false, body_eq hsub hjoins hconjuncts,
        Option.bind_eq_bind, Option.bind_some, Option.pure_def, Count.fragments, List.cons_append,
        writeWith_text_cons, String.append_assoc]

end Derived

/-- Statements in the place of entities are rendered however deep they are nested. -/
theorem nested_eq {reg : Registry} {depth : Nat} {name : String} {sel : Select}
    (h : reg.derivedSelect d depth name = .ok sel) :
    nested put d reg depth name = some (writeWith put (sel.fragments d)) := by
  induction depth generalizing name sel with
  | zero => cases h
  | succ depth ih =>
      obtain ⟨s, r, hget, hr, hrow⟩ := Registry.derivedSelect_succ_eq_ok.mp h
      simp only [nested, hget, hr, Except.toOption, Option.bind_eq_bind, Option.bind_some]
      exact row_eq (fun _ _ => ih) hrow

theorem rows_eq {reg : Registry} {s : Schema} {q : Query} {window : Option Window} {p : Plan}
    (h : reg.plan d s q window = .ok p) :
    rows put d reg s q window = some (writeWith put (p.select.fragments d)) := by
  obtain ⟨includes, r, select, count, hincludes, hr, hselect, -, rfl⟩ := Registry.plan_eq_ok.mp h
  simp only [rows, settled, hincludes, hr, Except.toOption, Option.bind_eq_bind, Option.bind_some]
  exact row_eq (fun _ _ => nested_eq) hselect

theorem total_eq {reg : Registry} {s : Schema} {q : Query} {window : Option Window} {p : Plan}
    {c : Count} (h : reg.plan d s q window = .ok p) (hc : p.count = some c) :
    total put d reg s q = some (writeWith put (c.fragments d)) := by
  obtain ⟨includes, r, select, count, hincludes, hr, -, hcount, rfl⟩ := Registry.plan_eq_ok.mp h
  rcases Schema.countIf_eq_ok.mp hcount with ⟨-, c', hc', hsome⟩ | ⟨-, hnone⟩
  · obtain rfl := Option.some.inj (hc.symm.trans hsome)
    simp only [total, settled, hincludes, hr, Except.toOption, Option.bind_eq_bind,
      Option.bind_some]
    exact count_eq (fun _ _ => nested_eq) hc'
  · cases hc.symm.trans hnone

theorem insert_eq (s : Schema) (values : Sql.Assignments) :
    insert put d s values = writeWith put (Sql.insert s d values) := by
  have hvalues : (values.map fun v => value put v.2) =
      values.map fun v => writeWith put [.bind v.2] :=
    List.map_congr_left fun v _ => value_eq v.2
  simp only [insert, hvalues, separated_map, Sql.insert, List.cons_append, List.nil_append,
    writeWith_text_cons, writeWith_append, writeWith_nil, bind_assoc, pure_bind,
    String.append_assoc, String.append_empty]

theorem update_eq {s : Schema} {keyColumn : String} {id : SqlValue} {values : Sql.Assignments}
    {fs : List Fragment} (h : Sql.update? s d keyColumn id values = some fs) :
    update put d s keyColumn id values = writeWith put fs := by
  have hset (v : String × SqlValue) : (d.quote v.1 ++ " = " ++ ·) <$> value put v.2 =
      writeWith put [.text (d.quote v.1 ++ " = "), .bind v.2] := by
    rw [writeWith_text_cons, value_eq, map_eq_pure_bind]
  unfold Sql.update? at h
  split at h
  · cases h
  · cases h
    simp only [update, hset, separated_map]
    simp only [value_eq, List.cons_append, List.nil_append, writeWith_text_cons,
      writeWith_append, bind_assoc, pure_bind, String.append_assoc]

theorem delete_eq (s : Schema) (keyColumn : String) (id : SqlValue) :
    delete put d s keyColumn id = writeWith put (Sql.delete s d keyColumn id) := by
  rw [delete, value_eq, Sql.delete, writeWith_text_cons]

end

end Rendering

/-! ## Parameters and placeholders -/

/-- A statement is what is written into a buffer, its placeholders are numbered from one and stand
between pieces of text, and the same text with values in place of placeholders has the parameters
there in this order. -/
structure Statement.LinesUp (d : Dialect) (st : Statement)
    (text : ∀ (m : Type → Type) [Monad m], (SqlValue → m String) → Option (m String)) : Prop where
  buffered : (text Buffer (Buffer.bind d)).map Buffer.statement = some st
  aligned : ∃ pieces : List String, pieces.length = st.params.length + 1 ∧
    st.sql = Fragment.weave pieces ((List.range' 1 st.params.length).map d.placeholder) ∧
    ∀ lit : SqlValue → String,
      (text Id fun v => pure (lit v)).map Id.run = some (Fragment.weave pieces (st.params.map lit))

theorem Statement.linesUp_of_eq {d : Dialect} {fs : List Fragment}
    {text : ∀ (m : Type → Type) [Monad m], (SqlValue → m String) → Option (m String)}
    (h : ∀ (m : Type → Type) [Monad m] [LawfulMonad m] (put : SqlValue → m String),
      text m put = some (Fragment.writeWith put fs)) :
    (Fragment.statement d fs).LinesUp d text := by
  refine ⟨?_, Fragment.pieces fs, Fragment.length_pieces fs, Fragment.join_texts d 1 fs, ?_⟩
  · rw [h, Option.map_some, Buffer.statement_writeWith]
  · intro lit
    rw [h, Option.map_some, Fragment.writeWith_id]
    rfl

/-- The statements of a plan against the request they were compiled from. -/
structure Plan.LinesUp (reg : Registry) (d : Dialect) (s : Schema) (q : Query)
    (window : Option Window) (p : Plan) : Prop where
  select : (p.selectStatement d).LinesUp d fun _ _ put => Rendering.rows put d reg s q window
  count : ∀ st ∈ p.countStatement? d, st.LinesUp d fun _ _ put => Rendering.total put d reg s q

/-- In every statement that is built the parameters stand in the order of their placeholders. -/
theorem Registry.linesUp (reg : Registry) (d : Dialect) (s : Schema) :
    (∀ q m p, reg.compileAs d s q m = .ok p → p.LinesUp reg d s (m.query s q) (m.window q)) ∧
    ∀ values keyColumn id,
      (Fragment.statement d (Sql.insert s d values)).LinesUp d
        (fun _ _ put => some (Rendering.insert put d s values)) ∧
      (∀ fs ∈ Sql.update? s d keyColumn id values, (Fragment.statement d fs).LinesUp d
        fun _ _ put => some (Rendering.update put d s keyColumn id values)) ∧
      (Fragment.statement d (Sql.delete s d keyColumn id)).LinesUp d
        (fun _ _ put => some (Rendering.delete put d s keyColumn id)) := by
  refine ⟨fun q m p hp => ?_, fun values keyColumn id => ⟨?_, fun fs hfs => ?_, ?_⟩⟩
  · obtain ⟨page, perPage, hplan⟩ := plan_of_compileAs hp
    refine ⟨Statement.linesUp_of_eq fun _ _ _ _ =>
      Rendering.rows_eq (p := { p with page, perPage }) hplan, fun st hst => ?_⟩
    obtain ⟨c, hc, rfl⟩ := Option.map_eq_some_iff.mp hst
    exact Statement.linesUp_of_eq fun _ _ _ _ => Rendering.total_eq hplan hc
  · exact Statement.linesUp_of_eq fun _ _ _ _ => congrArg some (Rendering.insert_eq s values)
  · exact Statement.linesUp_of_eq fun _ _ _ _ => congrArg some (Rendering.update_eq hfs)
  · exact Statement.linesUp_of_eq fun _ _ _ _ =>
      congrArg some (Rendering.delete_eq s keyColumn id)

theorem Shop.request_linesUp :
    ∃ p, registry.compileAs .postgres orders (request "null" "1,2" "x" "1.5" "foo")
        (.page ⟨10, 100⟩) = .ok p ∧
      p.count.isSome ∧
      p.LinesUp registry .postgres orders (request "null" "1,2" "x" "1.5" "foo")
        (some ⟨10, 10⟩) := by
  obtain ⟨p, hp, hcount⟩ := exists_eq_ok (x := registry.compileAs .postgres orders
    (request "null" "1,2" "x" "1.5" "foo") (.page ⟨10, 100⟩)) (p := fun p => p.count.isSome)
    (by decide +kernel)
  exact ⟨p, hp, hcount, (registry.linesUp .postgres orders).1 _ _ p hp⟩

end EntityRest

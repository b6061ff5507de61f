import EntityRest.Proofs.Query.FieldFilter
import EntityRest.Proofs.Schema.WellFormed
import EntityRest.Service.Write

/-! # Rows by their ids

A read selects the row of an id by one more filter, a write by a condition on the column of the
primary key. Both refuse the same ids and compare with the same values, but for the word for NULL,
which a read tests for. -/

namespace EntityRest

open List (Forall₂)

/-- The second statement has one condition more, at a place of its conjunction. -/
structure Select.Adds (d : Dialect) (n : Nat) (fs : List Fragment) (t t' : Select) : Prop where
  body : ∃ us c vs, us.length = n ∧ c.fragments d = fs ∧ t.body.conjuncts = us ++ vs ∧
    t'.body = { t.body with conjuncts := us ++ c :: vs }
  joins : t.joins.Sublist t'.joins

theorem Select.Adds.unique {d : Dialect} {n : Nat} {fs gs : List Fragment} {t t' : Select}
    (h : Adds d n fs t t') (h' : Adds d n gs t t') : fs = gs := by
  obtain ⟨us, c, vs, hlen, rfl, -, hbody⟩ := h.body
  obtain ⟨us', c', vs', hlen', rfl, -, hbody'⟩ := h'.body
  have hconjuncts : us ++ c :: vs = us' ++ c' :: vs' :=
    congrArg SelectBody.conjuncts (hbody.symm.trans hbody')
  obtain ⟨-, htail⟩ := List.append_inj hconjuncts (hlen.trans hlen'.symm)
  rw [(List.cons.inj htail).1]

theorem Field.expr_of_columnOf? {f : Field} {asName column : String}
    (h : f.columnOf? asName = some column) : f.expr = asName ++ "." ++ column := by
  unfold columnOf? at h
  split at h
  · rename_i a rest hcut
    have hsep : ".".toList = ['.'] := rfl
    obtain ⟨hexpr, -⟩ := (Text.cutFirst?_eq_some_iff hsep).mp hcut
    split at h
    · rename_i hcond
      obtain ⟨rfl, -⟩ : a = asName ∧ Expr.isIdent rest.toList = true := by simpa using hcond
      exact Option.some.inj h ▸ hexpr
    · cases h
  · cases h

namespace Schema

variable {reg : Registry} {d : Dialect} {derived : String → Except QueryError Select} {s : Schema}

/-! ## The primary key -/

/-- The primary key is a field whose expression is a column of the own table. -/
theorem WellFormed.exists_key (h : s.WellFormed reg) :
    ∃ f column, s.primaryField? = some f ∧ s.primaryColumn? = some column ∧
      f.expr = s.asName ++ "." ++ column := by
  have hkeys := (List.nodup_append'.mp h.keys).1
  obtain ⟨column, hcolumn⟩ :=
    Option.isSome_iff_exists.mp ((isSome_primaryColumn?_iff hkeys).mpr h.primary)
  obtain ⟨f, hf, hof⟩ := Option.bind_eq_some_iff.mp hcolumn
  exact ⟨f, column, hf, hcolumn, Field.expr_of_columnOf? hof⟩

/-- Writes take an id for the value that it means. -/
theorem keyValue_eq {f : Field} {column : String} (hf : s.primaryField? = some f)
    (hcolumn : s.primaryColumn? = some column) (id : String) :
    s.keyValue id =
      match f.kind.sqlOfText? id with
      | some w => .ok (column, w)
      | none => .error (.query ⟨.invalidValue, s.primaryKey⟩) := by
  cases hvalue : f.kind.sqlOfText? id <;> simp [keyValue, hf, hcolumn, hvalue]

/-! ## One more filter -/

section Add

variable {q : Query} {includes : List String} {r : Resolved} {x : Filter}

theorem conditions_add_error {cs : List Condition} (h : s.conditions d q = .ok cs) {e : QueryError}
    (hx : s.filterComparison d x = .error e) :
    s.conditions d { q with filters := q.filters ++ [x] } = .error e := by
  obtain ⟨filters, -, -, hfilters, -⟩ := conditions_eq_ok.mp h
  exact bind_eq_error.mpr (.inl (mapM_append_cons_eq_error (mapM_eq_ok.mpr hfilters) hx []))

/-- It is one more condition, behind those of the other filters. -/
theorem conditions_add {cs : List Condition} (h : s.conditions d q = .ok cs) {c : Comparison}
    (hx : s.filterComparison d x = .ok c) :
    ∃ us vs, us.length = s.filters.length + q.filters.length ∧ cs = us ++ vs ∧
      s.conditions d { q with filters := q.filters ++ [x] } = .ok (us ++ .one c :: vs) := by
  obtain ⟨filters, groups, searches, hfilters, hgroups, hsearches, rfl⟩ := conditions_eq_ok.mp h
  refine ⟨(s.filters.map clauseComparison).map .one ++ filters.map .one,
    groups.map .any ++ searches.map .any, by simp [hfilters.length_eq], by simp, ?_⟩
  refine conditions_eq_ok.mpr ⟨filters ++ [c], groups, searches, ?_, hgroups, hsearches, by simp⟩
  exact List.rel_append hfilters (.cons hx .nil)

theorem resolve_add_error (h : s.resolve d q includes = .ok r) {e : QueryError}
    (hx : s.filterComparison d x = .error e) :
    s.resolve d { q with filters := q.filters ++ [x] } includes = .error e := by
  obtain ⟨selected, columns, strip, conditions, -, -, hselected, hcolumns, hconditions, -⟩ :=
    resolve_eq_ok.mp h
  refine bind_eq_error.mpr (.inr ⟨selected, hselected, ?_⟩)
  refine bind_eq_error.mpr (.inr ⟨(columns, strip), hcolumns, ?_⟩)
  exact bind_eq_error.mpr (.inl (conditions_add_error hconditions hx))

theorem resolve_add (h : s.resolve d q includes = .ok r) {c : Comparison}
    (hx : s.filterComparison d x = .ok c) :
    ∃ us vs, us.length = s.filters.length + q.filters.length ∧ r.conditions = us ++ vs ∧
      s.resolve d { q with filters := q.filters ++ [x] } includes =
        .ok { r with conditions := us ++ .one c :: vs } := by
  obtain ⟨selected, columns, strip, conditions, groups, orders, hselected, hcolumns, hconditions,
    hgroups, horders, rfl⟩ := resolve_eq_ok.mp h
  obtain ⟨us, vs, hlength, hsplit, hadded⟩ := conditions_add hconditions hx
  refine ⟨us, vs, hlength, hsplit, resolve_eq_ok.mpr ?_⟩
  exact ⟨selected, columns, strip, _, groups, orders, hselected, hcolumns, hadded, hgroups,
    horders, rfl⟩

theorem exists_joins_append {xs ys : List String}
    (hxs : ∃ joins, (s.requiredJoins xs).mapM (join d derived) = .ok joins)
    (hys : ∃ joins, (s.requiredJoins ys).mapM (join d derived) = .ok joins) :
    ∃ joins, (s.requiredJoins (xs ++ ys)).mapM (join d derived) = .ok joins := by
  rw [exists_mapM_eq_ok] at hxs hys ⊢
  intro r hr
  obtain ⟨hmem, hneeds⟩ := mem_requiredJoins_iff.mp hr
  rcases needs_append.mp hneeds with hneeds | hneeds
  · exact hxs r (mem_requiredJoins_iff.mpr ⟨hmem, hneeds⟩)
  · exact hys r (mem_requiredJoins_iff.mpr ⟨hmem, hneeds⟩)

/-- One more condition needs the joins of its left-hand side besides those that are there. -/
theorem rowSelect_add {window : Option Window} {ordered : Bool} {sel : Select}
    (h : s.rowSelect d derived r window ordered = .ok sel) {us vs : List Condition}
    (hsplit : r.conditions = us ++ vs) {c : Comparison} {p : Predicate}
    (hp : c.predicate d = .ok p)
    (hjoins : ∃ joins, (s.requiredJoins [c.lhs.expr]).mapM (join d derived) = .ok joins) :
    ∃ sel', s.rowSelect d derived { r with conditions := us ++ .one c :: vs } window ordered =
        .ok sel' ∧ sel.Adds d us.length (p.fragments d) sel' := by
  obtain ⟨joins, conjuncts, hold, hconjuncts, rfl⟩ := rowSelect_eq_ok.mp h
  obtain ⟨front, back, rfl, hfront, hback⟩ := exists_append_of_forall₂ (hsplit ▸ hconjuncts)
  have hexprs (e : String) :
      e ∈ Resolved.rowExprs { r with conditions := us ++ .one c :: vs } ordered ↔
        e ∈ r.rowExprs ordered ++ [c.lhs.expr] := by
    simp only [Resolved.rowExprs, Resolved.exprs, Resolved.ordersIf, hsplit, List.mem_append,
      mem_addAllNew, List.flatMap_append, List.flatMap_cons, Condition.leftExprs]
    tauto
  have hsame := requiredJoins_congr (s := s) (fun e he => (hexprs e).mp he)
    fun e he => (hexprs e).mpr he
  obtain ⟨joins', hjoins'⟩ := exists_joins_append ⟨joins, mapM_eq_ok.mpr hold⟩ hjoins
  have hnew := mapM_eq_ok.mp hjoins'
  have hone : Condition.conjunct d (.one c) = .ok (.one p) := map_eq_ok.mpr ⟨p, hp, rfl⟩
  refine ⟨_, rowSelect_eq_ok.mpr ⟨joins', front ++ .one p :: back, ?_, ?_, rfl⟩, ?_, ?_⟩
  · rw [hsame]
    exact hnew
  · exact List.rel_append hfront (.cons hone hback)
  · exact ⟨front, .one p, back, hfront.length_eq.symm, rfl, rfl, rfl⟩
  · refine sublist_of_forall₂ (requiredJoins_sublist (List.subset_append_left _ _)) hnew hold ?_
    exact fun x y y' hy hy' => Except.ok.inj (hy.symm.trans hy')

end Add

end Schema

namespace Registry

variable {es : List EntityConfig} {reg : Registry} {d : Dialect} {s : Schema} {q : Query}
  {p : Plan} {f : Field} {column id : String}

/-! ## Joins of the primary key -/

/-- The relations that the expressions need can be joined. -/
def Joinable (reg : Registry) (d : Dialect) (s : Schema) (exprs : List String) : Prop :=
  ∃ joins, (s.requiredJoins exprs).mapM (Schema.join d (reg.derivedSelect d reg.size)) = .ok joins

theorem Joinable.mono {xs ys : List String} (h : reg.Joinable d s ys) (hsub : xs ⊆ ys) :
    reg.Joinable d s xs := by
  unfold Joinable at h ⊢
  rw [exists_mapM_eq_ok] at h ⊢
  exact fun r hr => h r ((Schema.requiredJoins_sublist hsub).subset hr)

/-- A key of a schema whose alias is a name needs no relation. -/
theorem joinable_key (hname : Expr.isName s.asName.toList = true) (hf : s.primaryField? = some f)
    (hcolumn : s.primaryColumn? = some column) : reg.Joinable d s [f.expr] := by
  rw [Schema.primaryColumn?, hf] at hcolumn
  have halias : Expr.aliases f.expr = [s.asName] := Field.aliases_of_columnOf? hcolumn hname
  have hnone : s.foreignAliases [f.expr] = [] := by simp [Schema.foreignAliases, halias]
  refine exists_mapM_eq_ok.mpr fun r hr => ?_
  obtain ⟨-, hneeds⟩ := Schema.mem_requiredJoins_iff.mp hr
  generalize r.asName = a at hneeds
  induction hneeds with
  | used hused => rw [hnone] at hused; cases hused
  | by_relation _ _ _ _ ih => exact ih

/-! ## Reading by an id -/

theorem compileOne_error (h : reg.compileAll d s q = .ok p) {e : QueryError}
    (hkey : s.filterComparison d (s.keyFilter id) = .error e) :
    reg.compileOne d s q id = .error e := by
  obtain ⟨includes, r, -, -, hincludes, hr, -⟩ := plan_eq_ok.mp h
  refine bind_eq_error.mpr (.inr ⟨includes, hincludes, ?_⟩)
  exact bind_eq_error.mpr (.inl (Schema.resolve_add_error hr hkey))

theorem compileOne_ok (h : reg.compileAll d s q = .ok p) {c : Comparison}
    (hkey : s.filterComparison d (s.keyFilter id) = .ok c) {pred : Predicate}
    (hpred : c.predicate d = .ok pred) (hjoins : reg.Joinable d s [c.lhs.expr]) :
    ∃ p', reg.compileOne d s q id = .ok p' ∧
      p.select.Adds d (s.filters.length + q.filters.length) (pred.fragments d) p'.select := by
  obtain ⟨includes, r, select, -, hincludes, hr, hselect, -, rfl⟩ := plan_eq_ok.mp h
  obtain ⟨us, vs, hlength, hsplit, hadded⟩ := Schema.resolve_add hr hkey
  obtain ⟨select', hselect', hadds⟩ := Schema.rowSelect_add hselect hsplit hpred hjoins
  refine ⟨_, plan_eq_ok.mpr ⟨includes, _, select', none, hincludes, hadded, hselect', rfl, rfl⟩, ?_⟩
  exact hlength ▸ hadds

/-- A statement that selects the row of an id has the relations of the key joined. -/
theorem joinable_of_compileOne (hf : s.primaryField? = some f) {p' : Plan}
    (h : reg.compileOne d s q id = .ok p') : reg.Joinable d s [f.expr] := by
  obtain ⟨includes, r, select, -, -, hr, hselect, -⟩ := plan_eq_ok.mp h
  obtain ⟨joins, _, hjoins, -, -⟩ := Schema.rowSelect_eq_ok.mp hselect
  obtain ⟨_, _, _, conditions, _, _, -, -, hconditions, -, -, rfl⟩ := Schema.resolve_eq_ok.mp hr
  obtain ⟨filters, groups, searches, hfilters, -, -, rfl⟩ := Schema.conditions_eq_ok.mp hconditions
  obtain ⟨c, hmem, hc⟩ := exists_of_mem_left hfilters (List.mem_append_right _ List.mem_cons_self)
  have hlhs : c.lhs = .plain f.expr := Schema.lhs_of_ofKey hf hc
  refine Joinable.mono ⟨joins, mapM_eq_ok.mpr hjoins⟩ fun e he => ?_
  obtain rfl := List.mem_singleton.mp he
  simp only [Resolved.rowExprs, Resolved.exprs, List.mem_append, Schema.mem_addAllNew,
    List.mem_flatMap]
  refine .inl (.inl (.inr (.inr ⟨.one c, ?_, by simp [Condition.leftExprs, hlhs, SqlTerm.expr]⟩)))
  exact .inl (.inl (.inr (List.mem_map_of_mem hmem)))

/-! ## Reading and writing by one id -/

/-- A read and a write by the id are about one row: both refuse it, or the statement that is read
has one condition more, by which the primary key is the value that the write compares its column
with. -/
structure SameRow (reg : Registry) (d : Dialect) (s : Schema) (q : Query) (p : Plan) (f : Field)
    (column id : String) : Prop where
  read_refused : reg.compileOne d s q id = .error ⟨.invalidValue, s.primaryKey⟩ ↔
    f.kind.sqlOfText? id = none
  write_refused : s.keyValue id = .error (.query ⟨.invalidValue, s.primaryKey⟩) ↔
    f.kind.sqlOfText? id = none
  bound : ∀ w, f.kind.sqlOfText? id = some w → s.keyValue id = .ok (column, w) ∧
    ∃ p', reg.compileOne d s q id = .ok p' ∧
      p.select.Adds d (s.filters.length + q.filters.length) (f.isValue d w) p'.select

section Key

variable (hp : reg.compileAll d s q = .ok p) (hf : s.primaryField? = some f)

include hp hf

/-- The word for NULL is tested for. -/
theorem compileOne_null (hjoins : reg.Joinable d s [f.expr]) (hword : IsNullWord id) :
    ∃ p', reg.compileOne d s q id = .ok p' ∧
      p.select.Adds d (s.filters.length + q.filters.length) (f.isNull d) p'.select := by
  have hkey : s.filterComparison d (s.keyFilter id) =
      .ok ⟨.plain f.expr, .eq, .null, s.primaryKey⟩ :=
    (Schema.filterComparison_ofKey hf).trans (by rw [if_pos hword]; rfl)
  obtain ⟨pred, hpred⟩ :
      ∃ pred, Comparison.predicate d ⟨.plain f.expr, .eq, .null, s.primaryKey⟩ = .ok pred :=
    ⟨_, rfl⟩
  obtain ⟨p', hp', hadds⟩ := compileOne_ok hp hkey hpred hjoins
  rcases Schema.fragments_of_ofKey hf hkey hpred with ⟨-, hfragments⟩ | ⟨hnot, -⟩
  · exact ⟨p', hp', hfragments ▸ hadds⟩
  · exact absurd hword hnot

/-- Any other id is looked for by its value. -/
theorem compileOne_value (hjoins : reg.Joinable d s [f.expr]) (hword : ¬ IsNullWord id)
    {w : SqlValue} (hw : f.kind.sqlOfText? id = some w) :
    ∃ p', reg.compileOne d s q id = .ok p' ∧
      p.select.Adds d (s.filters.length + q.filters.length) (f.isValue d w) p'.select := by
  have hkey : s.filterComparison d (s.keyFilter id) =
      .ok ⟨.plain f.expr, .eq, .value w, s.primaryKey⟩ :=
    Schema.filterComparison_ofKey_ok hf hword hw
  obtain ⟨pred, hpred⟩ :
      ∃ pred, Comparison.predicate d ⟨.plain f.expr, .eq, .value w, s.primaryKey⟩ = .ok pred :=
    ⟨_, rfl⟩
  obtain ⟨p', hp', hadds⟩ := compileOne_ok hp hkey hpred hjoins
  rcases Schema.fragments_of_ofKey hf hkey hpred with ⟨hnull, -⟩ | ⟨-, w', hw', hfragments⟩
  · exact absurd hnull hword
  · obtain rfl := Option.some.inj (hw'.symm.trans hw)
    exact ⟨p', hp', hfragments ▸ hadds⟩

/-- Where the word for NULL is a text of the key, too, the statements of the two conditions are
different; where it is none, the read is not refused. -/
theorem not_sameRow_of_null (hjoins : reg.Joinable d s [f.expr]) (hword : IsNullWord id) :
    ¬ reg.SameRow d s q p f column id := by
  obtain ⟨p', hp', hnull⟩ := compileOne_null hp hf hjoins hword
  intro h
  cases hvalue : f.kind.sqlOfText? id with
  | none =>
      have hrefused := h.read_refused.mpr hvalue
      rw [hp'] at hrefused
      cases hrefused
  | some w =>
      obtain ⟨-, p₁, hp₁, hadds⟩ := h.bound w hvalue
      obtain rfl := Except.ok.inj (hp'.symm.trans hp₁)
      exact absurd (congrArg List.length (hnull.unique hadds))
        (by simp [Field.isNull, Field.isValue])

variable (hcolumn : s.primaryColumn? = some column)

include hcolumn

theorem sameRow_iff_of_not_null (hword : ¬ IsNullWord id) :
    reg.SameRow d s q p f column id ↔
      f.kind.sqlOfText? id = none ∨ reg.Joinable d s [f.expr] := by
  have hwrite := Schema.keyValue_eq hf hcolumn id
  cases hvalue : f.kind.sqlOfText? id with
  | none =>
      have hread :=
        compileOne_error hp (Schema.filterComparison_ofKey_error (d := d) hf hword hvalue)
      rw [hvalue] at hwrite
      refine iff_of_true ⟨?_, ?_, ?_⟩ (.inl rfl)
      · exact iff_of_true hread hvalue
      · exact iff_of_true hwrite hvalue
      · rw [hvalue]
        exact fun w h => nomatch h
  | some w =>
      rw [hvalue] at hwrite
      constructor
      · intro h
        obtain ⟨-, p', hp', -⟩ := h.bound w hvalue
        exact .inr (joinable_of_compileOne hf hp')
      · rintro (hnone | hjoins)
        · cases hnone
        obtain ⟨p', hp', hadds⟩ := compileOne_value hp hf hjoins hword hvalue
        refine ⟨?_, ?_, ?_⟩
        · rw [hp', hvalue]
          exact iff_of_false nofun nofun
        · rw [hwrite, hvalue]
          exact iff_of_false nofun nofun
        · intro w' hw'
          obtain rfl := Option.some.inj (hvalue.symm.trans hw')
          exact ⟨hwrite, p', hp', hadds⟩

end Key

/-- Reading and writing by one id are about one row, unless the id is the word for NULL, in any
case of its letters, or the key itself needs a relation that cannot be joined. -/
theorem sameRow_iff (hreg : build es = .ok reg) (hs : s ∈ reg.schemas)
    (hp : reg.compileAll d s q = .ok p) :
    ∃ f column, s.primaryField? = some f ∧ s.primaryColumn? = some column ∧
      f.expr = s.asName ++ "." ++ column ∧
      (∀ id, ¬ IsNullWord id → (reg.SameRow d s q p f column id ↔
        f.kind.sqlOfText? id = none ∨ reg.Joinable d s [f.expr])) ∧
      ∀ id, IsNullWord id → reg.Joinable d s [f.expr] →
        ¬ reg.SameRow d s q p f column id ∧
          ∃ p', reg.compileOne d s q id = .ok p' ∧
            p.select.Adds d (s.filters.length + q.filters.length) (f.isNull d) p'.select := by
  obtain ⟨f, column, hf, hcolumn, hexpr⟩ :=
    ((build_eq_ok_iff_wellFormed.mp hreg).2.schemas s hs).exists_key
  refine ⟨f, column, hf, hcolumn, hexpr, ?_, ?_⟩
  · exact fun id hword => sameRow_iff_of_not_null hp hf hcolumn hword
  · exact fun id hword hjoins =>
      ⟨not_sameRow_of_null hp hf hjoins hword, compileOne_null hp hf hjoins hword⟩

end Registry

/-- The alias of orders is a name, so only the word for NULL is read in another way. -/
theorem Shop.orders_sameRow :
    ∃ p f column, Registry.build [ordersConfig, paymentsConfig] = .ok registry ∧
      registry.compileAll .postgres orders {} = .ok p ∧ orders.primaryField? = some f ∧
      orders.primaryColumn? = some column ∧
      ∀ id, registry.SameRow .postgres orders {} p f column id ↔ ¬ IsNullWord id := by
  obtain ⟨p, hp, -⟩ := exists_eq_ok (x := registry.compileAll .postgres orders {})
    (p := fun _ => true) (by decide +kernel)
  obtain ⟨f, column, hf, hcolumn, -, hvalue, hnull⟩ :=
    Registry.sameRow_iff build_eq (s := orders) (by decide) hp
  have hjoins : registry.Joinable .postgres orders [f.expr] :=
    Registry.joinable_key (by decide) hf hcolumn
  refine ⟨p, f, column, build_eq, hp, hf, hcolumn, fun id => ?_⟩
  by_cases hword : IsNullWord id
  · exact iff_of_false (hnull id hword hjoins).1 (not_not.mpr hword)
  · exact iff_of_true ((hvalue id hword).mpr (.inr hjoins)) hword

/-! ## A key that needs a relation

The alias has a blank in it, so the key looks as if it used the relation, and a condition of that
relation cannot be written. -/

namespace Blanks

def config : EntityConfig where
  name := "docs"
  table := "docs"
  asName := "x o"
  version := "1"
  fields := [⟨"id", "x o.id", .int, none⟩, ⟨"title", "title", .string, none⟩]
  relations := [⟨.left, some "owners", none, "o", [⟨"id", .gt, .null, none⟩]⟩]

def schema : Schema where
  name := "docs"
  table := "docs"
  asName := "x o"
  version := "1"
  primaryKey := "id"
  flat := false
  fields := [⟨"id", "x o.id", .int, false, false, {}⟩,
    ⟨"title", "title", .string, false, false, {}⟩]
  relations := [⟨.left, .table "owners", "o", [⟨"id", .gt, .value .null⟩]⟩]
  filters := []
  sorts := []
  groups := []
  children := []

theorem build_eq : Registry.build [config] = .ok ⟨[schema]⟩ := by
  cbv

/-- An id that means no number is read as a test for NULL, and one that means a number is
refused. -/
theorem not_sameRow :
    (∃ p p', Registry.build [Shop.ordersConfig, Shop.paymentsConfig] = .ok Shop.registry ∧
      Shop.registry.compileAll .postgres Shop.orders {} = .ok p ∧
      Shop.orders.primaryField?.map Field.kind = some .int ∧
      ScalarKind.int.sqlOfText? "null" = none ∧
      Shop.registry.compileOne .postgres Shop.orders {} "null" = .ok p' ∧
      p'.select.Requires .postgres [.text "\"o\".\"id\" IS NULL"]) ∧
    ∃ p, Registry.build [config] = .ok ⟨[schema]⟩ ∧
      Registry.compileAll ⟨[schema]⟩ .postgres schema { select := some [.field "title"] } = .ok p ∧
      schema.primaryField?.map Field.kind = some .int ∧
      ScalarKind.int.sqlOfText? "1" = some (.int 1) ∧
      Registry.compileOne ⟨[schema]⟩ .postgres schema { select := some [.field "title"] } "1" =
        .error ⟨.invalidValue, "id"⟩ := by
  obtain ⟨p, hp, -⟩ := exists_eq_ok
    (x := Shop.registry.compileAll .postgres Shop.orders {}) (p := fun _ => true)
    (by decide +kernel)
  obtain ⟨p', hp', hnull⟩ := exists_eq_ok
    (x := Shop.registry.compileOne .postgres Shop.orders {} "null")
    (p := fun p => decide (p.select.Requires .postgres [.text "\"o\".\"id\" IS NULL"]))
    (by decide +kernel)
  obtain ⟨p₁, hp₁, -⟩ := exists_eq_ok
    (x := Registry.compileAll ⟨[schema]⟩ .postgres schema { select := some [.field "title"] })
    (p := fun _ => true) (by decide +kernel)
  exact ⟨⟨p, p', Shop.build_eq, hp, rfl, by decide +kernel, hp', of_decide_eq_true hnull⟩, p₁,
    build_eq, hp₁, rfl, by decide +kernel, by rfl⟩

end Blanks

end EntityRest

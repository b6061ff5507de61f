import EntityRest.Proofs.Query.Scope
import EntityRest.Proofs.Schema.WellFormed

/-! # The order of joins

Relations are joined in the order in which they are declared. So a join condition finds the aliases
that it uses joined before it exactly if its relation is declared behind those that it refers to. -/

namespace EntityRest

open List (Forall₂)
open Schema (Covers)

/-! ## FROM clauses -/

/-- The base alias of a FROM clause, and for each join its alias and the expressions of its
condition. -/
structure FromClause where
  asName : String
  links : List (String × List String)
deriving DecidableEq

def joinLinks (joins : List Join) : List (String × List String) :=
  joins.map fun j => (j.head.asName, j.head.on.flatMap Predicate.exprs)

instance (asNames exprs : List String) : Decidable (Covers asNames exprs) :=
  inferInstanceAs (Decidable (∀ e ∈ exprs, ∀ a ∈ Expr.aliases e, a ∈ asNames))

namespace FromClause

/-- Every condition uses only its own alias and those that were seen before. -/
def UsableFrom : List String → List (String × List String) → Prop
  | _, [] => True
  | seen, (a, exprs) :: links => Covers (a :: seen) exprs ∧ UsableFrom (a :: seen) links

instance decidableUsableFrom :
    (seen : List String) → (links : List (String × List String)) → Decidable (UsableFrom seen links)
  | _, [] => inferInstanceAs (Decidable True)
  | seen, (a, exprs) :: links =>
    have := decidableUsableFrom (a :: seen) links
    inferInstanceAs (Decidable (Covers (a :: seen) exprs ∧ UsableFrom (a :: seen) links))

/-- Every condition uses only the base alias, its own alias and those joined before. -/
def Usable (fc : FromClause) : Prop := UsableFrom [fc.asName] fc.links

instance (fc : FromClause) : Decidable fc.Usable := decidableUsableFrom [fc.asName] fc.links

/-- Every condition uses only aliases of the clause. -/
def Closed (fc : FromClause) : Prop :=
  Covers (fc.asName :: fc.links.map Prod.fst) (fc.links.flatMap Prod.snd)

end FromClause

def Select.fromClause : Select → FromClause
  | .mk b joins => ⟨b.asName, joinLinks joins⟩

/-- The FROM clause of a count of rows. Groups are counted as the rows of another statement. -/
def Count.fromClause? : Count → Option FromClause
  | .groups _ => none
  | .rows _ _ asName joins _ => some ⟨asName, joinLinks joins⟩

/-- The FROM clauses of the statements of a plan, however deep they are nested. -/
def Plan.fromClauses (p : Plan) : List FromClause :=
  p.selects.map Select.fromClause ++ (p.count.bind Count.fromClause?).toList

/-! ## Declared relations -/

/-- The alias of a relation and the expressions of its condition. -/
def Relation.link (r : Relation) : String × List String :=
  (r.asName, r.conditions.flatMap Clause.exprs)

namespace Schema

variable {d : Dialect} {derived : String → Except QueryError Select} {s : Schema}

/-- The condition of the relation uses only the own alias of the schema, that of the relation, and
those of relations declared before it. -/
def RefersBack (s : Schema) (r : Relation) : Prop :=
  ∀ before after, s.relations = before ++ r :: after →
    Covers (s.asName :: r.asName :: before.map Relation.asName) r.link.2

/-- The FROM clause in which these relations are joined to the table of the schema. -/
def fromClause (s : Schema) (relations : List Relation) : FromClause :=
  ⟨s.asName, relations.map Relation.link⟩

theorem joinLinks_eq {relations : List Relation} {joins : List Join}
    (h : Forall₂ (fun r j => join d derived r = .ok j) relations joins) :
    joinLinks joins = relations.map Relation.link := by
  induction h with
  | nil => rfl
  | cons hj _ ih =>
      obtain ⟨hname, hexprs⟩ := join_spec hj
      rw [joinLinks, List.map_cons, hname, hexprs]
      exact congrArg (List.cons _) ih

/-! ## Joined relations -/

section Required

variable {reg : Registry} (hs : s.WellFormed reg) {exprs : List String}

include hs

/-- A declared relation is joined if the condition of a joined one uses its alias. -/
theorem mem_requiredJoins_of_uses {r r' : Relation} (hr : r ∈ s.requiredJoins exprs)
    (hr' : r' ∈ s.relations) (hown : r'.asName ≠ s.asName) {e : String} (he : e ∈ r.link.2)
    (huses : r'.asName ∈ Expr.aliases e) : r' ∈ s.requiredJoins exprs := by
  by_cases hsame : r'.asName = r.asName
  · have hnodup : (s.relations.map Relation.asName).Nodup := (List.nodup_cons.mp hs.aliases).2
    have heq : r' = r := List.inj_on_of_nodup_map hnodup hr' (mem_requiredJoins_iff.mp hr).1 hsame
    exact heq ▸ hr
  · refine mem_requiredJoins_of_references hr hr' hown (List.mem_filter.mpr ⟨?_, by simpa⟩)
    exact List.mem_flatMap.mpr ⟨e, he, huses⟩

theorem refersBack_iff {r : Relation} {before after : List Relation}
    (hsplit : s.relations = before ++ r :: after) :
    s.RefersBack r ↔ Covers (s.asName :: r.asName :: before.map Relation.asName) r.link.2 := by
  refine ⟨fun h => h before after hsplit, fun h before' after' hsplit' => ?_⟩
  have hnodup : (before ++ r :: after).Nodup :=
    hsplit ▸ List.Nodup.of_map Relation.asName (List.nodup_cons.mp hs.aliases).2
  obtain ⟨-, hbehind, hapart⟩ := List.nodup_append.mp hnodup
  have hbefore : r ∉ before := fun hmem => hapart r hmem r List.mem_cons_self rfl
  have hafter : r ∉ after := (List.nodup_cons.mp hbehind).1
  obtain ⟨rfl, -, -⟩ :=
    (List.append_cons_inj_of_notMem hbefore hafter).mp (hsplit.symm.trans hsplit')
  exact h

/-- Behind the relations that were joined so far, the others find their aliases joined exactly if
they refer back. -/
theorem usableFrom_iff {front back : List Relation} (hsplit : s.relations = front ++ back)
    {keep : Relation → Bool} (hkeep : s.requiredJoins exprs = s.relations.filter keep)
    {seen : List String}
    (hseen : ∀ a, a ∈ seen ↔ a = s.asName ∨ a ∈ (front.filter keep).map Relation.asName) :
    FromClause.UsableFrom seen ((back.filter keep).map Relation.link) ↔
      ∀ r ∈ back.filter keep, s.RefersBack r := by
  induction back generalizing front seen with
  | nil => simp [FromClause.UsableFrom]
  | cons r back ih =>
      have hnext : s.relations = (front ++ [r]) ++ back := by simp [hsplit]
      cases hr : keep r with
      | false =>
          rw [List.filter_cons_of_neg (by simp [hr])]
          refine ih hnext fun a => ?_
          rw [List.filter_append, List.filter_cons_of_neg (by simp [hr]), List.filter_nil,
            List.append_nil, hseen]
      | true =>
          have hmem : r ∈ s.requiredJoins exprs := by
            rw [hkeep, hsplit]
            exact List.mem_filter.mpr ⟨List.mem_append_right _ List.mem_cons_self, hr⟩
          rw [List.filter_cons_of_pos hr, List.map_cons, Relation.link, FromClause.UsableFrom,
            List.forall_mem_cons]
          refine and_congr ?_ (ih hnext fun a => ?_)
          · rw [refersBack_iff hs hsplit]
            refine forall₂_congr fun e he => forall₂_congr fun a ha => ?_
            simp only [List.mem_cons, hseen, List.mem_map, List.mem_filter]
            constructor
            · rintro (rfl | rfl | ⟨r', ⟨hr', -⟩, rfl⟩)
              · exact .inr (.inl rfl)
              · exact .inl rfl
              · exact .inr (.inr ⟨r', hr', rfl⟩)
            · rintro (rfl | rfl | ⟨r', hr', rfl⟩)
              · exact .inr (.inl rfl)
              · exact .inl rfl
              · by_cases hown : r'.asName = s.asName
                · exact .inr (.inl hown)
                · have hdeclared : r' ∈ s.relations := hsplit ▸ List.mem_append_left _ hr'
                  have hjoined := mem_requiredJoins_of_uses hs hmem hdeclared hown he ha
                  rw [hkeep] at hjoined
                  exact .inr (.inr ⟨r', ⟨hr', (List.mem_filter.mp hjoined).2⟩, rfl⟩)
          · rw [List.filter_append, List.filter_cons_of_pos hr, List.filter_nil, List.map_append,
              List.mem_append, List.map_singleton, List.mem_singleton, List.mem_cons, hseen]
            tauto

/-- What the conditions of joined relations use is joined; and it is joined before, exactly where
the relations refer back. -/
theorem fromClause_requiredJoins :
    (s.fromClause (s.requiredJoins exprs)).Closed ∧
      ((s.fromClause (s.requiredJoins exprs)).Usable ↔
        ∀ r ∈ s.requiredJoins exprs, s.RefersBack r) := by
  constructor
  · intro e he
    obtain ⟨link, hlink, he⟩ := List.mem_flatMap.mp he
    obtain ⟨r, hr, rfl⟩ := List.mem_map.mp hlink
    have hdeclared : r ∈ s.relations := (mem_requiredJoins_iff.mp hr).1
    have hcovers := covers_conditions hr fun e he =>
      hs.declared e (mem_exprs_of_relation hdeclared he)
    have hnames : (s.fromClause (s.requiredJoins exprs)).links.map Prod.fst =
        (s.requiredJoins exprs).map Relation.asName := by
      rw [fromClause, List.map_map]
      rfl
    rw [hnames]
    exact hcovers e he
  · have hseen : ∀ a, a ∈ [s.asName] ↔
        a = s.asName ∨ a ∈ (([] : List Relation).filter fun r => (s.needAll s.relations.length
          (s.foreignAliases exprs)).contains r.asName).map Relation.asName := by simp
    exact usableFrom_iff hs (List.nil_append _).symm rfl hseen

end Required

end Schema

namespace Registry

variable {es : List EntityConfig} {reg : Registry} {d : Dialect} {s : Schema} {q : Query}
  {relations : List Relation}

/-- The FROM clause joins relations of a schema in the order in which they are declared. Their
conditions use only what is joined there, and each uses only what is joined before it exactly if
they all refer back. -/
def InDeclaredOrder (reg : Registry) (fc : FromClause) : Prop :=
  ∃ t ∈ reg.schemas, ∃ relations, relations.Sublist t.relations ∧ fc = t.fromClause relations ∧
    fc.Closed ∧ (fc.Usable ↔ ∀ r ∈ relations, t.RefersBack r)

theorem inDeclaredOrder_of_joins (hreg : reg.WellFormed) (hs : s ∈ reg.schemas)
    {derived : String → Except QueryError Select} {exprs : List String} {joins : List Join}
    (h : Forall₂ (fun r j => Schema.join d derived r = .ok j) (s.requiredJoins exprs) joins) :
    reg.InDeclaredOrder ⟨s.asName, joinLinks joins⟩ := by
  rw [Schema.joinLinks_eq h]
  exact ⟨s, hs, s.requiredJoins exprs, List.filter_sublist, rfl,
    Schema.fromClause_requiredJoins (hreg.schemas s hs)⟩

theorem Reads.inDeclaredOrder (hreg : reg.WellFormed) (hs : s ∈ reg.schemas) {t : Select}
    (h : reg.Reads d s q t) : reg.InDeclaredOrder t.fromClause := by
  obtain ⟨includes, r, depth, window, ordered, -, hrow⟩ := h
  obtain ⟨joins, conjuncts, hjoins, -, rfl⟩ := Schema.rowSelect_eq_ok.mp hrow
  exact inDeclaredOrder_of_joins hreg hs hjoins

theorem Counts.inDeclaredOrder (hreg : reg.WellFormed) (hs : s ∈ reg.schemas) {c : Count}
    (h : reg.Counts d s q c) : ∀ fc ∈ c.fromClause?, reg.InDeclaredOrder fc := by
  obtain ⟨includes, r, depth, -, hcount⟩ := h
  intro fc hfc
  cases hgrouped : r.isGrouped with
  | true =>
      obtain ⟨inner, -, rfl⟩ := (Schema.countSelect_eq_ok_of_isGrouped hgrouped).mp hcount
      cases hfc
  | false =>
      obtain ⟨joins, conjuncts, hjoins, -, rfl⟩ :=
        (Schema.countSelect_eq_ok_of_not_isGrouped hgrouped).mp hcount
      obtain rfl := Option.some.inj hfc
      exact inDeclaredOrder_of_joins hreg hs hjoins

/-- In every statement of a plan, relations are joined in declared order. So a condition finds what
it uses joined before it exactly if the joined relations refer back. -/
theorem inDeclaredOrder_of_compileAs (hreg : build es = .ok reg) (hs : s ∈ reg.schemas)
    {m : ReadMode} {p : Plan} (h : reg.compileAs d s q m = .ok p) :
    ∀ fc ∈ p.fromClauses, reg.InDeclaredOrder fc := by
  have hwf := (build_eq_ok_iff_wellFormed.mp hreg).2
  intro fc hfc
  rcases List.mem_append.mp hfc with hfc | hfc
  · obtain ⟨t, ht, rfl⟩ := List.mem_map.mp hfc
    rcases reads_of_mem_selects h ht with hreads | ⟨s', hs', hreads⟩
    · exact hreads.inDeclaredOrder hwf hs
    · exact hreads.inDeclaredOrder hwf hs'
  · obtain ⟨c, hc, hfc⟩ := Option.bind_eq_some_iff.mp (Option.mem_toList.mp hfc)
    exact ((reads_of_compileAs h).2 c hc).inDeclaredOrder hwf hs fc hfc

end Registry

/-- Orders join only payments, and the condition of these refers to orders. -/
theorem Shop.request_usable :
    ∃ p, Registry.build [ordersConfig, paymentsConfig] = .ok registry ∧
      registry.compileAs .postgres orders (request "a" "1" "b" "2" "c") (.page ⟨10, 100⟩) =
        .ok p ∧ p.count.isSome ∧ ∀ fc ∈ p.fromClauses, fc.Usable := by
  obtain ⟨p, hp, hcount⟩ := exists_eq_ok
    (x := registry.compileAs .postgres orders (request "a" "1" "b" "2" "c") (.page ⟨10, 100⟩))
    (p := fun p => p.count.isSome) (by decide +kernel)
  have hs : orders ∈ registry.schemas := by decide
  have hwf := (Registry.build_eq_ok_iff_wellFormed.mp build_eq).2
  refine ⟨p, build_eq, hp, hcount, fun fc hfc => ?_⟩
  obtain ⟨t, ht, relations, hrelations, -, -, husable⟩ :=
    Registry.inDeclaredOrder_of_compileAs build_eq hs hp fc hfc
  refine husable.mpr fun r hr => ?_
  have hdeclared : r ∈ t.relations := hrelations.subset hr
  rcases List.mem_cons.mp ht with rfl | ht
  · obtain rfl := List.mem_singleton.mp hdeclared
    refine (Schema.refersBack_iff (hwf.schemas _ hs) (List.nil_append _).symm).mpr ?_
    decide +kernel
  · obtain rfl := List.mem_singleton.mp ht
    cases hdeclared

/-! ## Relations declared the other way round

The city of a document is that of its owner, and the cities are declared before the owners. -/

namespace Owners

def config : EntityConfig where
  name := "docs"
  table := "docs"
  asName := "d"
  version := "1"
  fields := [⟨"id", "d.id", .int, none⟩, ⟨"city", "c.name", .string, none⟩]
  relations := [⟨.left, some "cities", none, "c", [⟨"c.id", .eq, .null, some "o.city_id"⟩]⟩,
    ⟨.left, some "owners", none, "o", [⟨"o.id", .eq, .null, some "d.owner_id"⟩]⟩]

def schema : Schema where
  name := "docs"
  table := "docs"
  asName := "d"
  version := "1"
  primaryKey := "id"
  flat := false
  fields := [⟨"id", "d.id", .int, false, false, {}⟩, ⟨"city", "c.name", .string, false, false, {}⟩]
  relations := [⟨.left, .table "cities", "c", [⟨"c.id", .eq, .column "o.city_id"⟩]⟩,
    ⟨.left, .table "owners", "o", [⟨"o.id", .eq, .column "d.owner_id"⟩]⟩]
  filters := []
  sorts := []
  groups := []
  children := []

/-- Both are joined, but the owners behind the cities that refer to them. -/
theorem not_usable :
    ∃ p, Registry.build [config] = .ok ⟨[schema]⟩ ∧
      Registry.compileAs ⟨[schema]⟩ .postgres schema {} .all = .ok p ∧
      ¬ ∀ fc ∈ p.fromClauses, fc.Usable := by
  have hbuild : Registry.build [config] = .ok ⟨[schema]⟩ := by cbv
  obtain ⟨p, hp, hopen⟩ := exists_eq_ok
    (x := Registry.compileAs ⟨[schema]⟩ .postgres schema {} .all)
    (p := fun p => decide (¬ ∀ fc ∈ p.fromClauses, fc.Usable)) (by decide +kernel)
  exact ⟨p, hbuild, hp, of_decide_eq_true hopen⟩

end Owners

end EntityRest

import EntityRest.Proofs.Service.Expansion
import EntityRest.Proofs.Service.Reads

/-! # Depth of requests

The template of a child list names the entity of the list, and may include lists of that entity.
Where no entity leads back to itself in this way, children nest at most as deep as there are
entities, and every list or single row is read in full. -/

namespace EntityRest

/-! ## Entities that follow each other -/

/-- The template includes further lists. -/
def Child.Includes (c : Child) : Prop := "$include" ∈ (splitPairs c.filter).map Prod.fst

instance (c : Child) : Decidable c.Includes := inferInstanceAs (Decidable (_ ∈ _))

namespace Registry

/-- A child list of the first entity is of the second one and includes lists of it. -/
def Unfolds (reg : Registry) (a b : String) : Prop :=
  ∃ s ∈ reg.schemas, s.name = a ∧ ∃ c ∈ s.children, c.entity = b ∧ c.Includes

variable {reg : Registry} {a b : String}

theorem mem_names_of_unfolds (hreg : reg.WellFormed) (h : reg.Unfolds a b) : b ∈ reg.names := by
  obtain ⟨s, hs, -, c, hc, rfl, -⟩ := h
  exact ((hreg.schemas s hs).children c hc).1

theorem includes_of_compileAll {d : Dialect} {s : Schema} {q : Query} {p : Plan}
    (h : reg.compileAll d s q = .ok p) (hp : p.includes ≠ []) : q.includes ≠ [] := by
  obtain ⟨includes, r, select, count, hkeys, -, -, -, rfl⟩ := plan_eq_ok.mp h
  rintro hq
  rw [includeKeys, hq] at hkeys
  exact hp (Except.ok.inj hkeys).symm

end Registry

namespace Child

/-- Only a template with lists of its own asks for lists. -/
theorem includes_of_ofPairs {c : Child} {row : Row} {pairs : Pairs} {q : Query}
    (h : c.instantiate row = some pairs) (hq : Query.ofPairs pairs = .ok q)
    (hincludes : q.includes ≠ []) : c.Includes := by
  rw [← (Query.takenFrom_of_ofPairs hq).includes] at hincludes
  obtain ⟨item, hitem⟩ := List.exists_mem_of_ne_nil _ hincludes
  obtain ⟨value, hvalue, -⟩ := List.mem_flatMap.mp hitem
  obtain ⟨asked, hasked, -⟩ := List.mem_map.mp hvalue
  obtain ⟨hmem, hname⟩ := List.mem_filter.mp hasked
  rw [instantiate_eq_changeValues, changeValues_eq_some] at h
  obtain ⟨pair, hpair, hkey, -⟩ := exists_of_mem_right h hmem
  exact List.mem_map.mpr ⟨pair, hpair, hkey.trans (of_decide_eq_true hname)⟩

end Child

namespace Service

variable {σ κ : Type} {sv : Service σ κ} {s t : Schema} {p p' : Plan}

/-- A plan that includes lists is made only if the entities follow each other. -/
theorem unfolds_of_expands (hs : s ∈ sv.registry.schemas)
    (h : sv.Expands (s, p) (t, p')) (hp' : p'.includes ≠ []) :
    sv.registry.Unfolds s.name t.name := by
  obtain ⟨raw, front, key, back, -, -, hplan⟩ := h
  obtain ⟨c, hc, ht⟩ := exists_child_of_childPlan hplan
  obtain ⟨-, pairs, q, hpairs, hq, hcompile⟩ := (childPlan_eq_ok_some hc ht).mp hplan
  have hq' := Registry.includes_of_compileAll hcompile hp'
  exact ⟨s, hs, rfl, c, List.mem_of_find?_eq_some hc, (Registry.name_of_get? ht).symm,
    Child.includes_of_ofPairs hpairs hq hq'⟩

/-- The entity of a plan that more than `k` plans follow leads to `k` other entities. -/
theorem exists_names_of_nests (hreg : sv.registry.WellFormed)
    (hacyclic : ∀ name, ¬ Relation.TransGen sv.registry.Unfolds name name) {k : Nat}
    (hs : s ∈ sv.registry.schemas) (h : sv.Nests (k + 1) (s, p)) :
    ∃ names : List String, names.length = k ∧ names.Nodup ∧ names ⊆ sv.registry.names ∧
      ∀ name ∈ names, Relation.TransGen sv.registry.Unfolds s.name name := by
  induction k generalizing s p with
  | zero => exact ⟨[], rfl, List.nodup_nil, List.nil_subset _, List.forall_mem_nil _⟩
  | succ k ih =>
      obtain ⟨⟨t, p'⟩, hexpands, hnests⟩ := h
      obtain ⟨names, hlength, hnodup, hsub, hleads⟩ := ih hexpands.mem hnests
      -- only a plan with lists is followed by another one, so the template before it includes them
      have hincludes : p'.includes ≠ [] := by
        obtain ⟨y, ⟨_, _, _, _, hkeys, -⟩, -⟩ := hnests
        exact fun hnone => by simp [hnone] at hkeys
      have hfirst := unfolds_of_expands hs hexpands hincludes
      refine ⟨t.name :: names, by simp [hlength], ?_, ?_, ?_⟩
      · exact List.nodup_cons.mpr ⟨fun hmem => hacyclic _ (hleads _ hmem), hnodup⟩
      · exact List.cons_subset.mpr ⟨Registry.mem_names_of_unfolds hreg hfirst, hsub⟩
      · refine List.forall_mem_cons.mpr ⟨.single hfirst, fun name hname => ?_⟩
        exact .head hfirst (hleads name hname)

/-- If no entity leads back to itself, no plan is followed by more plans than there are entities. -/
theorem not_nests_of_acyclic (hreg : sv.registry.WellFormed)
    (hacyclic : ∀ name, ¬ Relation.TransGen sv.registry.Unfolds name name)
    (hs : s ∈ sv.registry.schemas) : ¬ sv.Nests (sv.registry.size + 1) (s, p) := by
  intro h
  obtain ⟨names, hlength, hnodup, hsub, hleads⟩ := exists_names_of_nests hreg hacyclic hs h
  have hnodup' : (s.name :: names).Nodup :=
    List.nodup_cons.mpr ⟨fun hmem => hacyclic _ (hleads _ hmem), hnodup⟩
  have hsub' : s.name :: names ⊆ sv.registry.names :=
    List.cons_subset.mpr ⟨List.mem_map_of_mem hs, hsub⟩
  have hle := (hnodup'.subperm hsub').length_le
  rw [List.length_cons, hlength, Registry.names, List.length_map, ← Registry.size] at hle
  omega

/-! ## Requests -/

/-- The same service, with children nested that deep. -/
def limited (sv : Service σ κ) (n : Nat) : Service σ κ := { sv with nesting := n }

theorem rows_limited (sv : Service σ κ) (n k : Nat) : (sv.limited n).rows k = sv.rows k :=
  sv.rows_eq sv.cache n k

theorem ends_cached? (key : String) : Ends (sv.cached? key) := by
  rintro w ⟨⟩

theorem ends_store (key body : String) : Ends (sv.store key body) := by
  rintro w ⟨⟩

theorem settled_throughCache {key : String} {answer answer' : Work (World σ κ) Json}
    (h : sv.Settled answer answer') :
    sv.Settled (sv.throughCache key answer) (sv.throughCache key answer') := by
  refine (Settled.of_ends (ends_cached? key)).bind fun found => ?_
  cases found with
  | some body => exact .of_ends (.pure body)
  | none =>
      refine h.bind fun document => ?_
      exact .of_ends (.bind (ends_store key document.render) fun _ => .pure document.render)

theorem settled_pageMeta (p : Plan) : sv.Settled (sv.pageMeta p) (sv.pageMeta p) := by
  unfold pageMeta
  cases p.count with
  | none => exact .of_ends (.pure none)
  | some count => exact (settled_fetch _).bind fun counted => .of_ends (.pure _)

theorem settled_document {n m : Nat} (h : sv.Settled (sv.rows n s p) (sv.rows m s p))
    (r : ReadRequest) :
    sv.Settled ((sv.limited n).document s r p) ((sv.limited m).document s r p) := by
  have hrows : sv.Settled ((sv.limited n).rows (sv.limited n).nesting s p)
      ((sv.limited m).rows (sv.limited m).nesting s p) := by
    rw [rows_limited, rows_limited]
    exact h
  unfold document
  cases r.id? with
  | none =>
      exact hrows.bind fun data => (settled_pageMeta p).bind fun page => .of_ends (.pure _)
  | some id =>
      refine hrows.bind fun data => ?_
      cases data with
      | nil => exact .of_ends (.throw (by simp))
      | cons row rest => exact .of_ends (.pure _)

/-- A request is answered alike with limits under which the plans of its entity have the same
rows. -/
theorem settled_serve {n m : Nat}
    (h : ∀ s ∈ sv.registry.schemas, ∀ p, sv.Settled (sv.rows n s p) (sv.rows m s p))
    (r : ReadRequest) : sv.Settled ((sv.limited n).serve r) ((sv.limited m).serve r) := by
  cases hs : sv.registry.get? r.entity with
  | none =>
      have hs' (l : Nat) : (sv.limited l).registry.get? r.entity = none := hs
      rw [serve_of_get?_eq_none _ (hs' n), serve_of_get?_eq_none _ (hs' m)]
      exact .of_ends (.throw (by simp))
  | some s =>
      have hs' (l : Nat) : (sv.limited l).registry.get? r.entity = some s := hs
      rw [serve_of_get? _ (hs' n), serve_of_get? _ (hs' m), fresh_of_get? _ (hs' n),
        fresh_of_get? _ (hs' m)]
      refine settled_throughCache ((Settled.of_ends (.lift _ _)).bind fun p => ?_)
      exact settled_document (h s (Registry.mem_of_get? hs) p) r

/-- Where no entity leads back to itself, children nest at most as deep as there are entities: a
larger limit changes no list and no single row, and each of them is read in full if the database
answers. In any case children can nest so deep exactly if so many plans can follow each other, each
of them made from a row of the one before. -/
theorem nesting_bounded {configs : List EntityConfig}
    (hbuild : Registry.build configs = .ok sv.registry) :
    ((∀ name, ¬ Relation.TransGen sv.registry.Unfolds name name) →
      (∀ s ∈ sv.registry.schemas, ∀ p, ¬ sv.Nests (sv.registry.size + 1) (s, p)) ∧
      ∀ r n, sv.registry.size < n →
        (sv.limited n).serve r = (sv.limited (sv.registry.size + 1)).serve r ∧
        (sv.database.Responsive → Ends ((sv.limited n).serve r))) ∧
    ∀ s ∈ sv.registry.schemas, ∀ p k (w : World σ κ), sv.Nests k (s, p) ↔
      ∃ (db : Database (List (List Row))) (script : List (List Row)),
        db.dialect = sv.database.dialect ∧ db.Responsive ∧
          Stalls ((sv.withDatabase db).rows k s p) (w.withDatabase script) := by
  have hreg := (Registry.build_eq_ok_iff_wellFormed.mp hbuild).2
  refine ⟨fun hacyclic => ?_, fun s hs p k w => nests_iff hreg hs w⟩
  have hnests : ∀ s ∈ sv.registry.schemas, ∀ p, ¬ sv.Nests (sv.registry.size + 1) (s, p) :=
    fun s hs p => not_nests_of_acyclic hreg hacyclic hs
  refine ⟨hnests, fun r n hn => ?_⟩
  have hserve : sv.Settled ((sv.limited (sv.registry.size + 1)).serve r) ((sv.limited n).serve r) :=
    settled_serve (fun s hs p => settled_rows hreg hs (hnests s hs p) hn) r
  exact ⟨hserve.same.symm, fun hdb => hserve.same ▸ hserve.ends hdb⟩

end Service

/-! ## Authors with their books and reviews -/

/-- An entity whose columns are numbers. -/
def EntityConfig.ofNumbers (name asName : String) (columns : List String)
    (children : List ChildConfig) : EntityConfig where
  name := name
  table := name
  asName := asName
  version := "1"
  fields := columns.map fun column => ⟨column, asName ++ "." ++ column, .int, none⟩
  children := children

/-- The schema of such an entity, if there is a column `id`. -/
def Schema.ofNumbers (name asName : String) (columns : List String) (children : List Child) :
    Schema where
  name := name
  table := name
  asName := asName
  version := "1"
  primaryKey := "id"
  flat := false
  fields := columns.map fun column => ⟨column, asName ++ "." ++ column, .int, false, false, {}⟩
  relations := []
  filters := []
  sorts := []
  groups := []
  children := children

namespace Authors

def authors : Schema :=
  .ofNumbers "authors" "a" ["id"] [⟨"books", "books", "author={id}&$include=reviews"⟩]

def books : Schema :=
  .ofNumbers "books" "b" ["id", "author"] [⟨"reviews", "reviews", "book={id}"⟩]

def reviews : Schema := .ofNumbers "reviews" "r" ["id", "book"] []

def configs : List EntityConfig := [
  .ofNumbers "authors" "a" ["id"] [⟨"books", "books", "author={id}&$include=reviews"⟩],
  .ofNumbers "books" "b" ["id", "author"] [⟨"reviews", "reviews", "book={id}"⟩],
  .ofNumbers "reviews" "r" ["id", "book"] []]

/-- The database answers every statement with the row of the number 1. -/
def service : Service Unit LocalCache where
  registry := ⟨[authors, books, reviews]⟩
  database := ⟨.postgres, fun _ x => (.ok [[("id", .ofInt64 1)]], x), fun _ x => (.ok 1, x),
    fun _ => true⟩
  cache := .ofLocal
  settings := {}
  translator := .empty "en"
  nesting := 4

theorem build_eq : Registry.build configs = .ok service.registry := by cbv

theorem of_unfolds {a b : String} (h : service.registry.Unfolds a b) :
    a = "authors" ∧ b = "books" := by
  have hall : ∀ s ∈ service.registry.schemas, ∀ c ∈ s.children, c.Includes →
      s.name = "authors" ∧ c.entity = "books" := by decide +kernel
  obtain ⟨s, hs, rfl, c, hc, rfl, hincludes⟩ := h
  exact hall s hs c hc hincludes

theorem acyclic (name : String) : ¬ Relation.TransGen service.registry.Unfolds name name := by
  intro h
  obtain ⟨_, hfirst, -⟩ := Relation.TransGen.head'_iff.mp h
  obtain ⟨_, -, hlast⟩ := Relation.TransGen.tail'_iff.mp h
  obtain ⟨rfl, -⟩ := of_unfolds hfirst
  exact absurd (of_unfolds hlast).2 (by decide)

def one : Row := [("id", .ofInt64 1)]

/-- The books of an author have reviews. -/
theorem nests_two {p : Plan} (hp : p.includes = ["books"]) : service.Nests 2 (authors, p) := by
  obtain ⟨_ | ⟨t, p'⟩, hbooks, hparts⟩ := exists_eq_ok
    (x := service.childPlan authors "books" (authors.normalize one))
    (p := fun x => x.any fun (t, p') => decide (t = books ∧ p'.includes = ["reviews"]))
    (by decide +kernel)
  · cases hparts
  obtain ⟨rfl, hp'⟩ := of_decide_eq_true hparts
  obtain ⟨_ | y, hreviews, hy⟩ := exists_eq_ok
    (x := service.childPlan books "reviews" (books.normalize one)) (p := Option.isSome)
    (by decide +kernel)
  · cases hy
  exact ⟨_, ⟨one, [], "books", [], hp, List.forall_mem_nil _, hbooks⟩,
    _, ⟨one, [], "reviews", [], hp', List.forall_mem_nil _, hreviews⟩, trivial⟩

/-- Every request on authors, books and reviews ends, but two levels are not always enough. -/
theorem nesting_four :
    (∀ r n, 3 < n → (service.limited n).serve r = (service.limited 4).serve r ∧
      Ends ((service.limited n).serve r)) ∧
    ∃ (p : Plan) (db : Database (List (List Row))) (script : List (List Row)),
      service.registry.compileAll .postgres authors { includes := ["books"] } = .ok p ∧
        db.dialect = .postgres ∧ db.Responsive ∧
        Stalls ((service.withDatabase db).rows 2 authors p) ⟨script, {}, 0, []⟩ := by
  obtain ⟨hlimits, hnests⟩ := Service.nesting_bounded build_eq
  constructor
  · intro r n hn
    obtain ⟨hsame, hends⟩ := (hlimits acyclic).2 r n hn
    exact ⟨hsame, hends (by rintro st x ⟨⟩)⟩
  · obtain ⟨p, hplan, hp⟩ := exists_eq_ok
      (x := service.registry.compileAll .postgres authors { includes := ["books"] })
      (p := fun p => decide (p.includes = ["books"])) (by decide +kernel)
    have hauthors : authors ∈ service.registry.schemas := List.mem_cons_self
    obtain ⟨db, script, hd, hdb, hstalls⟩ :=
      (hnests authors hauthors p 2 ⟨(), {}, 0, []⟩).mp (nests_two (of_decide_eq_true hp))
    exact ⟨p, db, script, hplan, hd, hdb, hstalls⟩

end Authors

/-! ## Nodes with nodes -/

namespace Nodes

def nodes : Schema :=
  .ofNumbers "nodes" "n" ["id", "parent"] [⟨"kids", "nodes", "parent={id}&$include=kids"⟩]

def nodesConfig : EntityConfig :=
  .ofNumbers "nodes" "n" ["id", "parent"] [⟨"kids", "nodes", "parent={id}&$include=kids"⟩]

/-- The database answers every statement with the node of the number 1, which is its own parent. -/
def service : Service Unit LocalCache where
  registry := ⟨[nodes]⟩
  database := ⟨.postgres,
    fun _ x => (.ok [[("id", .ofInt64 1), ("parent", .ofInt64 1)]], x), fun _ x => (.ok 1, x),
    fun _ => true⟩
  cache := .ofLocal
  settings := {}
  translator := .empty "en"
  nesting := 2

def world : World Unit LocalCache := ⟨(), {}, 0, []⟩

/-- The list of all nodes, with the kids of each. -/
def withKids : ReadRequest := ⟨"nodes", none, [("$include", "kids")]⟩

/-- The node of the number 1 has its kids fetched, and the kids of each of them. -/
theorem rows_stalls {p : Plan} (hp : p.includes = ["kids"]) (k : Nat) :
    Stalls (service.rows k nodes p) world := by
  induction k generalizing p with
  | zero => rfl
  | succ k ih =>
      let raw : Row := [("id", .ofInt64 1), ("parent", .ofInt64 1)]
      obtain ⟨_ | ⟨t, p'⟩, hkids, hparts⟩ := exists_eq_ok
        (x := service.childPlan nodes "kids" (nodes.normalize raw))
        (p := fun x => x.any fun (t, p') => decide (t = nodes ∧ p'.includes = ["kids"]))
        (by decide +kernel)
      · cases hparts
      obtain ⟨rfl, hp'⟩ := of_decide_eq_true hparts
      have hfetch : (service.fetch (p.select.fragments .postgres)).outcome world =
          (.ok [raw], world) := rfl
      refine (stalls_bind_iff hfetch _).mpr ?_
      rw [Service.finish, hp, Service.expand_cons, hkids]
      exact ((ih hp').bind _).bind _

/-- A registry of one entity is built, and the database answers every statement with one row. Still
the list of all nodes with their kids does not end, however deep children may nest. -/
theorem kids_not_bounded :
    Registry.build [nodesConfig] = .ok service.registry ∧ service.registry.size = 1 ∧
      (∀ st x, ∃ row, (service.database.fetch st x).1 = .ok [row]) ∧
      ∀ n, Stalls ((service.limited n).serve withKids) world := by
  refine ⟨by cbv, rfl, fun st x => ⟨_, rfl⟩, fun n => ?_⟩
  obtain ⟨p, hplan, hp⟩ := exists_eq_ok (x := service.planOf nodes withKids)
    (p := fun p => decide (p.includes = ["kids"])) (by decide +kernel)
  have hplan : (service.limited n).planOf nodes withKids = .ok p := hplan
  have hnodes : (service.limited n).registry.get? withKids.entity = some nodes := rfl
  have hlookup : ((service.limited n).cached? withKids.key).outcome world = (.ok none, world) := rfl
  rw [Service.serve_of_get? _ hnodes, Service.fresh_of_get? _ hnodes, hplan]
  refine (stalls_bind_iff hlookup _).mpr ?_
  have hrows : Stalls ((service.limited n).rows n nodes p) world := by
    rw [Service.rows_limited]
    exact rows_stalls (of_decide_eq_true hp) n
  exact (hrows.bind _).bind _

end Nodes

end EntityRest

import EntityRest.Proofs.Query.Join
import Mathlib.Logic.Relation
import Mathlib.Order.Bounds.Basic

/-! # Required joins as a least closed set

The rounds in which needed aliases are collected end, after at most one more round than there are
relations. What is joined then are the relations with aliases in the least set that has the aliases
of the expressions and, with the alias of a relation, those in its join conditions: the aliases that
can be reached from the expressions over join conditions. -/

namespace EntityRest

/-- The relation has the alias on one of the two sides of a join condition. -/
def Relation.Uses (r : Relation) (a : String) : Prop :=
  ∃ c ∈ r.conditions, a ∈ Expr.aliases c.column ∨ ∃ x, c.operand = .column x ∧ a ∈ Expr.aliases x

theorem Relation.mem_references {r : Relation} {a : String} :
    a ∈ r.references ↔ r.Uses a ∧ a ≠ r.asName := by
  have hsides (c : Clause) : (∃ e ∈ c.exprs, a ∈ Expr.aliases e) ↔
      a ∈ Expr.aliases c.column ∨ ∃ x, c.operand = .column x ∧ a ∈ Expr.aliases x := by
    unfold Clause.exprs
    split <;> rename_i hoperand <;> simp [hoperand]
  rw [Relation.Uses, ← exists_congr fun c => and_congr_right fun _ => hsides c]
  rw [references, List.flatMap_assoc]
  simp only [List.mem_filter, List.mem_flatMap, decide_eq_true_eq]

namespace Schema

variable {s : Schema} {exprs : List String}

/-! ## Sets of aliases -/

/-- The expressions use the alias, which is not the schema's own. -/
def Starts (s : Schema) (exprs : List String) (a : String) : Prop :=
  (∃ e ∈ exprs, a ∈ Expr.aliases e) ∧ a ≠ s.asName

/-- A relation of the first alias uses the second one, which is neither its own nor the schema's. -/
def Leads (s : Schema) (a b : String) : Prop :=
  ∃ r ∈ s.relations, r.asName = a ∧ r.Uses b ∧ b ≠ s.asName ∧ b ≠ r.asName

/-- The alias can be reached from the expressions over join conditions. -/
def Reaches (s : Schema) (exprs : List String) (b : String) : Prop :=
  ∃ a, s.Starts exprs a ∧ Relation.ReflTransGen s.Leads a b

/-- A set of aliases that has everything the expressions and its own relations use. -/
structure Closed (s : Schema) (exprs : List String) (C : Set String) : Prop where
  starts : ∀ a, s.Starts exprs a → a ∈ C
  leads : ∀ a ∈ C, ∀ b, s.Leads a b → b ∈ C

theorem mem_foreignAliases {a : String} : a ∈ s.foreignAliases exprs ↔ s.Starts exprs a := by
  simp [foreignAliases, Starts]

/-- Needed is what can be reached. -/
theorem needs_iff_reaches {a : String} : s.Needs exprs a ↔ s.Reaches exprs a := by
  constructor
  · intro h
    induction h with
    | used hused => exact ⟨_, mem_foreignAliases.mp hused, .refl⟩
    | by_relation hr _ href hown ih =>
        obtain ⟨start, hstart, hpath⟩ := ih
        obtain ⟨huses, hne⟩ := Relation.mem_references.mp href
        exact ⟨start, hstart, hpath.tail ⟨_, hr, rfl, huses, hown, hne⟩⟩
  · rintro ⟨start, hstart, hpath⟩
    induction hpath with
    | refl => exact .used (mem_foreignAliases.mpr hstart)
    | tail _ hleads ih =>
        obtain ⟨r, hr, rfl, huses, hown, hne⟩ := hleads
        exact .by_relation hr ih (Relation.mem_references.mpr ⟨huses, hne⟩) hown

/-- No closed set is smaller than that of the aliases that can be reached. -/
theorem isLeast_reaches : IsLeast {C | s.Closed exprs C} {a | s.Reaches exprs a} := by
  constructor
  · constructor
    · exact fun a ha => ⟨a, ha, .refl⟩
    · rintro a ⟨start, hstart, hpath⟩ b hleads
      exact ⟨start, hstart, hpath.tail hleads⟩
  · rintro C hC a ⟨start, hstart, hpath⟩
    induction hpath with
    | refl => exact hC.starts _ hstart
    | tail _ hleads ih => exact hC.leads _ ih _ hleads

/-! ## Rounds -/

/-- So many rounds are made from the first aliases to the second: each but the last one adds an
alias, and the last one adds none. -/
inductive Collects (s : Schema) : ℕ → List String → List String → Prop where
  | last {need} (h : s.needMore need = need) : Collects s 1 need need
  | round {n need found} (h : s.needMore need ≠ need)
      (rest : Collects s n (s.needMore need) found) : Collects s (n + 1) need found

/-- Rounds end at the latest with the first one that adds nothing. -/
theorem exists_collects {n : ℕ} {need : List String}
    (h : s.needMore (s.needAll n need) = s.needAll n need) :
    ∃ rounds ≤ n + 1, s.Collects rounds need (s.needAll n need) := by
  induction n generalizing need with
  | zero => exact ⟨1, le_rfl, .last h⟩
  | succ n ih =>
      by_cases hlast : s.needMore need = need
      · rw [needAll_eq_self hlast]
        exact ⟨1, by omega, .last hlast⟩
      · obtain ⟨rounds, hle, hrounds⟩ := ih h
        exact ⟨rounds + 1, by omega, .round hlast hrounds⟩

theorem needAll_succ (n : ℕ) (need : List String) :
    s.needAll (n + 1) need = s.needMore (s.needAll n need) := by
  induction n generalizing need with
  | zero => rfl
  | succ n ih => exact ih (s.needMore need)

theorem needMore_of_needed_eq_nil {need : List String} (h : s.needed need = []) :
    s.needMore need = need := by
  rw [needMore, ← needed, h]
  exact List.append_nil need

/-- Where as many relations are needed as are declared, no round brings in another one. -/
theorem stable_of_length_le {need : List String}
    (h : s.relations.length ≤ (s.needed need).length) : s.Stable need := by
  have hall : s.needed need = s.relations := List.filter_sublist.eq_of_length_le h
  refine List.Sublist.antisymm ?_ (needed_sublist need)
  rw [hall]
  exact List.filter_sublist

/-- So many rounds as there are relations leave nothing to add: if the first one starts with no
needed relation, nothing is added at all, and otherwise one round fewer brings in every relation
that is ever brought in. -/
theorem needMore_needAll (need : List String) :
    s.needMore (s.needAll s.relations.length need) = s.needAll s.relations.length need := by
  by_cases hnone : s.needed need = []
  · have hfix := needMore_of_needed_eq_nil hnone
    rw [needAll_eq_self hfix, hfix]
  · have hsome : 0 < (s.needed need).length := List.length_pos_iff.mpr hnone
    have hle : (s.needed need).length ≤ s.relations.length := List.filter_sublist.length_le
    obtain ⟨n, hn⟩ := Nat.exists_eq_succ_of_ne_zero (Nat.pos_iff_ne_zero.mp (hsome.trans_le hle))
    have hstable : s.Stable (s.needAll n need) :=
      (stable_or_le_length n need).elim id fun hlength => stable_of_length_le (by omega)
    rw [hn, needAll_succ, needMore_needMore hstable]

/-! ## The joined relations -/

/-- The rounds for the joins of expressions end. They lead to the declared relations, in their order
and each once, whose aliases are in the least closed set of aliases, which is that of the aliases
that can be reached from the expressions. -/
theorem requiredJoins_least (s : Schema) (exprs : List String) :
    (∃ rounds ≤ s.relations.length + 1, ∃ found,
      s.Collects rounds (s.foreignAliases exprs) found ∧
        s.requiredJoins exprs = s.relations.filter fun r => found.contains r.asName) ∧
    (∃ C, IsLeast {C | s.Closed exprs C} C ∧ C = {a | s.Reaches exprs a} ∧
      open Classical in s.requiredJoins exprs = s.relations.filter fun r => r.asName ∈ C) ∧
    (s.relations.Nodup → (s.requiredJoins exprs).Nodup) := by
  classical
  obtain ⟨rounds, hle, hrounds⟩ := exists_collects (needMore_needAll (s.foreignAliases exprs))
  refine ⟨⟨rounds, hle, _, hrounds, rfl⟩, ⟨_, isLeast_reaches, rfl, ?_⟩, fun hnodup => ?_⟩
  · refine List.filter_congr fun r hr => ?_
    have hiff : r ∈ s.requiredJoins exprs ↔ s.Reaches exprs r.asName := by
      rw [mem_requiredJoins_iff, and_iff_right hr, needs_iff_reaches]
    rw [requiredJoins, List.mem_filter, and_iff_right hr] at hiff
    rw [Bool.eq_iff_iff, hiff, decide_eq_true_iff]
    rfl
  · exact hnodup.filter _

end Schema

/-! ## Relations that use each other

The city of a trip is that of its hotel, and a hotel and its partner are joined with each other. -/

namespace Trips

def hotel : Relation := ⟨.left, .table "hotels", "h",
  [⟨"h.id", .eq, .column "t.hotel_id"⟩, ⟨"h.partner_id", .eq, .column "p.id"⟩]⟩

def partner : Relation := ⟨.left, .table "partners", "p", [⟨"p.hotel_id", .eq, .column "h.id"⟩]⟩

def driver : Relation := ⟨.left, .table "drivers", "v", [⟨"v.id", .eq, .column "t.driver_id"⟩]⟩

def city : Relation := ⟨.left, .table "cities", "c", [⟨"c.id", .eq, .column "h.city_id"⟩]⟩

def trips : Schema where
  name := "trips"
  table := "trips"
  asName := "t"
  version := "1"
  primaryKey := "id"
  flat := false
  fields := [⟨"id", "t.id", .int, false, false, {}⟩, ⟨"city", "c.name", .string, false, false, {}⟩]
  relations := [hotel, partner, driver, city]
  filters := []
  sorts := []
  groups := []
  children := []

/-- The city of a trip needs its hotel and the partner of that, and not the driver. -/
theorem city_joins_least :
    trips.relations.Nodup ∧ trips.requiredJoins ["c.name"] = [hotel, partner, city] ∧
      (trips.requiredJoins ["c.name"]).Nodup ∧ trips.Reaches ["c.name"] "p" ∧
      ¬ trips.Reaches ["c.name"] "v" := by
  classical
  obtain ⟨-, ⟨_, -, rfl, hfilter⟩, hnodup⟩ := Schema.requiredJoins_least trips ["c.name"]
  have hdeclared : trips.relations.Nodup := by decide
  have hjoins : trips.requiredJoins ["c.name"] = [hotel, partner, city] := by decide +kernel
  have hreaches {r : Relation} (hr : r ∈ trips.relations) :
      r ∈ trips.requiredJoins ["c.name"] ↔ trips.Reaches ["c.name"] r.asName := by
    rw [hfilter, List.mem_filter, and_iff_right hr, decide_eq_true_eq]
    rfl
  refine ⟨hdeclared, hjoins, hnodup hdeclared, ?_, ?_⟩
  · exact (hreaches (r := partner) (by decide)).mp (by rw [hjoins]; decide)
  · exact fun h => absurd ((hreaches (r := driver) (by decide)).mpr h) (by rw [hjoins]; decide)

end Trips

end EntityRest

import EntityRest.Schema.Basic

/-!
# Required joins

The relations that a set of expressions needs: those whose aliases it uses, and those that the join
conditions of needed relations use in turn.
-/

namespace EntityRest

namespace Relation

/-- The aliases that the join conditions use, other than the relation's own. -/
def references (r : Relation) : List String :=
  ((r.conditions.flatMap Clause.exprs).flatMap Expr.aliases).filter (· ≠ r.asName)

end Relation

namespace Schema

/-- The aliases other than the schema's own that the expressions use. -/
def foreignAliases (s : Schema) (exprs : List String) : List String :=
  (exprs.flatMap Expr.aliases).filter (· ≠ s.asName)

/-- Adds the aliases that the join conditions of needed relations use. -/
def needMore (s : Schema) (need : List String) : List String :=
  need ++ ((s.relations.filter fun r => need.contains r.asName).flatMap Relation.references).filter
    fun a => a ≠ s.asName && !need.contains a

/-- Adds aliases until nothing changes. Every round that changes anything brings in the conditions
of another relation, so as many rounds as there are relations are enough. -/
def needAll (s : Schema) : Nat → List String → List String
  | 0, need => need
  | rounds + 1, need => needAll s rounds (s.needMore need)

/-- The relations that the expressions need, in declared order. -/
def requiredJoins (s : Schema) (exprs : List String) : List Relation :=
  let need := s.needAll s.relations.length (s.foreignAliases exprs)
  s.relations.filter fun r => need.contains r.asName

end Schema

end EntityRest

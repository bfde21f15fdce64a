import TripleTables.Proofs.Graph.Blanking
import TripleTables.Query.Basic

/-!
# Queries without their texts

Blanking goes through the parts of a compiled query that hold expressions.
What has no expressions stays as it is: triples, variables, names and numbers of
rows.
-/

namespace TripleTables

open TripleTables.Graph

namespace OptionalGroup

/-- The group without the texts of its filters. -/
def blanked (group : OptionalGroup) : OptionalGroup :=
  { group with filters := group.filters.map Expr.blanked }

theorem isEmpty_blanked (group : OptionalGroup) : group.blanked.isEmpty = group.isEmpty := by
  simp [isEmpty, blanked]

end OptionalGroup

namespace Block

/-- The block without the texts of its filters. -/
def blanked : Block → Block
  | .required triples => .required triples
  | .optional group => .optional group.blanked

/-- The filters of the block are clean. -/
def IsClean : Block → Prop
  | .required _ => True
  | .optional group => ∀ e ∈ group.filters, e.IsClean

theorem isVoid_blanked (block : Block) : block.blanked.isVoid = block.isVoid := by
  cases block with
  | required triples => rfl
  | optional group => exact group.isEmpty_blanked

end Block

namespace Element

/-- The element without the texts of its expressions. -/
def blanked : Element → Element
  | .block part => .block part.blanked
  | .bind expr v => .bind expr.blanked v
  | .filter condition => .filter condition.blanked

/-- The expressions of the element are clean. -/
def IsClean : Element → Prop
  | .block part => part.IsClean
  | .bind expr _ => expr.IsClean
  | .filter condition => condition.IsClean

end Element

/-- The result column without the texts of its expression. -/
def Projection.blanked (projection : Projection) : Projection :=
  { projection with expression := projection.expression.map Expr.blanked }

/-- The expression of the result column is clean. -/
def Projection.IsClean (projection : Projection) : Prop :=
  ∀ e ∈ projection.expression, e.IsClean

/-- The order key without its texts. -/
def OrderKey.blanked (key : OrderKey) : OrderKey :=
  { key with expr := key.expr.blanked }

namespace Query

/-- The query without the texts of its expressions. -/
def blanked (query : Query) : Query :=
  { query with
    projections := query.projections.map Projection.blanked
    elements := query.elements.map Element.blanked
    groupBy := query.groupBy.map Expr.blanked
    having := query.having.map Expr.blanked
    orderBy := query.orderBy.map OrderKey.blanked }

/-- All expressions of the query are clean. -/
structure IsClean (query : Query) : Prop where
  projections : ∀ projection ∈ query.projections, projection.IsClean
  elements : ∀ element ∈ query.elements, element.IsClean
  groupBy : ∀ e ∈ query.groupBy, e.IsClean
  having : ∀ e ∈ query.having, e.IsClean
  orderBy : ∀ key ∈ query.orderBy, key.expr.IsClean

/-- The queries are clean and differ only in the texts of their expressions. -/
structure SameButTexts (first second : Query) : Prop where
  blanked_eq : first.blanked = second.blanked
  clean : first.IsClean

end Query

end TripleTables

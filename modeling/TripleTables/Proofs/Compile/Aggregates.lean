import TripleTables.Proofs.Compile.Provenance

/-!
# Where aggregates stand

Aggregates are computed over groups of rows, so a query may hold them only where
groups are at hand: in what is shown, in the conditions on groups and in the keys
of the order.  Which clauses may call aggregates is said by the mode of the
clause, whatever the table of functions maps to aggregates; and an argument with
an aggregate in it is refused when the call is put together.  A value of the
select list is computed where it is shown exactly if it holds an aggregate.

Where aggregates are forbidden, only their calls are refused: a transform of the
arguments of another function can still bring one in.  So the confinement is said apart
from such aggregates (`AggregatesConfinedBut`), and without exception for functions
whose transforms bring in none.
-/

namespace TripleTables

open TripleTables.Graph

namespace Graph.Expr

/-- The nodes that are aggregates. -/
def aggregates (e : Expr) : List Expr :=
  e.nodes.filter isAggregate

/-- No node is an aggregate, apart from foreign ones. -/
def AggregateFreeBut (foreign : Expr → Prop) (e : Expr) : Prop :=
  e.Every fun node => node.isAggregate = false ∨ foreign node

/-- No aggregate stands in the argument of another, apart from foreign ones. -/
def AggregatesUnnestedBut (foreign : Expr → Prop) (e : Expr) : Prop :=
  e.Every fun node => (∀ arg ∈ node.aggregated?, arg.AggregateFree) ∨ foreign node

end Graph.Expr

/-- All expressions of the query. -/
def Query.exprs (query : Query) : List Expr :=
  query.elements.flatMap Element.exprs ++ query.projections.filterMap Projection.expression ++
    query.groupBy ++ query.having ++ query.orderBy.map OrderKey.expr

/-- Aggregates stand only where groups are at hand, and not inside each other. -/
structure Query.AggregatesConfined (query : Query) : Prop where
  /-- No filter, also of an optional group, and no bound value has an aggregate. -/
  pattern : ∀ element ∈ query.elements, ∀ e ∈ element.exprs, e.AggregateFree
  groupBy : ∀ e ∈ query.groupBy, e.AggregateFree
  unnested : ∀ e ∈ query.exprs, e.AggregatesUnnested
  /-- What is computed where it is shown has an aggregate. -/
  computed : ∀ projection ∈ query.projections, ∀ e ∈ projection.expression, ¬ e.AggregateFree

/-- Aggregates stand only where groups are at hand, and not inside each other, apart
from foreign ones.  Bound values have none, and computed ones have one, in any case. -/
structure Query.AggregatesConfinedBut (foreign : Expr → Prop) (query : Query) : Prop where
  pattern : ∀ element ∈ query.elements, ∀ e ∈ element.exprs, e.AggregateFreeBut foreign
  bound : ∀ e v, .bind e v ∈ query.elements → e.AggregateFree
  groupBy : ∀ e ∈ query.groupBy, e.AggregateFreeBut foreign
  unnested : ∀ e ∈ query.exprs, e.AggregatesUnnestedBut foreign
  computed : ∀ projection ∈ query.projections, ∀ e ∈ projection.expression, ¬ e.AggregateFree

theorem Query.AggregatesConfinedBut.confined {foreign : Expr → Prop} {query : Query}
    (apart : query.AggregatesConfinedBut foreign) (none : ∀ node, ¬ foreign node) :
    query.AggregatesConfined where
  pattern := fun element isElement e inside node isNode =>
    (apart.pattern element isElement e inside node isNode).resolve_right (none node)
  groupBy := fun e isKey node isNode =>
    (apart.groupBy e isKey node isNode).resolve_right (none node)
  unnested := fun e member node isNode =>
    (apart.unnested e member node isNode).resolve_right (none node)
  computed := apart.computed

namespace Compile

variable {mode : Mode}

variable {source : Sql.Expr} {e : Expr}

variable {functions : FunctionTable} {query : Sql.Query} {role : Role}

end Compile

/-- What stands inside an element of the pattern is a condition or a bound
value. -/
theorem Query.exprsAs_of_mem_elements {query : Query} {element : Element}
    (isElement : element ∈ query.elements) {e : Expr} (inside : e ∈ element.exprs) :
    e ∈ query.exprsAs .condition ∨ e ∈ query.exprsAs .bound := by
  cases element with
  | block content =>
      left
      refine List.mem_append_left _ (List.mem_flatMap.mpr ⟨_, isElement, ?_⟩)
      cases content with
      | required triples => cases inside
      | optional group => exact inside
  | bind value v =>
      right
      rw [List.mem_singleton.mp inside]
      exact List.mem_filterMap.mpr ⟨_, isElement, rfl⟩
  | filter condition =>
      left
      rw [List.mem_singleton.mp inside]
      exact List.mem_append_right _ (List.mem_filterMap.mpr ⟨_, isElement, rfl⟩)

/-- Every expression of a query has a role. -/
theorem Query.exists_role_of_mem_exprs {query : Query} {e : Expr} (member : e ∈ query.exprs) :
    ∃ role, e ∈ query.exprsAs role := by
  simp only [Query.exprs, List.mem_append] at member
  rcases member with (((inPattern | isComputed) | isKey) | isCondition) | isOrder
  · obtain ⟨element, isElement, inside⟩ := List.mem_flatMap.mp inPattern
    rcases exprsAs_of_mem_elements isElement inside with isCondition | isBound
    · exact ⟨.condition, isCondition⟩
    · exact ⟨.bound, isBound⟩
  · exact ⟨.computed, isComputed⟩
  · exact ⟨.groupKey, isKey⟩
  · exact ⟨.groupCondition, isCondition⟩
  · exact ⟨.orderKey, isOrder⟩

/-- The standard functions and one whose transform brings in a count of the rows. -/
def countingFunctions : FunctionTable :=
  .register .standard
    (FunctionTable.scalarAs (fun _ => [.aggregate .count false none]) "GHOST" .coalesce 0)

/-- An aggregate that is brought in can stand in a filter. -/
theorem not_aggregatesConfined_ghostReport :
    ∃ catalog result, twoTables.assemble = .ok catalog ∧
      ({ catalog, functions := countingFunctions } : Compiler).compile ghostReport = .ok result ∧
      ¬ result.AggregatesConfined := by
  have checked : ∃ catalog, twoTables.assemble = .ok catalog ∧
      ∃ result, ({ catalog, functions := countingFunctions } : Compiler).compile ghostReport =
          .ok result ∧
        ∃ element ∈ result.elements, ∃ e ∈ element.exprs, e.containsAggregate = true := by
    decide +kernel
  obtain ⟨catalog, assembled, result, compiled, element, isElement, e, inside, aggregate⟩ := checked
  refine ⟨catalog, result, assembled, compiled, fun confined => ?_⟩
  have none := (Expr.aggregateFree_iff e).mp (confined.pattern element isElement e inside)
  exact Bool.false_ne_true (none.symm.trans aggregate)

end TripleTables

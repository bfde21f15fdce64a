import TripleTables.Graph.Renaming

/-!
# Compiled queries

What a statement is compiled to: the columns of the result and the elements of
the graph pattern, in order.  Everything a query says about rows stands in the
elements; groups, order and page follow them.
-/

namespace TripleTables

open TripleTables.Graph

/-- Triples that bind only together.  A nested block is optional inside the
group. -/
structure OptionalGroup where
  triples : List Triple := []
  nested : List (List Triple) := []
  filters : List Expr := []
deriving Repr

namespace OptionalGroup

/-- The group of one triple. -/
def single (triple : Triple) : OptionalGroup :=
  { triples := [triple] }

/-- The group holds nothing. -/
def isEmpty (group : OptionalGroup) : Bool :=
  group.triples.isEmpty && group.nested.isEmpty && group.filters.isEmpty

/-- All triples of the group, those of nested blocks last. -/
def allTriples (group : OptionalGroup) : List Triple :=
  group.triples ++ group.nested.flatten

end OptionalGroup

/-- A block of triples. -/
inductive Block where
  /-- Triples that have to match. -/
  | required (triples : List Triple)
  | optional (group : OptionalGroup)
deriving Repr

namespace Block

/-- All triples of the block. -/
def allTriples : Block → List Triple
  | .required triples => triples
  | .optional group => group.allTriples

/-- The block is an optional group that holds nothing. -/
def isVoid : Block → Bool
  | .required _ => false
  | .optional group => group.isEmpty

end Block

/-- One element of a graph pattern. -/
inductive Element where
  | block (block : Block)
  /-- A variable that takes the value of an expression. -/
  | bind (expr : Expr) (var : Variable)
  | filter (condition : Expr)
deriving Repr

/-- The kind of the element in one word. -/
def Element.kind : Element → String
  | .block (.required _) => "required"
  | .block (.optional _) => "optional"
  | .bind _ _ => "bind"
  | .filter _ => "filter"

/-- One column of the result. -/
structure Projection where
  var : Variable
  displayName : String
  /-- The aggregate expression whose value is shown, if it is one. -/
  expression : Option Expr
  sqlType : Option String
  nullable : Bool
deriving Repr

/-- One key of the order. -/
structure OrderKey where
  expr : Expr
  ascending : Bool
deriving Repr

/-- A table column that the query mentions. -/
structure MentionedColumn where
  name : Name
  var : Variable
  sqlType : String
  nullable : Bool
  /-- The column's triple stands in an optional group. -/
  optional : Bool
deriving DecidableEq, Repr

/-- A compiled query. -/
structure Query where
  prefixes : List (String × String)
  /-- The endpoint that evaluates the pattern, if it is not the local one. -/
  service : Option String
  distinct : Bool
  projections : List Projection
  elements : List Element
  groupBy : List Expr
  having : List Expr
  orderBy : List OrderKey
  limit : Option Nat
  offset : Option Nat
  columns : List MentionedColumn
deriving Repr

namespace Query

/-- The required blocks, in order. -/
def requiredBlocks (query : Query) : List (List Triple) :=
  query.elements.filterMap fun
    | .block (.required triples) => some triples
    | _ => none

/-- The optional groups, in order. -/
def optionalGroups (query : Query) : List OptionalGroup :=
  query.elements.filterMap fun
    | .block (.optional group) => some group
    | _ => none

/-- The filters outside optional groups, in order. -/
def filters (query : Query) : List Expr :=
  query.elements.filterMap fun
    | .filter condition => some condition
    | _ => none

/-- The name of the column that a variable stands for. -/
def columnOf (query : Query) : ColumnOf :=
  fun v => (query.columns.find? (fun column => column.var = v)).map MentionedColumn.name

end Query

end TripleTables

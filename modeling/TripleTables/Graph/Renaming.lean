import TripleTables.Graph.Expr

/-!
# Renaming of variables

A compiled query may serve as a table of an outer query.  Its expressions then
speak of columns under the outer name.  A `Renaming` is an ordered list of
aliases from inner names to outer names; the first alias whose pattern covers
a column decides.  Renaming an expression replaces its variables and keeps
everything else.
-/

namespace TripleTables.Graph

/-- Tells which column a variable stands for, if any. -/
abbrev ColumnOf := Variable → Option Name

/-- Aliases from inner names to outer names, in order. -/
structure Renaming where
  aliases : List (Name × Name) := []
deriving DecidableEq, Repr

namespace Renaming

/-- There are no aliases. -/
def isEmpty (r : Renaming) : Bool :=
  r.aliases.isEmpty

/-- The renaming with one more alias at the end. -/
def addAlias (r : Renaming) (inner outer : Name) : Renaming :=
  ⟨r.aliases ++ [(inner, outer)]⟩

/-- The outer name of a column: the alias supplies the catalog, the schema and
the table, and the column's own segment is kept. -/
def mapColumn? (r : Renaming) (column : Name) : Option Name :=
  (r.aliases.find? (fun entry => entry.1.covers column)).map fun entry =>
    Name.ofSegments entry.2.catalog entry.2.schema entry.2.table column.column

/-- The outer variable of an inner one.  A variable that stands for no column,
or for a column that no alias covers, stays. -/
def mapVariable (r : Renaming) (columnOf : ColumnOf) (v : Variable) : Variable :=
  match (columnOf v).bind r.mapColumn? with
  | some outer => Variable.ofName outer
  | none => v

end Renaming

namespace Expr

mutual

/-- The expression with every variable replaced. -/
def mapVariables (f : Variable → Variable) : Expr → Expr
  | .variable v => .variable (f v)
  | .bound v => .bound (f v)
  | .constant value => .constant value
  | .binary op left right => .binary op (left.mapVariables f) (right.mapVariables f)
  | .not operand => .not (operand.mapVariables f)
  | .negate operand => .negate (operand.mapVariables f)
  | .regex subject pattern flags => .regex (subject.mapVariables f) pattern flags
  | .inList subject items negated =>
      .inList (subject.mapVariables f) (mapAllVariables f items) negated
  | .call function args => .call function (mapAllVariables f args)
  | .aggregate function distinct none => .aggregate function distinct none
  | .aggregate function distinct (some arg) =>
      .aggregate function distinct (some (arg.mapVariables f))

/-- The expressions with every variable replaced. -/
def mapAllVariables (f : Variable → Variable) : List Expr → List Expr
  | [] => []
  | e :: rest => e.mapVariables f :: mapAllVariables f rest

end

/-- Replacing the variables of a list of expressions replaces them in each
member. -/
theorem mapAllVariables_eq_map (f : Variable → Variable) (es : List Expr) :
    mapAllVariables f es = es.map (mapVariables f) := by
  induction es with
  | nil => rfl
  | cons e rest ih => simp [mapAllVariables, ih]

end Expr

/-- The expression in the words of the outer query. -/
def Renaming.apply (r : Renaming) (columnOf : ColumnOf) (e : Expr) : Expr :=
  e.mapVariables (r.mapVariable columnOf)

end TripleTables.Graph

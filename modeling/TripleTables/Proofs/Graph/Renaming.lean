import Mathlib.Data.List.Basic
import TripleTables.Graph.Renaming
import TripleTables.Proofs.Graph.Nodes
import TripleTables.Proofs.Meaning

/-!
# Renaming is substitution

The nodes of an expression, each with its own data and the number of expressions
inside it, make a word that is read back in one way only: no such word begins
another, so the word determines the expression (`Expr.symbols_injective`).  A
renamed expression is the one whose word has every variable replaced and every
other letter as it was.

What is read off the word follows from that: the variables with their order and
repetitions, and whether there is an aggregate.  For values it is the
substitution lemma, for one row and for a group of rows.
-/

namespace TripleTables.Graph

/-! ## Words of expressions -/

/-- A node of an expression without what stands inside it: the node's own data,
and how many expressions it holds where that may differ. -/
inductive Symbol where
  | variable (v : Variable)
  | constant (value : Literal)
  | binary (op : BinaryOp)
  | not
  | negate
  | regex (pattern : String) (flags : Option String)
  | inList (items : Nat) (negated : Bool)
  | bound (v : Variable)
  | call (function : Builtin) (args : Nat)
  | aggregate (function : Aggregate) (distinct : Bool) (hasArg : Bool)
deriving DecidableEq, Repr

namespace Symbol

/-- The variable that the node mentions itself. -/
def mentioned? : Symbol → Option Variable
  | .variable v | .bound v => some v
  | _ => none

/-- The node is an aggregate. -/
def isAggregate : Symbol → Bool
  | .aggregate _ _ _ => true
  | _ => false

/-- The node with its own variable replaced, if it has one. -/
def rename (f : Variable → Variable) : Symbol → Symbol
  | .variable v => .variable (f v)
  | .bound v => .bound (f v)
  | other => other

theorem mentioned?_rename (f : Variable → Variable) (symbol : Symbol) :
    (symbol.rename f).mentioned? = symbol.mentioned?.map f := by
  cases symbol <;> rfl

theorem isAggregate_rename (f : Variable → Variable) (symbol : Symbol) :
    (symbol.rename f).isAggregate = symbol.isAggregate := by
  cases symbol <;> rfl

theorem rename_eq_self {f : Variable → Variable} {symbol : Symbol}
    (fixed : ∀ v ∈ symbol.mentioned?, f v = v) : symbol.rename f = symbol := by
  cases symbol <;> simp_all [mentioned?, rename]

end Symbol

namespace Expr

/-- The outermost node. -/
def symbol : Expr → Symbol
  | .variable v => .variable v
  | .constant value => .constant value
  | .binary op _ _ => .binary op
  | .not _ => .not
  | .negate _ => .negate
  | .regex _ pattern flags => .regex pattern flags
  | .inList _ items negated => .inList items.length negated
  | .bound v => .bound v
  | .call function args => .call function args.length
  | .aggregate function distinct arg => .aggregate function distinct arg.isSome

/-- The nodes from left to right, the outer ones first. -/
def symbols (e : Expr) : List Symbol :=
  e.nodes.map symbol

theorem symbols_eq (e : Expr) : e.symbols = e.symbol :: e.children.flatMap symbols := by
  rw [symbols, nodes_eq, List.map_cons, List.map_flatMap]
  rfl

theorem length_children_of_symbol_eq {e e' : Expr} (same : e.symbol = e'.symbol) :
    e.children.length = e'.children.length := by
  cases e <;> cases e' <;> simp_all [symbol, children, Option.length_toList]

/-- An expression is its outermost node and what stands right inside it. -/
theorem eq_of_symbol_of_children {e e' : Expr} (sameSymbol : e.symbol = e'.symbol)
    (sameChildren : e.children = e'.children) : e = e' := by
  cases e <;> cases e' <;> simp_all [symbol, children]
  case aggregate.aggregate arg _ _ arg' => cases arg <;> cases arg' <;> simp_all

/-- The words of expressions can be told apart without a mark between them, if the
words of all expressions in the first list can. -/
theorem flatMap_symbols_inj {es es' : List Expr} {rest rest' : List Symbol}
    (inside : ∀ e ∈ es, ∀ e' rest rest',
      e.symbols ++ rest = e'.symbols ++ rest' → e = e' ∧ rest = rest')
    (sameLength : es.length = es'.length)
    (same : es.flatMap symbols ++ rest = es'.flatMap symbols ++ rest') :
    es = es' ∧ rest = rest' := by
  induction es generalizing es' with
  | nil =>
      obtain rfl := List.length_eq_zero_iff.mp sameLength.symm
      exact ⟨rfl, same⟩
  | cons e others ih =>
      obtain ⟨e', others', rfl⟩ := List.exists_cons_of_length_eq_add_one sameLength.symm
      simp only [List.flatMap_cons, List.append_assoc] at same
      obtain ⟨rfl, sameRest⟩ := inside e List.mem_cons_self e' _ _ same
      obtain ⟨rfl, rfl⟩ := ih (fun e isMember => inside e (List.mem_cons_of_mem _ isMember))
        (Nat.succ.inj sameLength) sameRest
      exact ⟨rfl, rfl⟩

/-- No word of an expression begins the word of another. -/
theorem symbols_append_inj (e : Expr) : ∀ e' rest rest',
    e.symbols ++ rest = e'.symbols ++ rest' → e = e' ∧ rest = rest' := by
  induction e using induction_on_children with
  | step e ih =>
      intro e' rest rest' same
      rw [symbols_eq e, symbols_eq e', List.cons_append, List.cons_append] at same
      obtain ⟨sameSymbol, sameInside⟩ := List.cons.inj same
      obtain ⟨sameChildren, sameRest⟩ :=
        flatMap_symbols_inj ih (length_children_of_symbol_eq sameSymbol) sameInside
      exact ⟨eq_of_symbol_of_children sameSymbol sameChildren, sameRest⟩

theorem symbols_injective : Function.Injective symbols := fun e e' same =>
  (symbols_append_inj e e' [] [] (by simpa using same)).1

/-- The variables of an expression are those of its nodes. -/
theorem vars_eq_filterMap_symbols (e : Expr) :
    e.vars = e.symbols.filterMap Symbol.mentioned? := by
  induction e using induction_on_children with
  | step e ih =>
      have inside : e.children.flatMap vars =
          (e.children.flatMap symbols).filterMap Symbol.mentioned? := by
        rw [List.filterMap_flatMap]
        exact List.flatMap_congr ih
      rw [symbols_eq, List.filterMap_cons, ← inside]
      cases e with
      | aggregate function distinct arg =>
          cases arg <;> simp [vars, symbol, children, Symbol.mentioned?]
      | _ => simp [vars, symbol, children, Symbol.mentioned?, allVariables_eq_flatMap]

/-- The scan for aggregates looks at all nodes. -/
theorem containsAggregate_eq_any_symbols (e : Expr) :
    e.containsAggregate = e.symbols.any Symbol.isAggregate := by
  induction e using induction_on_children with
  | step e ih =>
      have inside : e.children.any containsAggregate =
          (e.children.flatMap symbols).any Symbol.isAggregate := by
        rw [List.any_flatMap, Bool.eq_iff_iff, List.any_eq_true, List.any_eq_true]
        exact exists_congr fun child => and_congr_right fun isChild => by rw [ih child isChild]
      rw [symbols_eq, List.any_cons, ← inside]
      cases e <;> simp [containsAggregate, symbol, children, Symbol.isAggregate,
        anyContainsAggregate_eq_any]

/-! ## Renamed expressions -/

section Renamed

variable (f : Variable → Variable) (e : Expr)

theorem symbol_mapVariables : (e.mapVariables f).symbol = e.symbol.rename f := by
  cases e with
  | aggregate function distinct arg => cases arg <;> rfl
  | _ => simp [mapVariables, symbol, Symbol.rename, mapAllVariables_eq_map]

theorem children_mapVariables :
    (e.mapVariables f).children = e.children.map (mapVariables f) := by
  cases e with
  | aggregate function distinct arg => cases arg <;> rfl
  | _ => simp [mapVariables, children, mapAllVariables_eq_map]

/-- Renaming replaces the variables in the word of an expression, letter by
letter. -/
theorem symbols_mapVariables :
    (e.mapVariables f).symbols = e.symbols.map (Symbol.rename f) := by
  induction e using induction_on_children with
  | step e ih =>
      rw [symbols_eq, symbols_eq, symbol_mapVariables, children_mapVariables, List.map_cons,
        List.flatMap_map, List.map_flatMap]
      congr 1
      exact List.flatMap_congr ih

/-- The variables of a renamed expression are the renamed variables. -/
theorem vars_mapVariables : (e.mapVariables f).vars = e.vars.map f := by
  simp only [vars_eq_filterMap_symbols, symbols_mapVariables, List.filterMap_map,
    List.map_filterMap]
  congr 1
  funext symbol
  exact Symbol.mentioned?_rename f symbol

theorem containsAggregate_mapVariables :
    (e.mapVariables f).containsAggregate = e.containsAggregate := by
  simp only [containsAggregate_eq_any_symbols, symbols_mapVariables, List.any_map]
  congr 1
  funext symbol
  exact Symbol.isAggregate_rename f symbol

variable {f e}

/-- An expression whose variables are kept is kept. -/
theorem mapVariables_eq_self (fixed : ∀ v ∈ e.vars, f v = v) : e.mapVariables f = e := by
  apply symbols_injective
  rw [symbols_mapVariables]
  refine (List.map_congr_left fun symbol isSymbol => ?_).trans (List.map_id _)
  refine Symbol.rename_eq_self fun v mentions => fixed v ?_
  rw [vars_eq_filterMap_symbols, List.mem_filterMap]
  exact ⟨symbol, isSymbol, mentions⟩

end Renamed

end Expr

/-- A variable stays if no alias covers its column. -/
theorem Renaming.mapVariable_eq_self {r : Renaming} {columnOf : ColumnOf} {v : Variable}
    (uncovered : ∀ column ∈ columnOf v, ∀ entry ∈ r.aliases, entry.1.covers column = false) :
    r.mapVariable columnOf v = v := by
  have unmapped : (columnOf v).bind r.mapColumn? = none := by
    refine Option.bind_eq_none_iff.mpr fun column isColumn => ?_
    rw [Renaming.mapColumn?, Option.map_eq_none_iff, List.find?_eq_none]
    intro entry isEntry
    simp [uncovered column isColumn entry isEntry]
  rw [Renaming.mapVariable, unmapped]

/-! ## Values over a group of rows -/

/-- A group of rows, and what the aggregates make of it. -/
structure Group (V : Type) where
  /-- The values that belong to the group as a whole. -/
  shared : Variable → Option V
  rows : List (Variable → Option V)
  /-- An aggregate without an argument, over the rows themselves. -/
  ofRows : Aggregate → Bool → Option V
  /-- An aggregate over the values of its argument, one for each row. -/
  ofValues : Aggregate → Bool → List (Option V) → Option V

/-- The group read through a renaming of the variables. -/
def Group.through {V : Type} (f : Variable → Variable) (group : Group V) : Group V :=
  { group with
    shared := fun v => group.shared (f v)
    rows := group.rows.map fun row v => row (f v) }

namespace Expr

variable {V : Type} (M : Meaning V)

mutual

/-- The value of an expression over a group: the argument of an aggregate is taken
row by row, everything else belongs to the group. -/
def valueOver (group : Group V) : Expr → Option V
  | .variable v => group.shared v
  | .constant literal => some (literal.value M)
  | .binary op left right => op.value M (left.valueOver group) (right.valueOver group)
  | .not operand => M.not (operand.valueOver group)
  | .negate operand => (operand.valueOver group).bind M.negative
  | .regex subject pattern flags => do
      let text ← M.text? (← subject.valueOver group)
      return M.boolean (← M.regex pattern flags text)
  | .inList subject items negated =>
      M.negatedIf negated (M.among (subject.valueOver group) (valuesOver group items))
  | .bound v => some (M.boolean (group.shared v).isSome)
  | .call function args => M.call function (valuesOver group args)
  | .aggregate function distinct none => group.ofRows function distinct
  | .aggregate function distinct (some arg) =>
      group.ofValues function distinct (group.rows.map fun row => arg.value M row)

/-- The values of some expressions over a group, in order. -/
def valuesOver (group : Group V) : List Expr → List (Option V)
  | [] => []
  | e :: rest => e.valueOver group :: valuesOver group rest

end

theorem valuesOver_eq_map (group : Group V) (es : List Expr) :
    valuesOver M group es = es.map (valueOver M group) := by
  induction es with
  | nil => rfl
  | cons e rest ih => rw [valuesOver, ih, List.map_cons]

section Substitution

variable (f : Variable → Variable) (e : Expr)

/-- Substitution lemma: renaming an expression is reading the assignment through
the renaming. -/
theorem value_mapVariables (assignment : Variable → Option V) :
    (e.mapVariables f).value M assignment = e.value M fun v => assignment (f v) := by
  induction e using induction_on_children with
  | step e ih =>
      cases e with
      | aggregate function distinct arg => cases arg <;> rfl
      | inList subject items negated =>
          obtain ⟨onSubject, onItems⟩ := List.forall_mem_cons.mp ih
          simp only [mapVariables, value, mapAllVariables_eq_map, values_eq_map, List.map_map,
            onSubject]
          exact congrArg (fun items => M.negatedIf negated (M.among _ items))
            (List.map_congr_left onItems)
      | call function args =>
          simp only [mapVariables, value, mapAllVariables_eq_map, values_eq_map, List.map_map]
          exact congrArg (M.call function) (List.map_congr_left ih)
      | _ => simp_all [mapVariables, value, children]

/-- Substitution lemma over a group: renaming an expression is reading all rows of
the group through the renaming. -/
theorem valueOver_mapVariables (group : Group V) :
    (e.mapVariables f).valueOver M group = e.valueOver M (group.through f) := by
  induction e using induction_on_children with
  | step e ih =>
      cases e with
      | aggregate function distinct arg =>
          cases arg with
          | none => rfl
          | some arg =>
              simp only [mapVariables, valueOver, Group.through, List.map_map]
              congr 1
              exact List.map_congr_left fun row _ => value_mapVariables M f arg row
      | inList subject items negated =>
          obtain ⟨onSubject, onItems⟩ := List.forall_mem_cons.mp ih
          simp only [mapVariables, valueOver, mapAllVariables_eq_map, valuesOver_eq_map,
            List.map_map, onSubject]
          exact congrArg (fun items => M.negatedIf negated (M.among _ items))
            (List.map_congr_left onItems)
      | call function args =>
          simp only [mapVariables, valueOver, mapAllVariables_eq_map, valuesOver_eq_map,
            List.map_map]
          exact congrArg (M.call function) (List.map_congr_left ih)
      | _ => simp_all [mapVariables, valueOver, children, Group.through]

end Substitution

end Expr

/-! ## Renamings -/

/-- A renamed expression is the one with every occurrence of a variable replaced
and nothing else changed.  So its variables are the renamed ones, it has an
aggregate when the expression has, it is the expression itself if no alias covers
the column of a variable, and its values are those of the expression with every
variable read through the renaming. -/
theorem Renaming.apply_replaces_variables (r : Renaming) (columnOf : ColumnOf) (e : Expr) :
    (∀ renamed, renamed = r.apply columnOf e ↔
      renamed.symbols = e.symbols.map (Symbol.rename (r.mapVariable columnOf))) ∧
    (r.apply columnOf e).vars = e.vars.map (r.mapVariable columnOf) ∧
    (r.apply columnOf e).containsAggregate = e.containsAggregate ∧
    ((∀ v ∈ e.vars, ∀ column ∈ columnOf v, ∀ entry ∈ r.aliases,
      entry.1.covers column = false) → r.apply columnOf e = e) ∧
    ∀ {V : Type} (M : Meaning V),
      (∀ assignment, (r.apply columnOf e).value M assignment =
        e.value M fun v => assignment (r.mapVariable columnOf v)) ∧
      ∀ group, (r.apply columnOf e).valueOver M group =
        e.valueOver M (group.through (r.mapVariable columnOf)) := by
  refine ⟨fun renamed => ?_, e.vars_mapVariables _, e.containsAggregate_mapVariables _,
    fun uncovered => ?_, fun M => ⟨e.value_mapVariables M _, e.valueOver_mapVariables M _⟩⟩
  · rw [← Expr.symbols_mapVariables]
    exact Expr.symbols_injective.eq_iff.symm
  · exact Expr.mapVariables_eq_self fun v mentions =>
      Renaming.mapVariable_eq_self (uncovered v mentions)

/-- Aliases for another table leave a condition on the columns of a table as it
is. -/
theorem Renaming.apply_replaces_variables_of_other_table :
    let r : Renaming := ⟨[({ table := some "bar" }, { table := some "baz" })]⟩
    let columnOf : ColumnOf := fun v => some { table := some "foo", column := some v.name }
    let e : Expr := .binary .and (.bound ⟨"x"⟩) (.aggregate .max false (some (.variable ⟨"y"⟩)))
    e.vars = [⟨"x"⟩, ⟨"y"⟩] ∧ e.containsAggregate = true ∧ r.apply columnOf e = e := by
  intro r columnOf e
  refine ⟨rfl, rfl, (r.apply_replaces_variables columnOf e).2.2.2.1 ?_⟩
  intro v _ column isColumn entry isEntry
  cases isColumn
  cases List.mem_singleton.mp isEntry
  rfl

end TripleTables.Graph

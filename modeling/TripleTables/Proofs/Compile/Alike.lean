import TripleTables.Proofs.Compile.Recursion

/-!
# Compiling an expression in two modes

The recursion over an expression is put together from column lookups,
refusals and values by sequencing.  A relation between steps that respects
these respects the compilation of every expression, in one mode or in two
modes that differ only in the clause they name and in how columns are looked
up.  Facts about the compilation of expressions are instances of this one
induction.
-/

namespace TripleTables.Compile

open TripleTables.Graph

/-- The error refuses what is written and does not say in which clause. -/
def Unplaced : CompileError → Prop
  | .unsupported _ none => True
  | .unsupportedFunction _ => True
  | .argumentCount _ _ _ => True
  | _ => False

/-- Two results agree up to the clause that is named in a refusal. -/
inductive Agree (first second : Mode) {α : Type} :
    Except CompileError α → Except CompileError α → Prop
  | ok (value : α) : Agree first second (.ok value) (.ok value)
  | refuse (construct : Construct) :
      Agree first second (.error (first.refusal construct)) (.error (second.refusal construct))
  | fail {error : CompileError} (unplaced : Unplaced error) :
      Agree first second (.error error) (.error error)

/-- A relation between steps that is respected by all that compiling an
expression in two modes is put together from. -/
structure Alike (first second : Mode) (rel : (α : Type) → Compile α → Compile α → Prop) :
    Prop where
  functions : first.functions = second.functions
  aggregates : first.allowAggregates = second.allowAggregates
  lift : ∀ {α : Type} {result other : Except CompileError α}, Agree first second result other →
    rel α (liftExcept result) (liftExcept other)
  bind : ∀ {α β : Type} {step other : Compile α} {next others : α → Compile β},
    rel α step other → (∀ value, rel β (next value) (others value)) →
    rel β (step >>= next) (other >>= others)
  column : ∀ name, rel Variable (columnVariable first name) (columnVariable second name)

namespace Alike

variable {first second : Mode} {rel : (α : Type) → Compile α → Compile α → Prop}

theorem pure (alike : Alike first second rel) {α : Type} (value : α) :
    rel α (pure value) (pure value) :=
  alike.lift (.ok value)

theorem refuse (alike : Alike first second rel) {α : Type} (construct : Construct) :
    rel α (throw (first.refusal construct)) (throw (second.refusal construct)) :=
  alike.lift (.refuse construct)

theorem agree_likeCondition (negated : Bool) (subject pattern : Expr) :
    Agree first second (likeCondition negated subject pattern)
      (likeCondition negated subject pattern) := by
  unfold likeCondition
  split
  · exact .ok _
  · exact .fail trivial

theorem agree_nullFilter (negated : Bool) (subject : Expr) :
    Agree first second (nullFilter first negated subject) (nullFilter second negated subject) := by
  cases subject with
  | «variable» v => exact .ok _
  | _ => exact .refuse _

theorem agree_applyFunction (entry : FunctionEntry) (distinct : Bool) (args : List Expr) :
    Agree first second (applyFunction first entry distinct args)
      (applyFunction second entry distinct args) := by
  unfold applyFunction
  cases entry.target with
  | scalar function => exact .ok _
  | aggregate function =>
      dsimp only
      split
      · exact .refuse _
      · exact .ok _

theorem agree_checkTarget (aggregates : first.allowAggregates = second.allowAggregates)
    (name : String) (distinct star : Bool) (target : FunctionTarget) :
    Agree first second (checkTarget first name distinct star target)
      (checkTarget second name distinct star target) := by
  cases target with
  | scalar function =>
      simp only [checkTarget]
      split
      · exact .refuse _
      · exact .ok _
  | aggregate function =>
      simp only [checkTarget, aggregates]
      split
      · exact .refuse _
      · split
        · exact .refuse _
        · exact .ok _

theorem agree_resolveCall (functions : first.functions = second.functions)
    (aggregates : first.allowAggregates = second.allowAggregates) (name : String) (count : Nat)
    (distinct star : Bool) :
    Agree first second (resolveCall first name count distinct star)
      (resolveCall second name count distinct star) := by
  simp only [resolveCall, functions]
  split
  · exact .refuse _
  · cases second.functions.get? name with
    | none => exact .fail trivial
    | some entry =>
        have checked := agree_checkTarget aggregates name distinct star entry.target
        dsimp only
        generalize checkTarget first name distinct star entry.target = result at checked ⊢
        generalize checkTarget second name distinct star entry.target = other at checked ⊢
        cases checked with
        | ok value =>
            dsimp only [Bind.bind, Except.bind]
            split
            · exact .fail trivial
            · exact .ok _
        | refuse construct => exact .refuse construct
        | fail unplaced => exact .fail unplaced

mutual

/-- An expression is compiled alike in both modes. -/
theorem visit (alike : Alike first second rel) (e : Sql.Expr) :
    rel Expr (visit first e) (visit second e) := by
  cases e with
  | column name =>
      rw [Compile.visit, Compile.visit]
      exact alike.bind (alike.column name) fun _ => alike.pure _
  | literal value =>
      rw [Compile.visit, Compile.visit]
      cases literal? value with
      | some constant => exact alike.pure _
      | none => exact alike.refuse _
  | nested inner =>
      rw [Compile.visit, Compile.visit]
      exact alike.visit inner
  | binary op left right =>
      rw [Compile.visit, Compile.visit]
      cases binaryOp op with
      | ok op =>
          exact alike.bind (alike.visit left) fun _ =>
            alike.bind (alike.visit right) fun _ => alike.pure _
      | error construct => exact alike.refuse _
  | unary op operand =>
      rw [Compile.visit, Compile.visit]
      exact alike.bind (alike.visit operand) fun _ => alike.pure _
  | like negated subject pattern =>
      rw [Compile.visit, Compile.visit]
      exact alike.bind (alike.visit subject) fun _ => alike.bind (alike.visit pattern) fun _ =>
        alike.lift (agree_likeCondition _ _ _)
  | between negated subject low high =>
      rw [Compile.visit, Compile.visit]
      exact alike.bind (alike.visit subject) fun _ => alike.bind (alike.visit low) fun _ =>
        alike.bind (alike.visit high) fun _ => alike.pure _
  | inList negated subject items =>
      rw [Compile.visit, Compile.visit]
      exact alike.bind (alike.visit subject) fun _ =>
        alike.bind (alike.visitAll items) fun _ => alike.pure _
  | isNull negated subject =>
      rw [Compile.visit, Compile.visit]
      exact alike.bind (alike.visit subject) fun _ => alike.lift (agree_nullFilter _ _)
  | call name args distinct star =>
      rw [Compile.visit, Compile.visit]
      have resolved := agree_resolveCall alike.functions alike.aggregates name args.length
        distinct star
      generalize resolveCall first name args.length distinct star = result at resolved ⊢
      generalize resolveCall second name args.length distinct star = other at resolved ⊢
      cases resolved with
      | ok entry =>
          exact alike.bind (alike.visitAll args) fun _ => alike.lift (agree_applyFunction _ _ _)
      | refuse construct => exact alike.refuse construct
      | fail unplaced => exact alike.lift (.fail unplaced)
  | parameter => exact alike.refuse _
  | inQuery negated subject query => exact alike.refuse _
  | existsIn query => exact alike.refuse _
  | subquery query => exact alike.refuse _
  | compareAny op left query => exact alike.refuse _
  | compareAll op left query => exact alike.refuse _
  | case operand branches otherwise => exact alike.refuse _

/-- Some expressions are compiled alike in both modes. -/
theorem visitAll (alike : Alike first second rel) (es : List Sql.Expr) :
    rel (List Expr) (visitAll first es) (visitAll second es) := by
  cases es with
  | nil => exact alike.pure _
  | cons e rest =>
      rw [Compile.visitAll, Compile.visitAll]
      exact alike.bind (alike.visit e) fun _ =>
        alike.bind (alike.visitAll rest) fun _ => alike.pure _

end

theorem expression (alike : Alike first second rel) (e : Sql.Expr) :
    rel Expr (expression first e) (expression second e) := by
  rw [expression_eq_visit, expression_eq_visit]
  exact alike.visit e

end Alike

end TripleTables.Compile

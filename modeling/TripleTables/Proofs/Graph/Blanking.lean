import Mathlib.Data.List.Forall2
import TripleTables.Proofs.Graph.Constituents

/-!
# Expressions without their texts

`Expr.blanked` takes the texts out of the constants of an expression.
Expressions that are the same once they are blanked have the same shape and
differ in texts only.
-/

namespace TripleTables.Graph

/-- The constant with nothing between its quotes. -/
def Literal.blanked : Literal → Literal
  | .string _ => .string ""
  | .date _ => .date ""
  | .time _ => .time ""
  | .timestamp _ => .timestamp ""
  | .integer value => .integer value
  | .decimal digits => .decimal digits
  | .boolean value => .boolean value

/-- The digits of a number hold no double quote. -/
def Literal.IsQuiet : Literal → Prop
  | .decimal digits => '"' ∉ digits.toList
  | _ => True

namespace Expr

mutual

/-- The expression without the texts of its constants. -/
def blanked : Expr → Expr
  | .variable v => .variable v
  | .bound v => .bound v
  | .constant value => .constant value.blanked
  | .binary op left right => .binary op left.blanked right.blanked
  | .not operand => .not operand.blanked
  | .negate operand => .negate operand.blanked
  | .regex subject pattern flags => .regex subject.blanked pattern flags
  | .inList subject items negated => .inList subject.blanked (allBlanked items) negated
  | .call function args => .call function (allBlanked args)
  | .aggregate function distinct none => .aggregate function distinct none
  | .aggregate function distinct (some arg) => .aggregate function distinct (some arg.blanked)

/-- The expressions without their texts. -/
def allBlanked : List Expr → List Expr
  | [] => []
  | e :: rest => e.blanked :: allBlanked rest

end

theorem aggregate_blanked (function : Aggregate) (distinct : Bool) (arg : Option Expr) :
    (Expr.aggregate function distinct arg).blanked =
      .aggregate function distinct (arg.map blanked) := by
  cases arg with
  | none => rw [blanked, Option.map_none]
  | some arg => rw [blanked, Option.map_some]

mutual

/-- Blanking takes away no aggregate. -/
theorem containsAggregate_blanked (e : Expr) :
    e.blanked.containsAggregate = e.containsAggregate := by
  cases e with
  | «variable» v | bound v | constant value => rfl
  | binary op left right =>
      simp only [blanked, containsAggregate, containsAggregate_blanked left,
        containsAggregate_blanked right]
  | not operand | negate operand =>
      simp only [blanked, containsAggregate, containsAggregate_blanked operand]
  | regex subject pattern flags =>
      simp only [blanked, containsAggregate, containsAggregate_blanked subject]
  | inList subject items negated =>
      simp only [blanked, containsAggregate, containsAggregate_blanked subject,
        anyContainsAggregate_blanked items]
  | call function args =>
      simp only [blanked, containsAggregate, anyContainsAggregate_blanked args]
  | aggregate function distinct arg =>
      rw [aggregate_blanked, containsAggregate, containsAggregate]

theorem anyContainsAggregate_blanked (es : List Expr) :
    anyContainsAggregate (allBlanked es) = anyContainsAggregate es := by
  cases es with
  | nil => rfl
  | cons e rest =>
      simp only [allBlanked, anyContainsAggregate, containsAggregate_blanked e,
        anyContainsAggregate_blanked rest]

end

/-! ## Expressions that differ in texts -/

/-- The expressions are nodes of one kind whose parts are the same once they are
blanked. -/
inductive SameNode : Expr → Expr → Prop
  | variable (v : Variable) : SameNode (.variable v) (.variable v)
  | bound (v : Variable) : SameNode (.bound v) (.bound v)
  | constant {value other : Literal} (same : value.blanked = other.blanked) :
      SameNode (.constant value) (.constant other)
  | binary (op : BinaryOp) {left right left' right' : Expr}
      (sameLeft : left.blanked = left'.blanked) (sameRight : right.blanked = right'.blanked) :
      SameNode (.binary op left right) (.binary op left' right')
  | not {operand operand' : Expr} (same : operand.blanked = operand'.blanked) :
      SameNode (.not operand) (.not operand')
  | negate {operand operand' : Expr} (same : operand.blanked = operand'.blanked) :
      SameNode (.negate operand) (.negate operand')
  | regex {subject subject' : Expr} (pattern : String) (flags : Option String)
      (same : subject.blanked = subject'.blanked) :
      SameNode (.regex subject pattern flags) (.regex subject' pattern flags)
  | inList {subject subject' : Expr} {items items' : List Expr} (negated : Bool)
      (same : subject.blanked = subject'.blanked)
      (sameItems : allBlanked items = allBlanked items') :
      SameNode (.inList subject items negated) (.inList subject' items' negated)
  | call (function : Builtin) {args args' : List Expr} (same : allBlanked args = allBlanked args') :
      SameNode (.call function args) (.call function args')
  | aggregate (function : Aggregate) (distinct : Bool) {arg arg' : Option Expr}
      (same : arg.map blanked = arg'.map blanked) :
      SameNode (.aggregate function distinct arg) (.aggregate function distinct arg')

/-- What is the same once it is blanked has the same shape. -/
theorem sameNode_of_blanked_eq {first second : Expr} (same : first.blanked = second.blanked) :
    SameNode first second := by
  cases first with
  | «variable» v =>
      cases second with
      | «variable» w =>
          simp only [blanked, Expr.variable.injEq] at same
          obtain rfl := same
          exact .variable v
      | _ => simp only [blanked, aggregate_blanked, reduceCtorEq] at same
  | bound v =>
      cases second with
      | bound w =>
          simp only [blanked, Expr.bound.injEq] at same
          obtain rfl := same
          exact .bound v
      | _ => simp only [blanked, aggregate_blanked, reduceCtorEq] at same
  | constant value =>
      cases second with
      | constant other =>
          simp only [blanked, Expr.constant.injEq] at same
          exact .constant same
      | _ => simp only [blanked, aggregate_blanked, reduceCtorEq] at same
  | binary op left right =>
      cases second with
      | binary op' left' right' =>
          simp only [blanked, Expr.binary.injEq] at same
          obtain ⟨rfl, sameLeft, sameRight⟩ := same
          exact .binary op sameLeft sameRight
      | _ => simp only [blanked, aggregate_blanked, reduceCtorEq] at same
  | not operand =>
      cases second with
      | not operand' =>
          simp only [blanked, Expr.not.injEq] at same
          exact .not same
      | _ => simp only [blanked, aggregate_blanked, reduceCtorEq] at same
  | negate operand =>
      cases second with
      | negate operand' =>
          simp only [blanked, Expr.negate.injEq] at same
          exact .negate same
      | _ => simp only [blanked, aggregate_blanked, reduceCtorEq] at same
  | regex subject pattern flags =>
      cases second with
      | regex subject' pattern' flags' =>
          simp only [blanked, Expr.regex.injEq] at same
          obtain ⟨same, rfl, rfl⟩ := same
          exact .regex pattern flags same
      | _ => simp only [blanked, aggregate_blanked, reduceCtorEq] at same
  | inList subject items negated =>
      cases second with
      | inList subject' items' negated' =>
          simp only [blanked, Expr.inList.injEq] at same
          obtain ⟨same, sameItems, rfl⟩ := same
          exact .inList negated same sameItems
      | _ => simp only [blanked, aggregate_blanked, reduceCtorEq] at same
  | call function args =>
      cases second with
      | call function' args' =>
          simp only [blanked, Expr.call.injEq] at same
          obtain ⟨rfl, same⟩ := same
          exact .call function same
      | _ => simp only [blanked, aggregate_blanked, reduceCtorEq] at same
  | aggregate function distinct arg =>
      cases second with
      | aggregate function' distinct' arg' =>
          simp only [aggregate_blanked, Expr.aggregate.injEq] at same
          obtain ⟨rfl, rfl, same⟩ := same
          exact .aggregate function distinct same
      | _ => simp only [blanked, aggregate_blanked, reduceCtorEq] at same

/-- The variables of the expression are clean and its constants quiet. -/
abbrev IsClean (e : Expr) : Prop :=
  e.MadeOf Variable.IsClean Literal.IsQuiet

/-- The expressions are clean and differ only in the texts of their constants. -/
structure SameButTexts (first second : Expr) : Prop where
  blanked_eq : first.blanked = second.blanked
  clean : first.IsClean

theorem sameButTexts_variable {v : Variable} (clean : v.IsClean) :
    SameButTexts (.variable v) (.variable v) :=
  ⟨rfl, clean⟩

theorem sameButTexts_bound {v : Variable} (clean : v.IsClean) :
    SameButTexts (.bound v) (.bound v) :=
  ⟨rfl, clean⟩

theorem sameButTexts_constant {value other : Literal} (same : value.blanked = other.blanked)
    (quiet : value.IsQuiet) : SameButTexts (.constant value) (.constant other) :=
  ⟨by rw [blanked, blanked, same], quiet⟩

namespace SameButTexts

variable {first second third first' second' third' : Expr}

theorem containsAggregate_eq (same : SameButTexts first second) :
    first.containsAggregate = second.containsAggregate := by
  rw [← containsAggregate_blanked first, same.blanked_eq, containsAggregate_blanked]

theorem eq_string (same : SameButTexts first second) {text : String}
    (isString : second = .constant (.string text)) :
    ∃ other, first = .constant (.string other) := by
  subst isString
  cases sameNode_of_blanked_eq same.blanked_eq with
  | @constant value _ same =>
      cases value with
      | string other => exact ⟨other, rfl⟩
      | _ => simp [Literal.blanked] at same

theorem binary (op : BinaryOp) (left : SameButTexts first first')
    (right : SameButTexts second second') :
    SameButTexts (.binary op first second) (.binary op first' second') :=
  ⟨by rw [blanked, blanked, left.blanked_eq, right.blanked_eq], left.clean, right.clean⟩

theorem not (operand : SameButTexts first first') : SameButTexts (.not first) (.not first') :=
  ⟨by rw [blanked, blanked, operand.blanked_eq], operand.clean⟩

theorem negate (operand : SameButTexts first first') :
    SameButTexts (.negate first) (.negate first') :=
  ⟨by rw [blanked, blanked, operand.blanked_eq], operand.clean⟩

theorem regex (subject : SameButTexts first first') (pattern : String) (flags : Option String) :
    SameButTexts (.regex first pattern flags) (.regex first' pattern flags) :=
  ⟨by rw [blanked, blanked, subject.blanked_eq], subject.clean⟩

theorem all {es others : List Expr} (same : List.Forall₂ SameButTexts es others) :
    allBlanked es = allBlanked others ∧ AllMadeOf Variable.IsClean Literal.IsQuiet es := by
  induction same with
  | nil => exact ⟨rfl, trivial⟩
  | cons first _ ih =>
      exact ⟨by rw [allBlanked, allBlanked, first.blanked_eq, ih.1], first.clean, ih.2⟩

theorem inList (subject : SameButTexts first first') {items others : List Expr}
    (same : List.Forall₂ SameButTexts items others) (negated : Bool) :
    SameButTexts (.inList first items negated) (.inList first' others negated) :=
  ⟨by rw [blanked, blanked, subject.blanked_eq, (all same).1], subject.clean, (all same).2⟩

theorem call (function : Builtin) {args others : List Expr}
    (same : List.Forall₂ SameButTexts args others) :
    SameButTexts (.call function args) (.call function others) :=
  ⟨by rw [blanked, blanked, (all same).1], (all same).2⟩

theorem aggregate (function : Aggregate) (distinct : Bool) {arg other : Option Expr}
    (same : Option.Rel SameButTexts arg other) :
    SameButTexts (.aggregate function distinct arg) (.aggregate function distinct other) := by
  cases same with
  | none => exact ⟨rfl, trivial⟩
  | some arg => exact ⟨by rw [blanked, blanked, arg.blanked_eq], arg.clean⟩

end SameButTexts

end Expr

end TripleTables.Graph

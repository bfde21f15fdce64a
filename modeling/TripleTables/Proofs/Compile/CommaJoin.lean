import TripleTables.Proofs.Compile.Outcome
import TripleTables.Proofs.Compile.Scope

/-!
# Comma joins

A statement whose joins are all inner or cross joins can be written without
them: its tables are listed with commas, and the conditions of the joins go in
front of the condition on rows.  Both statements compile to the same query, but
for one filter in the place of several, and fail with the same error, but for
the name of the clause.
-/

namespace TripleTables

/-! ## Conjunctions -/

/-- Conditions that are joined by AND, with the brackets around them. -/
inductive Conjunction (α : Type) where
  | single (condition : α)
  | both (left right : Conjunction α)
  | brackets (inner : Conjunction α)

namespace Conjunction

variable {α β : Type}

/-- The conditions from left to right. -/
def leaves : Conjunction α → List α
  | .single condition => [condition]
  | .both left right => left.leaves ++ right.leaves
  | .brackets inner => inner.leaves

/-- The way in which the conditions are joined. -/
def shape : Conjunction α → Conjunction Unit
  | .single _ => .single ()
  | .both left right => .both left.shape right.shape
  | .brackets inner => .brackets inner.shape

/-- The conjunction as an expression of SQL. -/
def toSql : Conjunction Sql.Expr → Sql.Expr
  | .single condition => condition
  | .both left right => .binary .and left.toSql right.toSql
  | .brackets inner => .nested inner.toSql

/-- The conjunction as an expression of a compiled query, which has no
brackets. -/
def toGraph : Conjunction Graph.Expr → Graph.Expr
  | .single condition => condition
  | .both left right => .binary .and left.toGraph right.toGraph
  | .brackets inner => inner.toGraph

/-- The conditions of a conjunction that may be missing. -/
def leavesOf (conjunction : Option (Conjunction α)) : List α :=
  (conjunction.map leaves).getD []

theorem leaves_ne_nil (conjunction : Conjunction α) : conjunction.leaves ≠ [] := by
  induction conjunction with
  | single condition => simp [leaves]
  | both left right leftIh rightIh => simp [leaves, leftIh]
  | brackets inner ih => exact ih

/-- A conjunction of one condition is that condition. -/
theorem toGraph_of_leaves {conjunction : Conjunction Graph.Expr} {condition : Graph.Expr}
    (only : conjunction.leaves = [condition]) : conjunction.toGraph = condition := by
  induction conjunction with
  | single other => simpa [leaves, toGraph] using only
  | both left right leftIh rightIh =>
      exfalso
      have lengths := congrArg List.length only
      have leftSome := List.length_pos_iff.mpr left.leaves_ne_nil
      have rightSome := List.length_pos_iff.mpr right.leaves_ne_nil
      simp only [leaves, List.length_append, List.length_singleton] at lengths
      omega
  | brackets inner ih => exact ih only

/-- Conjunctions of the same shape have equally many conditions. -/
theorem length_leaves_of_shape {first : Conjunction α} {second : Conjunction β}
    (same : first.shape = second.shape) : first.leaves.length = second.leaves.length := by
  induction first generalizing second with
  | single condition =>
      cases second with
      | single other => rfl
      | both left right => cases same
      | brackets inner => cases same
  | both left right leftIh rightIh =>
      cases second with
      | single other => cases same
      | both left' right' =>
          simp only [shape, both.injEq] at same
          simp [leaves, leftIh same.1, rightIh same.2]
      | brackets inner => cases same
  | brackets inner ih =>
      cases second with
      | single other => cases same
      | both left right => cases same
      | brackets inner' =>
          simp only [shape, brackets.injEq] at same
          simpa [leaves] using ih same

/-- Of one condition at most, a conjunction is made without AND. -/
theorem toGraph_toList_of_shape {first : Option (Conjunction Graph.Expr)}
    {second : Option (Conjunction α)} (same : first.map shape = second.map shape)
    (single : (leavesOf second).length ≤ 1) :
    (first.map toGraph).toList = leavesOf first := by
  cases first with
  | none => rfl
  | some conjunction =>
      cases second with
      | none => cases same
      | some other =>
          have lengths : conjunction.leaves.length = other.leaves.length :=
            length_leaves_of_shape (Option.some.inj same)
          have some := List.length_pos_iff.mpr conjunction.leaves_ne_nil
          have atMost : other.leaves.length ≤ 1 := single
          obtain ⟨condition, only⟩ : ∃ condition, conjunction.leaves = [condition] := by
            apply List.length_eq_one_iff.mp
            omega
          have alone : conjunction.toGraph = condition := toGraph_of_leaves only
          simp [leavesOf, only, alone]

end Conjunction

/-! ## Statements without joins -/

namespace Sql.Query

/-- Every join of the statement is an inner or a cross join. -/
def InnerJoins (query : Query) : Prop :=
  ∀ entry ∈ query.sources, ∀ join ∈ entry.joins,
    join.rule = .cross ∨ ∃ condition, join.rule = .on .inner condition

/-- What the statement draws rows from, in order. -/
def factors (query : Query) : List Source :=
  query.sources.flatMap fun entry => entry.source :: entry.joins.map Join.source

/-- The conditions of the joins, in order. -/
def joinConditions (query : Query) : List Expr :=
  query.sources.flatMap fun entry => entry.joins.filterMap fun join => join.rule.condition?

/-- The conditions of the joins and the condition on rows, in order. -/
def conditions (query : Query) : List Expr :=
  query.joinConditions ++ query.condition.toList

/-- The statement with commas for its joins and another condition on rows. -/
def commaJoined (query : Query) (condition : Option Expr) : Query :=
  { query with
    sources := query.factors.map fun source => { source, joins := [] }
    condition }

end Sql.Query

namespace Compile

/-! ## Tables without joins -/

/-- Binds sources, in order. -/
def bindFactors (factors : List Sql.Source) : Compile Unit :=
  factors.forM fun source => do
    let _ ← bindSource false source

theorem neutral_bindFactors (factors : List Sql.Source) : Neutral (bindFactors factors) := by
  apply Neutral.forM
  intro source
  exact .bind (neutral_bindSource false source) fun _ => .pure _

theorem bindFactors_cons (source : Sql.Source) (rest : List Sql.Source) :
    bindFactors (source :: rest) = bindSource false source >>= fun _ => bindFactors rest := by
  simp only [bindFactors, List.forM_eq_forM, List.forM_cons, bind_assoc, pure_bind]

theorem bindFactors_append (first second : List Sql.Source) :
    bindFactors (first ++ second) = bindFactors first >>= fun _ => bindFactors second := by
  simp only [bindFactors, List.forM_eq_forM, List.forM_append]

/-- Inner and cross joins bind their sources and leave their conditions. -/
theorem bindJoins_eq {joins : List Sql.Join}
    (inner : ∀ join ∈ joins, join.rule = .cross ∨ ∃ condition, join.rule = .on .inner condition) :
    bindJoins joins = bindFactors (joins.map Sql.Join.source) >>= fun _ =>
      pure { inner := joins.filterMap fun join => join.rule.condition? } := by
  induction joins with
  | nil => rfl
  | cons join rest ih =>
      have restInner := ih fun other member => inner other (List.mem_cons_of_mem join member)
      rw [bindJoins, restInner, List.map_cons, bindFactors_cons]
      rcases inner join List.mem_cons_self with rule | ⟨condition, rule⟩
      · simp [bindJoin, rule, Sql.JoinRule.condition?, Conditions.append]
      · cases condition with
        | none => simp [bindJoin, rule, Sql.JoinRule.condition?, Conditions.append]
        | some condition => simp [bindJoin, rule, Sql.JoinRule.condition?, Conditions.append]

theorem bindSources_eq {sources : List Sql.SourceWithJoins}
    (inner : ∀ entry ∈ sources, ∀ join ∈ entry.joins,
      join.rule = .cross ∨ ∃ condition, join.rule = .on .inner condition) :
    bindSources sources =
      bindFactors (sources.flatMap fun entry => entry.source :: entry.joins.map Sql.Join.source)
        >>= fun _ => pure
          { inner := sources.flatMap fun entry =>
              entry.joins.filterMap fun join => join.rule.condition? } := by
  induction sources with
  | nil => rfl
  | cons entry rest ih =>
      have restInner := ih fun other member => inner other (List.mem_cons_of_mem entry member)
      rw [bindSources, restInner, bindJoins_eq (inner entry List.mem_cons_self),
        List.flatMap_cons, List.cons_append, bindFactors_cons, bindFactors_append]
      simp [Conditions.append]

/-! ## Gathering filters -/

/-- Adds filters to those gathered so far. -/
def gather (filters : List Graph.Expr) : StateT Builder (Except CompileError) PUnit :=
  fun builder => .ok (⟨⟩, builder.withFilters (builder.filters ++ filters))

theorem gather_append (first second : List Graph.Expr) :
    gather (first ++ second) = gather first >>= fun _ => gather second := by
  funext builder
  show Except.ok (PUnit.unit, builder.withFilters (builder.filters ++ (first ++ second))) =
    Except.ok (PUnit.unit, (builder.withFilters (builder.filters ++ first)).withFilters
      (builder.filters ++ first ++ second))
  rw [List.append_assoc]
  rfl

/-- Filters may be gathered before or after a step that does not see them. -/
theorem gather_bind_comm {α β : Type} {step : StateT Builder (Except CompileError) α}
    (blind : Blind step) (filters : List Graph.Expr)
    (next : α → StateT Builder (Except CompileError) β) :
    (gather filters >>= fun _ => step >>= next) =
      step >>= fun value => gather filters >>= fun _ => next value := by
  funext builder
  show (step (builder.withFilters (builder.filters ++ filters)) >>= fun result =>
      next result.1 result.2) =
    (step builder >>= fun result =>
      next result.1 (result.2.withFilters (result.2.filters ++ filters)))
  rw [blind]
  cases ran : step builder with
  | error error => rfl
  | ok result =>
      have kept : result.2.filters = builder.filters := blind.filters_eq ran
      show next result.1 (result.2.withFilters (builder.filters ++ filters)) = _
      rw [← kept]
      rfl

/-- Compiles conditions one by one and adds each as a filter. -/
def addConditions (mode : Mode) (conditions : List Sql.Expr) : Compile Unit :=
  conditions.forM fun e => do
    let condition ← expression mode e
    ofBuild (Builder.addFilter condition)

variable {mode : Mode}

/-- Compiles the conditions of a conjunction and keeps their shape. -/
def visitConjunction (mode : Mode) : Conjunction Sql.Expr → Compile (Conjunction Graph.Expr)
  | .single e => do
      let condition ← expression mode e
      return .single condition
  | .both left right => do
      let left ← visitConjunction mode left
      let right ← visitConjunction mode right
      return .both left right
  | .brackets inner => do
      let inner ← visitConjunction mode inner
      return .brackets inner

theorem blind_visitConjunction (conjunction : Conjunction Sql.Expr) :
    Blind (Run.outcome (visitConjunction mode conjunction)) := by
  induction conjunction with
  | single e =>
      simp only [visitConjunction, Run.outcome_bind]
      exact .bind (blind_expression e) fun _ => .pure _
  | both left right leftIh rightIh =>
      simp only [visitConjunction, Run.outcome_bind]
      exact .bind leftIh fun _ => .bind rightIh fun _ => .pure _
  | brackets inner ih =>
      simp only [visitConjunction, Run.outcome_bind]
      exact .bind ih fun _ => .pure _

/-- A conjunction is compiled to a conjunction of its compiled conditions. -/
theorem expression_toSql (conjunction : Conjunction Sql.Expr) :
    expression mode conjunction.toSql =
      visitConjunction mode conjunction >>= fun compiled => pure compiled.toGraph := by
  induction conjunction with
  | single e =>
      simp [visitConjunction, Conjunction.toSql, Conjunction.toGraph]
  | both left right leftIh rightIh =>
      rw [expression_eq_visit] at leftIh rightIh ⊢
      rw [Conjunction.toSql, visit, binaryOp]
      simp [leftIh, rightIh, visitConjunction, Conjunction.toGraph]
  | brackets inner ih =>
      rw [expression_eq_visit] at ih ⊢
      rw [Conjunction.toSql, visit]
      simp [ih, visitConjunction, Conjunction.toGraph]

/-- Conditions that are compiled one by one are compiled as those of a
conjunction, and gathered afterwards. -/
theorem outcome_addConditions (conjunction : Conjunction Sql.Expr) :
    Run.outcome (addConditions mode conjunction.leaves) =
      Run.outcome (visitConjunction mode conjunction) >>= fun compiled =>
        gather compiled.leaves := by
  induction conjunction with
  | single e =>
      simp only [addConditions, Conjunction.leaves, List.forM_eq_forM, List.forM_cons,
        List.forM_nil, visitConjunction, Run.outcome_bind, Run.outcome_pure, bind_assoc,
        pure_bind]
      rfl
  | both left right leftIh rightIh =>
      have split : addConditions mode (left.leaves ++ right.leaves) =
          addConditions mode left.leaves >>= fun _ => addConditions mode right.leaves := by
        simp only [addConditions, List.forM_eq_forM, List.forM_append]
      rw [Conjunction.leaves, split, Run.outcome_bind, leftIh, rightIh]
      simp only [visitConjunction, Run.outcome_bind, Run.outcome_pure, bind_assoc, pure_bind]
      congr 1
      funext compiledLeft
      rw [gather_bind_comm (blind_visitConjunction right)]
      congr 1
      funext compiledRight
      exact (gather_append compiledLeft.leaves compiledRight.leaves).symm
  | brackets inner ih =>
      rw [Conjunction.leaves, ih]
      simp only [visitConjunction, Run.outcome_bind, Run.outcome_pure, bind_assoc, pure_bind]
      rfl

/-- The conditions of joins, moved to the conditions on rows, are compiled with
the outcome they have there. -/
theorem renamed_addConditions (conditions : List Sql.Expr) :
    Run.renamed moved (Run.outcome (addConditions mode conditions)) =
      Run.outcome (addConditions mode.moved conditions) := by
  induction conditions with
  | nil => rfl
  | cons e rest ih =>
      simp only [addConditions, List.forM_eq_forM, List.forM_cons, Run.outcome_bind,
        Run.renamed_bind, renamed_expression, Neutral.steady_ofBuild] at ih ⊢
      rw [ih]

/-! ## Both statements -/

/-- What is compiled before the conditions. -/
def beforeConditions (functions : FunctionTable) (query : Sql.Query) : Compile Unit :=
  if query.factors.isEmpty then throw (.query .emptyFrom)
  else do
    bindFactors query.factors
    ofBuild (Builder.setDistinct query.distinct)
    addItems functions 1 query.items

theorem neutral_beforeConditions (functions : FunctionTable) (query : Sql.Query) :
    Neutral (beforeConditions functions query) := by
  unfold beforeConditions
  split
  · exact ⟨.throw _, rfl⟩
  · apply Neutral.bind (neutral_bindFactors query.factors)
    intro _
    apply Neutral.bind (.ofBuild (.modify fun _ _ => rfl))
    intro _
    exact neutral_addItems functions query.items 1

/-- How conditions of joins are compiled. -/
def joinMode (functions : FunctionTable) : Mode :=
  { functions, clause := "ON clause" }

/-- How conditions on rows are compiled. -/
def rowMode (functions : FunctionTable) : Mode :=
  { functions, clause := "WHERE clause" }

theorem isEmpty_factors (query : Sql.Query) :
    query.factors.isEmpty = query.sources.isEmpty := by
  unfold Sql.Query.factors
  cases query.sources with
  | nil => rfl
  | cons entry rest => rfl

theorem addCondition_eq (functions : FunctionTable) (condition : Option Sql.Expr) :
    addCondition functions condition = addConditions (rowMode functions) condition.toList := by
  cases condition with
  | none => rfl
  | some e =>
      have last : addConditions (rowMode functions) [e] =
          (expression (rowMode functions) e >>= fun condition =>
            ofBuild (Builder.addFilter condition)) := by
        simp only [addConditions, List.forM_eq_forM, List.forM_cons, List.forM_nil]
        exact bind_pure _
      exact last.symm

/-- The clauses of a statement with inner and cross joins only. -/
theorem clauses_eq {functions : FunctionTable} {query : Sql.Query} (inner : query.InnerJoins) :
    clauses functions query =
      beforeConditions functions query >>= fun _ =>
        addConditions (joinMode functions) query.joinConditions >>= fun _ =>
          addConditions (rowMode functions) query.condition.toList >>= fun _ =>
            afterConditions functions query := by
  unfold clauses beforeConditions
  rw [isEmpty_factors]
  cases query.sources.isEmpty with
  | true => rfl
  | false =>
      simp only [Bool.false_eq_true, if_false, bindSources_eq inner, addCondition_eq, bind_assoc,
        pure_bind]
      rfl

/-- Compiles a conjunction that may be missing. -/
def visitOptional (mode : Mode) :
    Option (Conjunction Sql.Expr) → Compile (Option (Conjunction Graph.Expr))
  | none => pure none
  | some conjunction => do
      let compiled ← visitConjunction mode conjunction
      return some compiled

theorem blind_visitOptional (conjunction : Option (Conjunction Sql.Expr)) :
    Blind (Run.outcome (visitOptional mode conjunction)) := by
  cases conjunction with
  | none => exact .pure _
  | some conjunction =>
      simp only [visitOptional, Run.outcome_bind]
      exact .bind (blind_visitConjunction conjunction) fun _ => .pure _

theorem outcome_addConditions_leavesOf (conjunction : Option (Conjunction Sql.Expr)) :
    Run.outcome (addConditions mode (Conjunction.leavesOf conjunction)) =
      Run.outcome (visitOptional mode conjunction) >>= fun compiled =>
        gather (Conjunction.leavesOf compiled) := by
  cases conjunction with
  | none =>
      funext builder
      show Except.ok (PUnit.unit, builder) =
        Except.ok (PUnit.unit, builder.withFilters (builder.filters ++ []))
      rw [List.append_nil]
      rfl
  | some conjunction =>
      simp only [visitOptional, Run.outcome_bind, Run.outcome_pure, bind_assoc, pure_bind]
      exact outcome_addConditions conjunction

theorem outcome_addConditions_toSql (conjunction : Option (Conjunction Sql.Expr)) :
    Run.outcome (addConditions mode (conjunction.map Conjunction.toSql).toList) =
      Run.outcome (visitOptional mode conjunction) >>= fun compiled =>
        gather (compiled.map Conjunction.toGraph).toList := by
  cases conjunction with
  | none =>
      funext builder
      show Except.ok (PUnit.unit, builder) =
        Except.ok (PUnit.unit, builder.withFilters (builder.filters ++ []))
      rw [List.append_nil]
      rfl
  | some conjunction =>
      simp only [Option.map_some, Option.toList_some, addConditions, List.forM_eq_forM,
        List.forM_cons, List.forM_nil, expression_toSql, visitOptional, Run.outcome_bind,
        Run.outcome_pure, bind_assoc, pure_bind]
      rfl

/-- All of a statement but its filters, with the compiled conjunction. -/
def withoutFilters (functions : FunctionTable) (query : Sql.Query)
    (conjunction : Option (Conjunction Sql.Expr)) : Compile (Option (Conjunction Graph.Expr)) := do
  beforeConditions functions query
  let compiled ← visitOptional (rowMode functions) conjunction
  afterConditions functions query
  return compiled

theorem blind_withoutFilters (functions : FunctionTable) (query : Sql.Query)
    (conjunction : Option (Conjunction Sql.Expr)) :
    Blind (Run.outcome (withoutFilters functions query conjunction)) := by
  simp only [withoutFilters, Run.outcome_bind]
  exact .bind (neutral_beforeConditions functions query).blind fun _ =>
    .bind (blind_visitOptional conjunction) fun _ =>
      .bind (neutral_afterConditions functions query).blind fun _ => .pure _

/-- Filters may be gathered after all else. -/
theorem gather_last (functions : FunctionTable) (query : Sql.Query)
    (conjunction : Option (Conjunction Sql.Expr))
    (filters : Option (Conjunction Graph.Expr) → List Graph.Expr) :
    (Run.outcome (beforeConditions functions query) >>= fun _ =>
      Run.outcome (visitOptional (rowMode functions) conjunction) >>= fun compiled =>
        gather (filters compiled) >>= fun _ => Run.outcome (afterConditions functions query)) =
      Run.outcome (withoutFilters functions query conjunction) >>= fun compiled =>
        gather (filters compiled) := by
  simp only [withoutFilters, Run.outcome_bind, Run.outcome_pure, bind_assoc, pure_bind]
  congr 1
  funext _
  congr 1
  funext compiled
  have later := gather_bind_comm (neutral_afterConditions functions query).blind
    (filters compiled) pure
  simp only [bind_pure] at later
  exact later

/-- The statement with joins gathers the conditions of the conjunction. -/
theorem renamed_clauses (functions : FunctionTable) {query : Sql.Query} (inner : query.InnerJoins)
    {conjunction : Option (Conjunction Sql.Expr)}
    (conjoined : Conjunction.leavesOf conjunction = query.conditions) :
    Run.renamed moved (Run.outcome (clauses functions query)) =
      Run.outcome (withoutFilters functions query conjunction) >>= fun compiled =>
        gather (Conjunction.leavesOf compiled) := by
  have joins : Run.renamed moved
      (Run.outcome (addConditions (joinMode functions) query.joinConditions)) =
        Run.outcome (addConditions (rowMode functions) query.joinConditions) :=
    renamed_addConditions query.joinConditions
  have rows : Run.renamed moved
      (Run.outcome (addConditions (rowMode functions) query.condition.toList)) =
        Run.outcome (addConditions (rowMode functions) query.condition.toList) :=
    renamed_addConditions query.condition.toList
  have together : addConditions (rowMode functions) query.joinConditions >>= (fun _ =>
      addConditions (rowMode functions) query.condition.toList) =
        addConditions (rowMode functions) (Conjunction.leavesOf conjunction) := by
    rw [conjoined]
    simp only [Sql.Query.conditions, addConditions, List.forM_eq_forM, List.forM_append]
  rw [clauses_eq inner, ← gather_last]
  simp only [Run.outcome_bind, Run.renamed_bind,
    (neutral_beforeConditions functions query).steady,
    (neutral_afterConditions functions query).steady, joins, rows]
  congr 1
  funext _
  rw [← bind_assoc, ← Run.outcome_bind, together, outcome_addConditions_leavesOf, bind_assoc]

/-- The statement with commas gathers one filter. -/
theorem outcome_clauses_commaJoined (functions : FunctionTable) (query : Sql.Query)
    (conjunction : Option (Conjunction Sql.Expr)) :
    Run.outcome (clauses functions (query.commaJoined (conjunction.map Conjunction.toSql))) =
      Run.outcome (withoutFilters functions query conjunction) >>= fun compiled =>
        gather (compiled.map Conjunction.toGraph).toList := by
  have noJoins : (query.commaJoined (conjunction.map Conjunction.toSql)).InnerJoins := by
    intro entry member
    obtain ⟨source, _, rfl⟩ := List.mem_map.mp member
    simp
  have sameFactors : (query.commaJoined (conjunction.map Conjunction.toSql)).factors =
      query.factors := by
    simp [Sql.Query.factors, Sql.Query.commaJoined, List.flatMap_map]
  have noConditions : (query.commaJoined (conjunction.map Conjunction.toSql)).joinConditions =
      [] := by
    simp [Sql.Query.joinConditions, Sql.Query.commaJoined]
  have before : beforeConditions functions
      (query.commaJoined (conjunction.map Conjunction.toSql)) =
        beforeConditions functions query := by
    unfold beforeConditions
    rw [sameFactors]
    rfl
  rw [clauses_eq noJoins, noConditions, before, ← gather_last]
  simp only [Run.outcome_bind]
  congr 1
  funext _
  have nothing : Run.outcome (addConditions (joinMode functions) []) = pure () := rfl
  rw [nothing, pure_bind]
  show Run.outcome (addConditions (rowMode functions)
      (conjunction.map Conjunction.toSql).toList) >>= (fun _ =>
        Run.outcome (afterConditions functions query)) = _
  rw [outcome_addConditions_toSql, bind_assoc]

theorem clauses_of_error {functions : FunctionTable} {query : Sql.Query} (inner : query.InnerJoins)
    {conjunction : Option (Conjunction Sql.Expr)}
    (conjoined : Conjunction.leavesOf conjunction = query.conditions) {before last : Builder}
    {error : CompileError}
    (ran : withoutFilters functions query conjunction before = .error error last) :
    ∃ other, Run.outcome (clauses functions query) before = .error other ∧
      Run.outcome (clauses functions (query.commaJoined (conjunction.map Conjunction.toSql)))
        before = .error (moved other) := by
  have joined := congrFun (renamed_clauses functions inner conjoined) before
  have listed := congrFun (outcome_clauses_commaJoined functions query conjunction) before
  simp only [Run.renamed, bind, StateT.bind, Run.outcome_of_error ran, Except.bind] at joined listed
  cases whole : Run.outcome (clauses functions query) before with
  | ok result =>
      rw [whole] at joined
      cases joined
  | error other =>
      rw [whole] at joined
      cases joined
      exact ⟨other, rfl, listed⟩

theorem clauses_of_ok {functions : FunctionTable} {query : Sql.Query} (inner : query.InnerJoins)
    {conjunction : Option (Conjunction Sql.Expr)}
    (conjoined : Conjunction.leavesOf conjunction = query.conditions) {before last : Builder}
    (noFilters : before.filters = []) {compiled : Option (Conjunction Graph.Expr)}
    (ran : withoutFilters functions query conjunction before = .ok compiled last) :
    Run.outcome (clauses functions query) before =
        .ok ((), last.withFilters (Conjunction.leavesOf compiled)) ∧
      Run.outcome (clauses functions (query.commaJoined (conjunction.map Conjunction.toSql)))
          before =
        .ok ((), last.withFilters (compiled.map Conjunction.toGraph).toList) := by
  have joined := congrFun (renamed_clauses functions inner conjoined) before
  have listed := congrFun (outcome_clauses_commaJoined functions query conjunction) before
  have succeeded := Run.outcome_of_ok ran
  have none : last.filters = [] := by
    rw [(blind_withoutFilters functions query conjunction).filters_eq succeeded, noFilters]
  simp only [Run.renamed, bind, StateT.bind, succeeded, Except.bind, gather, none,
    List.nil_append] at joined listed
  refine ⟨?_, listed⟩
  cases whole : Run.outcome (clauses functions query) before with
  | ok result =>
      rw [whole] at joined
      exact joined
  | error other =>
      rw [whole] at joined
      cases joined

/-- Compiling keeps the shape of a conjunction. -/
theorem shape_of_visitConjunction {conjunction : Conjunction Sql.Expr}
    {compiled : Conjunction Graph.Expr} {before after : Builder}
    (ran : visitConjunction mode conjunction before = .ok compiled after) :
    compiled.shape = conjunction.shape := by
  induction conjunction generalizing compiled before after with
  | single e =>
      obtain ⟨condition, middle, _, done⟩ := Run.bind_eq_ok_iff.mp ran
      cases done
      rfl
  | both left right leftIh rightIh =>
      obtain ⟨first, middle, leftRan, rest⟩ := Run.bind_eq_ok_iff.mp ran
      obtain ⟨second, last, rightRan, done⟩ := Run.bind_eq_ok_iff.mp rest
      cases done
      rw [Conjunction.shape, Conjunction.shape, leftIh leftRan, rightIh rightRan]
  | brackets inner ih =>
      obtain ⟨content, middle, innerRan, done⟩ := Run.bind_eq_ok_iff.mp ran
      cases done
      rw [Conjunction.shape, Conjunction.shape, ih innerRan]

theorem shape_of_withoutFilters {functions : FunctionTable} {query : Sql.Query}
    {conjunction : Option (Conjunction Sql.Expr)} {compiled : Option (Conjunction Graph.Expr)}
    {before after : Builder}
    (ran : withoutFilters functions query conjunction before = .ok compiled after) :
    compiled.map Conjunction.shape = conjunction.map Conjunction.shape := by
  obtain ⟨_, _, _, ran⟩ := Run.bind_eq_ok_iff.mp ran
  obtain ⟨visited, _, visitRan, ran⟩ := Run.bind_eq_ok_iff.mp ran
  obtain ⟨_, _, _, done⟩ := Run.bind_eq_ok_iff.mp ran
  cases done
  cases conjunction with
  | none =>
      cases visitRan
      rfl
  | some conjunction =>
      obtain ⟨content, _, contentRan, done⟩ := Run.bind_eq_ok_iff.mp visitRan
      cases done
      rw [Option.map_some, Option.map_some, shape_of_visitConjunction contentRan]

end Compile

/-! ## Compiled queries -/

/-- A query that differs from another only in its filters. -/
def Query.withFilters (query : Query) (rest : List Element) (filters : List Graph.Expr) : Query :=
  { query with elements := rest ++ filters.map .filter }

/-- The filters come last in a query and change nothing else of it. -/
theorem Builder.exists_build_withFilters {builder : Builder}
    (bound : builder.bindings.isEmpty = false) :
    ∃ (base : Query) (rest : List Element), ∀ filters,
      (builder.withFilters filters).build = .ok (base.withFilters rest filters) ∧
      (base.withFilters rest filters).filters = filters := by
  refine ⟨{ prefixes := builder.catalog.prefixes
            service := if builder.useService then builder.catalog.endpoint else none
            distinct := builder.distinct
            projections := builder.projections
            elements := []
            groupBy := builder.groupBy
            having := builder.having
            orderBy := builder.orderBy
            limit := builder.limit
            offset := builder.offset
            columns := builder.columns },
    (builder.blocks.filter (fun block => !block.isVoid)).map Element.block ++
      builder.binds.map (fun entry => Element.bind entry.1 entry.2), ?_⟩
  intro filters
  constructor
  · have boundToo : (builder.withFilters filters).bindings.isEmpty = false := bound
    unfold Builder.build
    rw [boundToo]
    rfl
  · simp [Query.filters, Query.withFilters, List.filterMap_append, List.filterMap_map]

/-- A statement with inner and cross joins and the statement with commas for
them, whose condition joins the conditions of the joins and the condition on
rows by AND, succeed together and fail together.  Where they succeed, their
queries differ in that one filter joins the several filters in the same way;
one condition alone makes no difference.  Where they fail, the errors differ in
the clause in which the conditions of the joins stand. -/
theorem Compiler.compile_commaJoined (compiler : Compiler) {query : Sql.Query}
    (inner : query.InnerJoins) {conjunction : Option (Conjunction Sql.Expr)}
    (conjoined : Conjunction.leavesOf conjunction = query.conditions) :
    (∃ result other filters rest,
      compiler.compile query = .ok result ∧
      compiler.compile (query.commaJoined (conjunction.map Conjunction.toSql)) = .ok other ∧
      filters.map Conjunction.shape = conjunction.map Conjunction.shape ∧
      result.filters = Conjunction.leavesOf filters ∧
      result = result.withFilters rest (Conjunction.leavesOf filters) ∧
      other = result.withFilters rest (filters.map Conjunction.toGraph).toList ∧
      (query.conditions.length ≤ 1 → other = result)) ∨
    ∃ error,
      compiler.compile query = .error error ∧
      compiler.compile (query.commaJoined (conjunction.map Conjunction.toSql)) =
        .error (Compile.moved error) := by
  rw [compile_eq_outcome, compile_eq_outcome]
  cases ran : Compile.withoutFilters compiler.functions query conjunction compiler.start with
  | error error last =>
      right
      obtain ⟨other, joined, listed⟩ := Compile.clauses_of_error inner conjoined ran
      refine ⟨other, ?_, ?_⟩
      · rw [joined]
      · rw [listed]
  | ok filters last =>
      obtain ⟨joined, listed⟩ := Compile.clauses_of_ok inner conjoined rfl ran
      rw [joined, listed]
      cases bound : last.bindings.isEmpty with
      | true =>
          right
          have failed : ∀ filters, (last.withFilters filters).build = .error .emptyFrom := by
            intro filters
            have boundToo : (last.withFilters filters).bindings.isEmpty = true := bound
            unfold Builder.build
            rw [boundToo]
            rfl
          refine ⟨.query .emptyFrom, ?_, ?_⟩
          · simp only [failed]
            rfl
          · simp only [failed]
            rfl
      | false =>
          left
          obtain ⟨base, rest, built⟩ := Builder.exists_build_withFilters bound
          have sameShape := Compile.shape_of_withoutFilters ran
          refine ⟨base.withFilters rest (Conjunction.leavesOf filters),
            base.withFilters rest (filters.map Conjunction.toGraph).toList, filters, rest,
            ?_, ?_, sameShape, (built _).2, rfl, rfl, ?_⟩
          · simp only [(built _).1]
            rfl
          · simp only [(built _).1]
            rfl
          · intro single
            rw [← conjoined] at single
            rw [Conjunction.toGraph_toList_of_shape sameShape single]

/-- The second table joined to the first on equal columns, for the rows where
the second column is above five. -/
def innerJoined : Sql.Query :=
  { leftJoined (.column ["bar", "y"]) with
    sources :=
      [⟨.table ["foo"] none, [⟨.table ["bar"] none,
        .on .inner (some (.binary .equal (.column ["foo", "x"]) (.column ["bar", "y"])))⟩]⟩]
    condition := some (.binary .greater (.column ["bar", "y"]) (.literal (.integer 5))) }

/-- Two filters of the statement with a join, and one of the statement with a
comma. -/
theorem compile_commaJoined_innerJoined :
    ∃ catalog result other rest, ∃ filters : Conjunction Graph.Expr,
      twoTables.assemble = .ok catalog ∧
      ({ catalog } : Compiler).compile innerJoined = .ok result ∧
      ({ catalog } : Compiler).compile (innerJoined.commaJoined
        (some (.binary .and (.binary .equal (.column ["foo", "x"]) (.column ["bar", "y"]))
          (.nested (.binary .greater (.column ["bar", "y"]) (.literal (.integer 5))))))) =
        .ok other ∧
      result.filters = filters.leaves ∧ result.filters.length = 2 ∧
      other = result.withFilters rest [filters.toGraph] := by
  have inner : innerJoined.InnerJoins := by
    intro entry member join joinMember
    simp only [innerJoined, List.mem_singleton] at member
    subst member
    simp only [List.mem_singleton] at joinMember
    subst joinMember
    exact .inr ⟨_, rfl⟩
  have conjoined : Conjunction.leavesOf (some (.both
      (.single (.binary .equal (.column ["foo", "x"]) (.column ["bar", "y"])))
      (.brackets (.single
        (.binary .greater (.column ["bar", "y"]) (.literal (.integer 5))))))) =
        innerJoined.conditions := rfl
  have checked : ∃ catalog, twoTables.assemble = .ok catalog ∧
      ∃ result, ({ catalog } : Compiler).compile innerJoined = .ok result ∧
        result.filters.length = 2 := by
    decide +kernel
  obtain ⟨catalog, assembled, result, compiled, two⟩ := checked
  rcases Compiler.compile_commaJoined { catalog } inner conjoined with
    ⟨same, other, filters, rest, compiledToo, listed, shape, gathered, _, merged, _⟩ |
    ⟨error, failed, _⟩
  · rw [compiled] at compiledToo
    cases compiledToo
    cases filters with
    | none => cases shape
    | some filters =>
        exact ⟨catalog, result, other, rest, filters, assembled, compiled, listed, gathered, two,
          merged⟩
  · rw [compiled] at failed
    cases failed

end TripleTables

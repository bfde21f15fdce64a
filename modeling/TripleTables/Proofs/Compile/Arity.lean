import TripleTables.Proofs.Compile.Aggregates

/-!
# Numbers of arguments

The number of arguments of a call is checked as the statement writes it, before
the arguments are compiled and before the transform of the function is applied to
them: some transforms add arguments, an aggregate keeps one at most, and a star is
not checked at all.  What SPARQL asks for is said of the node that comes out
(`Builtin.takes`).

The two agree for each entry of the standard table (`fits_of_standard`): whatever
number of arguments a function accepts, its target takes what they become.  So
every call of a compiled query is one that SPARQL takes, wherever it stands.
-/

namespace TripleTables

open TripleTables.Graph

/-! ## Arguments that a target takes -/

/-- SPARQL takes this many arguments of the function. -/
def Graph.Builtin.takes : Builtin → Nat → Bool
  | .rand, count | .now, count => count == 0
  | .substr, count => count == 2 || count == 3
  | .replace, count => count == 3
  | .coalesce, count => decide (1 ≤ count)
  | _, count => count == 1

/-- The target takes this many arguments.  An aggregate keeps the first. -/
def FunctionTarget.takes : FunctionTarget → Nat → Bool
  | .scalar function, count => function.takes count
  | .aggregate _, count => decide (1 ≤ count)

/-- Whatever number of arguments the function accepts, its target takes what they
become. -/
def FunctionEntry.Fits (entry : FunctionEntry) : Prop :=
  ∀ args, entry.accepts args.length = true →
    entry.target.takes (entry.handOn args).length = true

/-! ## The table -/

namespace FunctionTable

variable {entry : FunctionEntry}

/-- How many arguments a standard function hands on depends only on how many it is
given. -/
theorem length_handOn_of_standard (listed : entry ∈ standardEntries) (args : List Expr) :
    (entry.handOn args).length =
      (entry.handOn (List.replicate args.length (.integer 0))).length := by
  unfold FunctionEntry.handOn
  cases transformed : entry.transform with
  | none => exact List.length_replicate.symm
  | some transform =>
      rcases transform_of_mem_standardEntries entry listed transform transformed with
        rfl | ⟨pattern, rfl⟩
      · match args with
        | [] => rfl
        | [_] => rfl
        | _ :: _ :: _ => rfl
      · simp [Transform.removing]

/-- A standard function that hands nothing on has been given nothing. -/
theorem eq_nil_of_handOn (listed : entry ∈ standardEntries) {args : List Expr}
    (nothing : entry.handOn args = []) : args = [] := by
  unfold FunctionEntry.handOn at nothing
  cases transformed : entry.transform with
  | none => rwa [transformed] at nothing
  | some transform =>
      rw [transformed] at nothing
      rcases transform_of_mem_standardEntries entry listed transform transformed with
        rfl | ⟨pattern, rfl⟩
      · match args, nothing with
        | [], _ => rfl
        | [_], nothing => cases nothing
        | _ :: _ :: _, nothing => cases nothing
      · cases (List.append_eq_nil_iff.mp nothing).2

/-- The standard functions with a greatest number of arguments fit their targets:
only so many numbers are to be looked at. -/
theorem takes_of_limited : ∀ entry ∈ standardEntries, ∀ limit ∈ entry.maxArgs, ∀ count ≤ limit,
    entry.accepts count = true →
      entry.target.takes (entry.handOn (List.replicate count (.integer 0))).length = true := by
  decide

/-- A standard function without a greatest number of arguments is a choice of the
first value that there is. -/
theorem coalesces_of_unlimited : ∀ entry ∈ standardEntries, entry.maxArgs = none →
    entry.target = .scalar .coalesce ∧ entry.transform = none ∧ 1 ≤ entry.minArgs := by
  decide

theorem fits_of_standard (listed : entry ∈ standardEntries) : entry.Fits := by
  intro args accepted
  cases most : entry.maxArgs with
  | some limit =>
      have bounded : args.length ≤ limit := by
        simp only [FunctionEntry.accepts, most, Bool.and_eq_true] at accepted
        simpa using accepted.2
      rw [length_handOn_of_standard listed]
      exact takes_of_limited entry listed limit most args.length bounded accepted
  | none =>
      obtain ⟨target, plain, least⟩ := coalesces_of_unlimited entry listed most
      simp only [FunctionEntry.accepts, Bool.and_eq_true, decide_eq_true_eq] at accepted
      simp only [target, FunctionEntry.handOn, plain, FunctionTarget.takes, Builtin.takes,
        decide_eq_true_eq]
      exact Nat.le_trans least accepted.1

theorem key_of_counts : ∀ entry ∈ standardEntries, entry.target = .aggregate .count →
    key entry.name = "COUNT" := by
  decide +kernel

end FunctionTable

/-! ## Calls of a query -/

/-- The statement counts all rows: it calls the function for it with a star. -/
def Sql.Query.CountsRows (query : Sql.Query) (distinct : Bool) : Prop :=
  ∃ name, FunctionTable.key name = "COUNT" ∧ .expr (.call name [] distinct true) ∈ query.parts

/-- A node that SPARQL takes: a function has as many arguments as it needs, and an
aggregate has an argument, unless it counts all rows as the statement does. -/
def Graph.Expr.LegalIn (query : Sql.Query) : Expr → Prop
  | .call function args => function.takes args.length = true
  | .aggregate function distinct none => function = .count ∧ query.CountsRows distinct
  | _ => True

namespace Compile

variable {mode : Mode} {query : Sql.Query}

/-- Only the aggregate that counts takes a star. -/
theorem eq_count_of_checkTarget {name : String} {distinct : Bool} {target : FunctionTarget}
    (checked : checkTarget mode name distinct true target = .ok ()) :
    target = .aggregate .count := by
  cases target with
  | scalar function => simp [checkTarget] at checked
  | aggregate function =>
      simp only [checkTarget] at checked
      split at checked
      · cases checked
      · split at checked
        · cases checked
        · rename_i counts
          simpa using counts

/-- What is put together from a number of arguments that the target takes is
legal. -/
theorem legalIn_of_takes {entry : FunctionEntry} {distinct : Bool} {args : List Expr}
    {result : Expr} (taken : entry.target.takes (entry.handOn args).length = true)
    (applied : applyFunction mode entry distinct args = .ok result) : result.LegalIn query := by
  rcases applyFunction_eq_ok applied with ⟨function, target, rfl⟩ | ⟨function, target, rfl, _⟩
  · rwa [target] at taken
  · cases handed : entry.handOn args with
    | nil => simp [target, handed, FunctionTarget.takes] at taken
    | cons first rest => trivial

/-- A call with a star counts all rows, if it is put together without an
argument. -/
theorem legalIn_of_star {name : String} {entry : FunctionEntry} {distinct : Bool}
    {sources : List Sql.Expr} {args : List Expr} {result : Expr}
    (listed : entry ∈ FunctionTable.standardEntries)
    (counts : entry.target = .aggregate .count) (named : FunctionTable.key name = "COUNT")
    (written : .expr (.call name sources distinct true) ∈ query.parts)
    (same : args.length = sources.length)
    (applied : applyFunction mode entry distinct args = .ok result) : result.LegalIn query := by
  rcases applyFunction_eq_ok applied with ⟨function, target, rfl⟩ | ⟨function, target, rfl, _⟩
  · rw [counts] at target
    cases target
  · rw [counts] at target
    cases target
    cases handed : entry.handOn args with
    | cons first rest => trivial
    | nil =>
        rw [FunctionTable.eq_nil_of_handOn listed handed] at same
        rw [List.eq_nil_of_length_eq_zero same.symm] at written
        exact ⟨rfl, name, named, written⟩

/-- With the standard functions, what a call of the statement becomes is legal. -/
theorem legalIn_of_call {name : String} {entry : FunctionEntry} {distinct star : Bool}
    {sources : List Sql.Expr} {args : List Expr} {result : Expr}
    (standard : mode.functions = .standard)
    (written : .expr (.call name sources distinct star) ∈ query.parts)
    (resolved : resolveCall mode name sources.length distinct star = .ok entry)
    (same : args.length = sources.length)
    (applied : applyFunction mode entry distinct args = .ok result) : result.LegalIn query := by
  obtain ⟨found, checked, accepted⟩ := resolveCall_eq_ok resolved
  rw [standard] at found
  obtain ⟨listed, named⟩ := FunctionTable.mem_of_get?_standard found
  cases star with
  | false =>
      have fits := FunctionTable.fits_of_standard listed args (same ▸ accepted rfl)
      exact legalIn_of_takes fits applied
  | true =>
      have counts := eq_count_of_checkTarget checked
      rw [FunctionTable.key_of_counts entry listed counts] at named
      exact legalIn_of_star listed counts named.symm written same applied

theorem CompiledFrom.legalIn {source : Sql.Expr} {e : Expr} (standard : mode.functions = .standard)
    (written : Sql.Part.Every (· ∈ query.parts) source.parts)
    (derived : CompiledFrom mode source e) :
    e.Every (Expr.LegalIn query) := by
  obtain ⟨before, next, visits⟩ := derived
  refine visits.every_of_written ?_ ?_ (legalIn_of_call standard) ?_ e (List.mem_singleton_self e)
  · intro node plain
    cases node with
    | call function args => cases plain
    | aggregate function distinct arg => cases plain
    | _ => trivial
  · intro node brought
    rw [standard] at brought
    exact absurd brought (FunctionTable.not_bringsIn_standard fun _ => rfl)
  · rwa [Sql.Expr.listParts, Sql.Expr.listParts, List.append_nil]

theorem Origin.legalIn {role : Role} {e : Expr} (origin : Origin .standard query role e) :
    e.Every (Expr.LegalIn query) := by
  cases origin with
  | compiled standard _ _ written derived _ =>
      exact derived.legalIn standard (query.every_parts_of_mem_exprsFor (fun _ => id) written)
  | shown v => exact Expr.every_iff.mpr ⟨trivial, by simp [Expr.children]⟩

end Compile

/-- With the standard functions, all calls of a compiled query have numbers of
arguments that SPARQL takes, in every clause and at every depth. -/
theorem Compiler.legalCalls_of_compile {compiler : Compiler} {query : Sql.Query} {result : Query}
    (standard : compiler.functions = .standard) (compiled : compiler.compile query = .ok result) :
    ∀ e ∈ result.exprs, e.Every (Expr.LegalIn query) := by
  obtain ⟨builder, ran, built⟩ := compiler.exists_of_compile compiled
  rw [standard] at ran
  intro e member
  obtain ⟨role, inRole⟩ := Query.exists_role_of_mem_exprs member
  exact (Compile.traced_of_clauses ran role e (Builder.exprsAs_of_build built role inRole)).legalIn

/-- The statement
`SELECT LEFT(x, 2) AS a, COUNT(*) AS n FROM foo LEFT JOIN bar ON TRIM(foo.x) = bar.y
WHERE RAND() < 1 GROUP BY a HAVING count(*) > COUNT(DISTINCT y)
ORDER BY COALESCE(MAX(x), LENGTH(SUBSTR(x, 1)), 3)`. -/
def callingReport : Sql.Query :=
  { distinct := false
    items :=
      [.expr (.call "LEFT" [.column ["x"], .literal (.integer 2)] false false) (some "a"),
       .expr (.call "COUNT" [] false true) (some "n")]
    sources :=
      [⟨.table ["foo"] none,
        [⟨.table ["bar"] none, .on .leftOuter
          (some (.binary .equal (.call "TRIM" [.column ["foo", "x"]] false false)
            (.column ["bar", "y"])))⟩]⟩]
    condition := some (.binary .less (.call "RAND" [] false false) (.literal (.integer 1)))
    groupBy := [.column ["a"]]
    having := some (.binary .greater (.call "count" [] false true)
      (.call "COUNT" [.column ["y"]] true false))
    orderBy := [⟨.call "COALESCE" [.call "MAX" [.column ["x"]] false false,
      .call "LENGTH"
        [.call "SUBSTR" [.column ["x"], .literal (.integer 1)] false false] false false,
      .literal (.integer 3)] false false, true⟩]
    limit := none
    offset := none }

theorem legalCalls_callingReport :
    ∃ catalog result, twoTables.assemble = .ok catalog ∧
      ({ catalog, functions := .standard } : Compiler).compile callingReport = .ok result ∧
      (result.exprs.flatMap Expr.nodes).countP Expr.isApplication = 10 ∧
      ∀ e ∈ result.exprs, e.Every (Expr.LegalIn callingReport) := by
  have checked : ∃ catalog, twoTables.assemble = .ok catalog ∧
      ∃ result, ({ catalog, functions := .standard } : Compiler).compile callingReport =
          .ok result ∧
        (result.exprs.flatMap Expr.nodes).countP Expr.isApplication = 10 := by
    decide +kernel
  obtain ⟨catalog, assembled, result, compiled, calls⟩ := checked
  exact ⟨catalog, result, assembled, compiled, calls,
    Compiler.legalCalls_of_compile rfl compiled⟩

end TripleTables

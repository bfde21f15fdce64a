import TripleTables.Proofs.Compile.Recursion
import TripleTables.Proofs.Sql.Parts

/-!
# Compilation by a stack of tasks

The program of an expression need not be written down before it is run.  A
machine with a stack of tasks enters a node when it comes to it: the node's own
checks are made then, and the node is replaced by its operands, from left to
right, and the instruction that combines them.  Every task stands for the
program that it has left to run, so this machine does what the one with a
program does, and both do what the recursion over the expression does.
-/

namespace TripleTables.Compile

open TripleTables.Graph

variable {mode : Mode}

/-- What is left to be done: a node is entered or an instruction is performed. -/
inductive Task where
  | enter (e : Sql.Expr)
  | perform (instruction : Instruction)

/-- The tasks that a node is replaced by. -/
def schedule (mode : Mode) : Sql.Expr → List Task
  | .column name => [.perform (.column name)]
  | .literal value =>
      match literal? value with
      | some constant => [.perform (.push (.constant constant))]
      | none => [.perform (.refuse (mode.refusal .nullLiteral))]
  | .nested inner => [.enter inner]
  | .binary op left right =>
      match binaryOp op with
      | .ok op => [.enter left, .enter right, .perform (.binary op)]
      | .error construct => [.perform (.refuse (mode.refusal construct))]
  | .unary op operand => .enter operand :: (unaryInstruction op).map .perform
  | .like negated subject pattern => [.enter subject, .enter pattern, .perform (.like negated)]
  | .between negated subject low high =>
      [.enter subject, .enter low, .enter high, .perform (.between negated)]
  | .inList negated subject items =>
      .enter subject :: (items.map .enter ++ [.perform (.inList negated items.length)])
  | .isNull negated subject => [.enter subject, .perform (.isNull negated)]
  | .call name args distinct star =>
      match resolveCall mode name args.length distinct star with
      | .ok entry => args.map .enter ++ [.perform (.call entry args.length distinct)]
      | .error error => [.perform (.refuse error)]
  | .parameter => [.perform (.refuse (mode.refusal .parameter))]
  | .inQuery _ _ _ => [.perform (.refuse (mode.refusal .inSubquery))]
  | .existsIn _ => [.perform (.refuse (mode.refusal .existsCondition))]
  | .subquery _ => [.perform (.refuse (mode.refusal .subquery))]
  | .compareAny _ _ _ => [.perform (.refuse (mode.refusal .compareAny))]
  | .compareAll _ _ _ => [.perform (.refuse (mode.refusal .compareAll))]
  | .case _ _ _ => [.perform (.refuse (mode.refusal .caseExpression))]

/-! ## The machine ends -/

/-- A bound on the steps that a task takes: each node inside is entered, and
combined at most once. -/
def Task.weight : Task → Nat
  | .enter e => 2 * e.parts.length
  | .perform _ => 1

/-- A bound on the steps that some tasks take. -/
def weight : List Task → Nat
  | [] => 0
  | task :: rest => task.weight + weight rest

@[simp]
theorem weight_append (tasks more : List Task) :
    weight (tasks ++ more) = weight tasks + weight more := by
  induction tasks with
  | nil => simp [weight]
  | cons task rest ih => simp [weight, ih, Nat.add_assoc]

theorem weight_enter (es : List Sql.Expr) :
    weight (es.map .enter) = 2 * (Sql.Expr.listParts es).length := by
  induction es with
  | nil => rfl
  | cons e rest ih =>
      simp only [List.map_cons, weight, Task.weight, ih, Sql.Expr.listParts, List.length_append]
      omega

theorem weight_perform_lt (instruction : Instruction) (e : Sql.Expr) :
    weight [.perform instruction] < Task.weight (.enter e) := by
  have inside : 0 < e.parts.length := by
    cases e with
    | _ => simp [Sql.Expr.parts]
  simp only [weight, Task.weight]
  omega

/-- The tasks of a node weigh less than the node. -/
theorem weight_schedule_lt (mode : Mode) (e : Sql.Expr) :
    weight (schedule mode e) < Task.weight (.enter e) := by
  cases e with
  | literal value =>
      rw [schedule]
      cases literal? value with
      | some constant => exact weight_perform_lt _ _
      | none => exact weight_perform_lt _ _
  | binary op first second =>
      rw [schedule]
      cases binaryOp op with
      | error construct => exact weight_perform_lt _ _
      | ok translation =>
          simp only [weight, Task.weight, Sql.Expr.parts, List.length_cons, List.length_append]
          omega
  | unary op operand =>
      cases op with
      | _ =>
          simp only [schedule, unaryInstruction, List.map_cons, List.map_nil, weight, Task.weight,
            Sql.Expr.parts, List.length_cons]
          omega
  | inList negated subject items =>
      simp only [schedule, weight, weight_append, weight_enter, Task.weight, Sql.Expr.parts,
        List.length_cons, List.length_append]
      omega
  | call name args distinct star =>
      rw [schedule]
      cases resolveCall mode name args.length distinct star with
      | error error => exact weight_perform_lt _ _
      | ok entry =>
          simp only [weight, weight_append, weight_enter, Task.weight, Sql.Expr.parts,
            List.length_cons]
          omega
  | nested _ | like _ _ _ | between _ _ _ _ | isNull _ _ =>
      simp only [schedule, weight, Task.weight, Sql.Expr.parts, List.length_cons,
        List.length_append]
      omega
  | _ => exact weight_perform_lt _ _

/-- Does the tasks one after the other. -/
def work (mode : Mode) : List Task → Stack → Compile Stack
  | [], stack => pure stack
  | .enter e :: rest, stack => work mode (schedule mode e ++ rest) stack
  | .perform instruction :: rest, stack => do
      let stack ← step mode instruction stack
      work mode rest stack
termination_by tasks => weight tasks
decreasing_by
  · have lighter := weight_schedule_lt mode e
    simp only [weight, weight_append]
    omega
  · simp [weight, Task.weight]

/-- Compiles an expression by entering it with nothing else to do. -/
def workOut (mode : Mode) (e : Sql.Expr) : Compile Expr := do
  match ← work mode [.enter e] [] with
  | [result] => return result
  | _ => throw .emptyExpression

/-! ## The programs of tasks -/

/-- The program that is left to run for a task. -/
def Task.program (mode : Mode) : Task → Program
  | .enter e => Compile.program mode e
  | .perform instruction => [instruction]

/-- The program that is left to run for some tasks. -/
def remaining (mode : Mode) (tasks : List Task) : Program :=
  tasks.flatMap (Task.program mode)

theorem remaining_enter (es : List Sql.Expr) :
    remaining mode (es.map .enter) = programs mode es := by
  induction es with
  | nil => rfl
  | cons e rest ih =>
      rw [List.map_cons, programs, ← ih]
      rfl

theorem remaining_perform (instructions : Program) :
    remaining mode (instructions.map .perform) = instructions := by
  simp [remaining, List.flatMap_map, Task.program]

/-- Entering a node changes nothing of the program that is left to run. -/
theorem remaining_schedule (e : Sql.Expr) : remaining mode (schedule mode e) = program mode e := by
  cases e with
  | literal value =>
      rw [schedule, program]
      cases literal? value with
      | some constant => rfl
      | none => rfl
  | binary op first second =>
      rw [schedule, program]
      cases binaryOp op with
      | ok translation => simp [remaining, Task.program]
      | error construct => rfl
  | unary op operand =>
      rw [schedule, program, remaining, List.flatMap_cons]
      exact congrArg (program mode operand ++ ·) (remaining_perform (unaryInstruction op))
  | inList negated subject items =>
      rw [schedule, program, ← remaining_enter items]
      simp [remaining, Task.program]
  | call name args distinct star =>
      rw [schedule, program]
      cases resolveCall mode name args.length distinct star with
      | ok entry =>
          rw [← remaining_enter args]
          simp [remaining, Task.program]
      | error error => rfl
  | _ => simp [schedule, program, remaining, Task.program]

/-- The machine with tasks runs the program that is left. -/
theorem work_eq_run (tasks : List Task) (stack : Stack) :
    work mode tasks stack = run mode (remaining mode tasks) stack := by
  induction tasks, stack using work.induct mode with
  | case1 stack =>
      rw [work]
      rfl
  | case2 e rest stack ih =>
      have entered : remaining mode (schedule mode e ++ rest) =
          remaining mode (.enter e :: rest) := by
        rw [remaining, List.flatMap_append]
        exact congrArg (· ++ remaining mode rest) (remaining_schedule e)
      rw [work, ih, entered]
  | case3 instruction rest stack ih =>
      have performed : remaining mode (.perform instruction :: rest) =
          instruction :: remaining mode rest := rfl
      rw [work, performed, run_cons]
      congr 1
      funext next
      exact ih next

/-- A node that is entered leaves what the recursion gives for it. -/
theorem work_enter (e : Sql.Expr) (rest : List Task) (stack : Stack) :
    work mode (.enter e :: rest) stack =
      visit mode e >>= fun result => work mode rest (result :: stack) := by
  have split : remaining mode (.enter e :: rest) = program mode e ++ remaining mode rest := rfl
  rw [work_eq_run, split, run_program]
  congr 1
  funext result
  exact (work_eq_run rest (result :: stack)).symm

theorem workOut_eq_expression (e : Sql.Expr) : workOut mode e = expression mode e := by
  have same : work mode [.enter e] [] = run mode (program mode e) [] := by
    rw [work_eq_run]
    exact congrArg (run mode · []) (List.append_nil (program mode e))
  rw [workOut, same]
  rfl

/-- Both machines compile an expression as the recursion does, which makes the
checks of a node, compiles its operands from left to right and combines them:
with the same result or error, and the same builder after it.  The machine with
tasks does so from every stack and with any tasks that wait. -/
theorem machines_eq_recursion (mode : Mode) (e : Sql.Expr) (builder : Builder) :
    expression mode e builder = visit mode e builder ∧
      workOut mode e builder = visit mode e builder ∧
      ∀ rest stack, work mode (.enter e :: rest) stack builder =
        (visit mode e >>= fun result => work mode rest (result :: stack)) builder := by
  refine ⟨?_, ?_, ?_⟩
  · rw [expression_eq_visit]
  · rw [workOut_eq_expression, expression_eq_visit]
  · intro rest stack
    rw [work_enter]

end TripleTables.Compile

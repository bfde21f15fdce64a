import TripleTables.Proofs.Sparql.Brackets
import TripleTables.Proofs.Sparql.Reader

/-!
# Reading expressions back

What the reader finds at the text of an expression is the expression, whatever
ends it.  A bracket around one operand changes nothing for the reader, which is
why it does not matter whether brackets around a whole text have been supplied
or left out.  So an expression can be told from its text, and from its text in
brackets.
-/

namespace TripleTables.Sparql

open TripleTables.Graph
open TripleTables.Sql.Lexer (afterText?)

/-- The reader finds the expression at its text, if it may go as deep as the text
is long. -/
def Reads (e : Expr) : Prop :=
  ∀ fuel rest, (exprChars e).length ≤ fuel → Ends rest →
    readWithin fuel (exprChars e ++ rest) = some (e, rest)

/-- The parts of a node have shorter texts, so they may be read with less. -/
theorem reads_of_node {e : Expr}
    (node : ∀ fuel rest, (exprChars e).length ≤ fuel + 1 → Ends rest →
      readNode (readWithin fuel) fuel (exprChars e ++ rest) = some (e, rest)) : Reads e := by
  intro fuel rest enough ends
  cases fuel with
  | zero =>
      have empty : exprChars e = [] := List.length_eq_zero_iff.mp (Nat.le_zero.mp enough)
      have impossible := node 0 [] (by simp [empty]) ends_nil
      rw [empty] at impossible
      cases impossible
  | succ fuel => exact node fuel rest enough ends

/-- What is read back is not refused at its first character. -/
theorem Reads.readNode_ne_none {e : Expr} (reads : Reads e) {text rest : List Char}
    (ends : Ends rest) (shape : exprChars e ++ rest = text)
    (refused : ∀ inner fuel, readNode inner fuel text = none) : False := by
  have found := reads (exprChars e).length rest le_rfl ends
  rw [shape] at found
  cases fuel : (exprChars e).length with
  | zero =>
      rw [fuel] at found
      cases found
  | succ fuel' =>
      rw [fuel, readWithin, refused] at found
      cases found

theorem Reads.ne_nil {e : Expr} (reads : Reads e) : exprChars e ≠ [] := by
  intro empty
  exact reads.readNode_ne_none ends_nil (by rw [empty]) (fun _ _ => rfl)

/-! ## Brackets -/

/-- Brackets around a whole text change nothing. -/
theorem Reads.wrapped {e : Expr} (reads : Reads e) (fuel : Nat) {rest : List Char}
    (enough : (wrapped (exprChars e)).length ≤ fuel) (ends : Ends rest) :
    readWithin fuel (Sparql.wrapped (exprChars e) ++ rest) = some (e, rest) := by
  rcases wrapped_cases (exprChars e) with same | more
  · rw [same] at enough ⊢
    exact reads fuel rest enough ends
  · rw [more] at enough ⊢
    cases fuel with
    | zero => simp at enough
    | succ fuel =>
        have inside := reads fuel (')' :: rest) (by simp at enough; omega) (ends_cons (by simp))
        have shape : '(' :: exprChars e ++ [')'] ++ rest = '(' :: (exprChars e ++ ')' :: rest) := by
          simp
        rw [shape]
        show readBracket (readWithin fuel) fuel (exprChars e ++ ')' :: rest) = _
        rw [readBracket, inside]
        rfl

/-! ## Lists -/

/-- A list begins with its first expression, which ends there. -/
theorem joined_cons (e : Expr) (others : List Expr) (rest : List Char) :
    ∃ tail, joined ", ".toList (allChars (e :: others)) ++ ')' :: rest = exprChars e ++ tail ∧
      Ends tail := by
  cases others with
  | nil => exact ⟨')' :: rest, rfl, ends_cons (by simp)⟩
  | cons next others =>
      exact ⟨',' :: ' ' :: (joined ", ".toList (allChars (next :: others)) ++ ')' :: rest),
        by simp [allChars, joined], ends_cons (by simp)⟩

/-- Expressions with commas between them are read one after the other. -/
theorem readItems_joined {e : Expr} {others : List Expr} (reads : ∀ d ∈ e :: others, Reads d)
    {deep long : Nat} (rest : List Char)
    (enoughDeep : (joined ", ".toList (allChars (e :: others))).length ≤ deep)
    (enoughLong : (joined ", ".toList (allChars (e :: others))).length ≤ long) :
    readItems (readWithin deep) long
        (joined ", ".toList (allChars (e :: others)) ++ ')' :: rest) =
          some (e :: others, rest) := by
  induction others generalizing e long with
  | nil =>
      have first := reads e (by simp)
      have nonempty := List.length_pos_iff.mpr first.ne_nil
      have found := first deep (')' :: rest) enoughDeep (ends_cons (by simp))
      cases long with
      | zero => exact absurd enoughLong (Nat.not_le_of_gt nonempty)
      | succ long =>
          show readItems _ _ (exprChars e ++ ')' :: rest) = _
          rw [readItems, found]
          rfl
  | cons next others ih =>
      have first := reads e (by simp)
      have shape : joined ", ".toList (allChars (e :: next :: others)) =
          exprChars e ++ ',' :: ' ' :: joined ", ".toList (allChars (next :: others)) := by
        simp [allChars, joined]
      rw [shape, List.length_append, List.length_cons, List.length_cons] at enoughDeep enoughLong
      cases long with
      | zero => omega
      | succ long =>
          have enoughBehind : (joined ", ".toList (allChars (next :: others))).length ≤ long := by
            omega
          have more := ih (fun d member => reads d (List.mem_cons_of_mem _ member)) (by omega)
            enoughBehind
          have found := first deep (',' :: ' ' ::
            (joined ", ".toList (allChars (next :: others)) ++ ')' :: rest)) (by omega)
            (ends_cons (by simp))
          rw [shape, List.append_assoc, List.cons_append, List.cons_append, readItems, found]
          simp only [more, Option.map_some]

/-- A list in brackets is read back. -/
theorem readList_joined {es : List Expr} (reads : ∀ e ∈ es, Reads e) (fuel : Nat)
    (rest : List Char) (enough : (joined ", ".toList (allChars es)).length ≤ fuel) :
    readList (readWithin fuel) fuel (joined ", ".toList (allChars es) ++ ')' :: rest) =
      some (es, rest) := by
  cases es with
  | nil => rfl
  | cons e others =>
      obtain ⟨tail, shape, ends⟩ := joined_cons e others rest
      have items := readItems_joined reads rest enough enough
      rw [readList.eq_2 _ _ _ ?_, items]
      intro more closes
      rw [shape] at closes
      exact (reads e (by simp)).readNode_ne_none ends closes (fun _ _ => rfl)

/-! ## Nodes -/

theorem reads_variable {v : Variable} (clean : v.IsClean) : Reads (.variable v) := by
  refine reads_of_node fun fuel rest _ ends => ?_
  have shape : exprChars (.variable v) ++ rest = '?' :: (v.name.toList ++ rest) := by
    simp [exprChars_variable]
  rw [shape]
  show some (Expr.variable (readVariable (v.name.toList ++ rest)).1, _) = _
  rw [readVariable_append clean ends]

theorem reads_constant {value : Literal} (plain : value.IsPlain) : Reads (.constant value) :=
  reads_of_node fun _ _ _ ends => readNode_constant plain ends

theorem readTail_operator {inner : List Char → Found Expr} {fuel : Nat} (op : BinaryOp)
    (first : Expr) (text : List Char) :
    readTail inner fuel first (op.symbol.toList ++ ' ' :: text) =
      closed ((inner text).map fun found => (.binary op first found.1, found.2)) := by
  cases op <;> rfl

theorem reads_binary (op : BinaryOp) {left right : Expr} (readsLeft : Reads left)
    (readsRight : Reads right) : Reads (.binary op left right) := by
  refine reads_of_node fun fuel rest enough ends => ?_
  have shape : exprChars (.binary op left right) ++ rest = '(' :: (exprChars left ++
      ' ' :: (op.symbol.toList ++ ' ' :: (exprChars right ++ ')' :: rest))) := by
    simp [exprChars_binary]
  simp only [exprChars_binary, List.length_append, List.length_cons, List.length_nil] at enough
  have foundLeft := readsLeft fuel (' ' :: (op.symbol.toList ++ ' ' :: (exprChars right ++
    ')' :: rest))) (by omega) (ends_cons (by simp))
  have foundRight := readsRight fuel (')' :: rest) (by omega) (ends_cons (by simp))
  rw [shape]
  show readBracket _ _ _ = _
  rw [readBracket, foundLeft]
  show readTail _ _ _ _ = _
  rw [readTail_operator, foundRight]
  rfl

theorem reads_not {operand : Expr} (reads : Reads operand) : Reads (.not operand) := by
  refine reads_of_node fun fuel rest enough ends => ?_
  simp only [exprChars_not, List.length_cons] at enough
  have found := reads.wrapped fuel (by omega) ends
  show (readWithin fuel (wrapped (exprChars operand) ++ rest)).map _ = _
  rw [found]
  rfl

theorem reads_negate {operand : Expr} (reads : Reads operand) : Reads (.negate operand) := by
  refine reads_of_node fun fuel rest enough ends => ?_
  simp only [exprChars_negate, List.length_cons] at enough
  have found := reads.wrapped fuel (by omega) ends
  show (readWithin fuel (wrapped (exprChars operand) ++ rest)).map _ = _
  rw [found]
  rfl

/-- The names of functions are words. -/
theorem readNode_name {inner : List Char → Found Expr} {fuel : Nat} {word : List Char}
    (nonempty : word ≠ []) (inside : word.all Char.isAlpha = true) (rest : List Char) :
    readNode inner fuel (word ++ '(' :: rest) = readWord inner fuel word ('(' :: rest) :=
  readNode_word nonempty (List.all_eq_true.mp inside) (by simp)

theorem reads_bound {v : Variable} (clean : v.IsClean) : Reads (.bound v) := by
  refine reads_of_node fun fuel rest _ ends => ?_
  have shape : exprChars (.bound v) ++ rest =
      "BOUND".toList ++ '(' :: '?' :: (v.name.toList ++ ')' :: rest) := by
    simp [exprChars_bound]
  rw [shape, readNode_name (by decide) (by decide)]
  show closed (some (Expr.bound (readVariable (v.name.toList ++ ')' :: rest)).1,
    (readVariable (v.name.toList ++ ')' :: rest)).2)) = _
  rw [readVariable_append clean (ends_cons (by simp))]
  rfl

theorem reads_regex {subject : Expr} (reads : Reads subject) (pattern : String)
    (flags : Option String) : Reads (.regex subject pattern flags) := by
  refine reads_of_node fun fuel rest enough ends => ?_
  cases flags with
  | none =>
      have shape : exprChars (.regex subject pattern none) ++ rest =
          "REGEX".toList ++ '(' :: (exprChars subject ++ ',' :: ' ' :: '"' ::
            (Text.escape pattern.toList ++ '"' :: ')' :: rest)) := by
        simp [exprChars_regex_none, Text.quote]
      simp only [exprChars_regex_none, List.length_append, List.length_cons, List.length_nil]
        at enough
      have found := reads fuel (',' :: ' ' :: '"' ::
        (Text.escape pattern.toList ++ '"' :: ')' :: rest)) (by omega) (ends_cons (by simp))
      rw [shape, readNode_name (by decide) (by decide)]
      show readRegex _ _ = _
      rw [readRegex, found]
      simp only [readBody_escape, String.ofList_toList]
  | some flags =>
      have shape : exprChars (.regex subject pattern (some flags)) ++ rest =
          "REGEX".toList ++ '(' :: (exprChars subject ++ ',' :: ' ' :: '"' ::
            (Text.escape pattern.toList ++ '"' :: ',' :: ' ' :: '"' ::
              (Text.escape flags.toList ++ '"' :: ')' :: rest))) := by
        simp [exprChars_regex_some, Text.quote]
      simp only [exprChars_regex_some, List.length_append, List.length_cons, List.length_nil]
        at enough
      have found := reads fuel (',' :: ' ' :: '"' ::
        (Text.escape pattern.toList ++ '"' :: ',' :: ' ' :: '"' ::
          (Text.escape flags.toList ++ '"' :: ')' :: rest))) (by omega) (ends_cons (by simp))
      rw [shape, readNode_name (by decide) (by decide)]
      show readRegex _ _ = _
      rw [readRegex, found]
      simp only [readBody_escape, String.ofList_toList, Option.map_some, closed]

theorem reads_inList {subject : Expr} {items : List Expr} (reads : Reads subject)
    (readsItems : ∀ e ∈ items, Reads e) (negated : Bool) :
    Reads (.inList subject items negated) := by
  refine reads_of_node fun fuel rest enough ends => ?_
  have shape : exprChars (.inList subject items negated) ++ rest = '(' :: (exprChars subject ++
      ' ' :: ((if negated then "NOT IN (" else "IN (").toList ++
        (joined ", ".toList (allChars items) ++ ')' :: ')' :: rest))) := by
    cases negated <;> simp [exprChars_inList]
  simp only [exprChars_inList, List.length_append, List.length_cons] at enough
  have found := reads fuel (' ' :: ((if negated then "NOT IN (" else "IN (").toList ++
    (joined ", ".toList (allChars items) ++ ')' :: ')' :: rest))) (by omega) (ends_cons (by simp))
  have list := readList_joined readsItems fuel (')' :: rest) (by omega)
  rw [shape]
  show readBracket _ _ _ = _
  rw [readBracket, found]
  show readTail _ _ _ _ = _
  cases negated with
  | false =>
      show closed (Option.map _ (readList (readWithin fuel) fuel
        (joined ", ".toList (allChars items) ++ ')' :: ')' :: rest))) = _
      rw [list]
      rfl
  | true =>
      show closed (Option.map _ (readList (readWithin fuel) fuel
        (joined ", ".toList (allChars items) ++ ')' :: ')' :: rest))) = _
      rw [list]
      rfl

theorem readWord_builtin {inner : List Char → Found Expr} {fuel : Nat} (function : Builtin)
    (text : List Char) :
    readWord inner fuel function.keyword.toList ('(' :: text) =
      (readList inner fuel text).map fun found => (.call function found.1, found.2) := by
  cases function <;> rfl

theorem readWord_aggregate {inner : List Char → Found Expr} {fuel : Nat} (function : Aggregate)
    (text : List Char) :
    readWord inner fuel function.keyword.toList ('(' :: text) =
      readAggregate inner function text := by
  cases function <;> rfl

theorem reads_call (function : Builtin) {args : List Expr} (reads : ∀ e ∈ args, Reads e) :
    Reads (.call function args) := by
  refine reads_of_node fun fuel rest enough ends => ?_
  have shape : exprChars (.call function args) ++ rest = function.keyword.toList ++
      '(' :: (joined ", ".toList (allChars args) ++ ')' :: rest) := by
    simp [exprChars_call]
  simp only [exprChars_call, List.length_append, List.length_cons, List.length_nil] at enough
  have list := readList_joined reads fuel rest (by omega)
  rw [shape, readNode_name (by cases function <;> decide) (by cases function <;> decide),
    readWord_builtin, list]
  rfl

theorem reads_aggregate_none (function : Aggregate) (distinct : Bool) :
    Reads (.aggregate function distinct none) := by
  refine reads_of_node fun fuel rest enough ends => ?_
  have shape : exprChars (.aggregate function distinct none) ++ rest = function.keyword.toList ++
      '(' :: ((if distinct then "DISTINCT " else "").toList ++ '*' :: ')' :: rest) := by
    cases distinct <;> simp [exprChars_aggregate_none]
  rw [shape, readNode_name (by cases function <;> decide) (by cases function <;> decide),
    readWord_aggregate]
  cases distinct <;> rfl

/-- The text of an argument is not the mark for all rows. -/
theorem Reads.readArgument {e : Expr} (reads : Reads e) {inner : List Char → Found Expr}
    {function : Aggregate} {distinct : Bool} {rest : List Char} (ends : Ends rest) :
    readArgument inner function distinct (exprChars e ++ rest) =
      closed ((inner (exprChars e ++ rest)).map fun found =>
        (.aggregate function distinct (some found.1), found.2)) := by
  refine readArgument.eq_2 inner function distinct _ ?_
  intro more mark
  exact reads.readNode_ne_none ends mark (fun _ _ => rfl)

/-- Nor is it the keyword before an argument. -/
theorem Reads.readAggregate {e : Expr} (reads : Reads e) {inner : List Char → Found Expr}
    {function : Aggregate} {distinct : Bool} {rest : List Char} (ends : Ends rest) :
    readAggregate inner function
        ((if distinct then "DISTINCT " else "").toList ++ (exprChars e ++ rest)) =
      closed ((inner (exprChars e ++ rest)).map fun found =>
        (.aggregate function distinct (some found.1), found.2)) := by
  cases distinct with
  | true =>
      have marked : afterText? "DISTINCT ".toList ("DISTINCT ".toList ++ (exprChars e ++ rest)) =
          some (exprChars e ++ rest) := afterText?_append _ _
      rw [if_pos rfl, Sparql.readAggregate, marked]
      exact reads.readArgument ends
  | false =>
      have unmarked : afterText? "DISTINCT ".toList (exprChars e ++ rest) = none := by
        rw [Option.eq_none_iff_forall_ne_some]
        intro more found
        exact reads.readNode_ne_none ends (eq_append_of_afterText? found) (fun _ _ => rfl)
      have bare : (if false = true then "DISTINCT " else "").toList ++ (exprChars e ++ rest) =
          exprChars e ++ rest := rfl
      rw [bare, Sparql.readAggregate, unmarked]
      exact reads.readArgument ends

theorem reads_aggregate_some (function : Aggregate) (distinct : Bool) {arg : Expr}
    (reads : Reads arg) : Reads (.aggregate function distinct (some arg)) := by
  refine reads_of_node fun fuel rest enough ends => ?_
  have shape : exprChars (.aggregate function distinct (some arg)) ++ rest =
      function.keyword.toList ++ '(' :: ((if distinct then "DISTINCT " else "").toList ++
        (exprChars arg ++ ')' :: rest)) := by
    cases distinct <;> simp [exprChars_aggregate_some]
  simp only [exprChars_aggregate_some, List.length_append, List.length_cons, List.length_nil]
    at enough
  have found := reads fuel (')' :: rest) (by omega) (ends_cons (by simp))
  rw [shape, readNode_name (by cases function <;> decide) (by cases function <;> decide),
    readWord_aggregate, reads.readAggregate (ends_cons (by simp)), found]
  rfl

/-! ## Expressions -/

mutual

/-- The reader finds every expression at its text. -/
theorem reads_of_madeOf : (e : Expr) → e.MadeOf Variable.IsClean Literal.IsPlain → Reads e
  | .variable _, clean => reads_variable clean
  | .constant _, plain => reads_constant plain
  | .binary op left right, made =>
      reads_binary op (reads_of_madeOf left made.1) (reads_of_madeOf right made.2)
  | .not operand, made => reads_not (reads_of_madeOf operand made)
  | .negate operand, made => reads_negate (reads_of_madeOf operand made)
  | .regex subject pattern flags, made =>
      reads_regex (reads_of_madeOf subject made) pattern flags
  | .inList subject items negated, made =>
      reads_inList (reads_of_madeOf subject made.1) (reads_of_allMadeOf items made.2) negated
  | .bound _, clean => reads_bound clean
  | .call function args, made => reads_call function (reads_of_allMadeOf args made)
  | .aggregate function distinct none, _ => reads_aggregate_none function distinct
  | .aggregate function distinct (some arg), made =>
      reads_aggregate_some function distinct (reads_of_madeOf arg made)

theorem reads_of_allMadeOf : (es : List Expr) →
    Expr.AllMadeOf Variable.IsClean Literal.IsPlain es → ∀ e ∈ es, Reads e
  | [], _ => by simp
  | e :: rest, made => List.forall_mem_cons.mpr
      ⟨reads_of_madeOf e made.1, reads_of_allMadeOf rest made.2⟩

end

/-- An expression is read back from its text. -/
theorem readExpr?_exprChars {e : Expr} (made : e.MadeOf Variable.IsClean Literal.IsPlain) :
    readExpr? (exprChars e) = some e := by
  have found := reads_of_madeOf e made (exprChars e).length [] le_rfl ends_nil
  rw [List.append_nil] at found
  rw [readExpr?, found]

/-- It is also read back from its text in brackets. -/
theorem readExpr?_bracketedChars {e : Expr} (made : e.MadeOf Variable.IsClean Literal.IsPlain) :
    readExpr? (bracketedChars e) = some e := by
  have found := (reads_of_madeOf e made).wrapped (wrapped (exprChars e)).length le_rfl ends_nil
  rw [List.append_nil] at found
  rw [readExpr?, bracketedChars, found]

/-- Expressions with the same text are the same, and so are expressions with the
same text in brackets. -/
theorem eq_of_exprText_eq {first second : Expr}
    (madeFirst : first.MadeOf Variable.IsClean Literal.IsPlain)
    (madeSecond : second.MadeOf Variable.IsClean Literal.IsPlain) :
    (exprText first = exprText second → first = second) ∧
      (bracketedChars first = bracketedChars second → first = second) := by
  constructor
  · intro same
    apply Option.some.inj
    rw [← readExpr?_exprChars madeFirst, ← readExpr?_exprChars madeSecond,
      String.ofList_injective same]
  · intro same
    apply Option.some.inj
    rw [← readExpr?_bracketedChars madeFirst, ← readExpr?_bracketedChars madeSecond, same]

/-- A test for membership in a list that holds a negative number, a moment, and a
count of distinct values. -/
def countsAmong (number : Expr) : Expr :=
  .not (.inList (.variable (.ofText "?total due"))
    [number, .constant (.timestamp "2024-01-31T10:00:00"),
      .aggregate .count true (some (.variable (.ofText "id")))] true)

/-- A negative number is told from the negation of a number. -/
theorem exprText_ne_negated_decimal :
    exprText (countsAmong (.constant (.decimal "-1.5"))) ≠
        exprText (countsAmong (.negate (.constant (.decimal "1.5")))) ∧
      bracketedChars (countsAmong (.constant (.decimal "-1.5"))) ≠
        bracketedChars (countsAmong (.negate (.constant (.decimal "1.5")))) := by
  have isMantissa : Sql.Lexer.IsMantissa (['1'] ++ '.' :: ['5']) :=
    .point ⟨by decide, List.all_eq_true.mp (by decide)⟩ (List.all_eq_true.mp (by decide))
  have isNumber : Sql.Lexer.IsNumber "1.5".toList := ⟨_, [], isMantissa, .absent, rfl⟩
  have isDecimal : Sql.Lexer.IsDecimal "1.5".toList := .unsigned isNumber (by decide)
  have isMoment : (Literal.timestamp "2024-01-31T10:00:00").IsPlain := ⟨by decide, by decide⟩
  have made : ∀ number : Expr, number.MadeOf Variable.IsClean Literal.IsPlain →
      (countsAmong number).MadeOf Variable.IsClean Literal.IsPlain := fun number made =>
    ⟨⟨_, rfl⟩, made, isMoment, ⟨_, rfl⟩, trivial⟩
  have told := eq_of_exprText_eq (made (.constant (.decimal "-1.5")) (.minus isDecimal))
    (made (.negate (.constant (.decimal "1.5"))) isDecimal)
  exact ⟨fun same => (nomatch told.1 same), fun same => (nomatch told.2 same)⟩

end TripleTables.Sparql

import TripleTables.Proofs.Compile.Mentions
import TripleTables.Proofs.Compile.Scope

/-!
# Required and optional columns

Of a table that is not left-joined, a nullable column stands in an optional
group and any other column in a required block, whichever clause mentions it
first, with one exception.  The condition of a left join registers the columns
that it is the first to mention as optional, those of other tables included.
The select list and the conditions of inner joins come before it, and all other
clauses after it.
-/

namespace TripleTables

open TripleTables.Graph

/-- The triples of an optional group. -/
def Block.optionalTriples : Block → List Triple
  | .required _ => []
  | .optional group => group.allTriples

/-- The triples of the required blocks. -/
def Query.requiredTriples (query : Query) : List Triple :=
  query.elements.flatMap fun
    | .block content => content.requiredTriples
    | _ => []

/-- The triples of the optional groups, those of nested blocks included. -/
def Query.optionalTriples (query : Query) : List Triple :=
  query.elements.flatMap fun
    | .block content => content.optionalTriples
    | _ => []

open Builder (Registration)

/-- The columns of tables that are not left-joined stand in optional groups if
they are set apart, and in required blocks if not.  The required blocks hold
nothing else but the own triples of these tables, and the optional groups
nothing else but the triples of the left-joined tables. -/
structure Query.SplitsColumns (query : Query) (builder : Builder)
    (apart : Registration → Bool) : Prop where
  required : query.requiredTriples.Perm
    ((builder.bindings.filter (fun binding => !binding.isOptional)).flatMap Binding.ownTriples ++
      (builder.registrations.filter (fun registration =>
        !registration.binding.isOptional && !apart registration)).map Registration.triple)
  optional : query.optionalTriples.Perm
    ((builder.bindings.filter Binding.isOptional).flatMap Binding.ownTriples ++
      (builder.registrations.filter (fun registration =>
        registration.binding.isOptional || apart registration)).map Registration.triple)

namespace Builder

/-! ## Two kinds of triples -/

theorem requiredTriples_of_elements {builder : Builder} {result : Query}
    (same : result.elements = builder.elements) :
    result.requiredTriples = builder.blocks.flatMap Block.requiredTriples := by
  have nothing : ∀ block : Block, block.isVoid = true → block.requiredTriples = [] := by
    intro block void
    cases block with
    | required triples => simp [Block.isVoid] at void
    | optional group => rfl
  rw [Query.requiredTriples, same, elements_eq, List.flatMap_append, List.flatMap_append,
    List.flatMap_map, List.flatMap_map, List.flatMap_map, flatMap_filter_isVoid nothing]
  simp

theorem optionalTriples_of_elements {builder : Builder} {result : Query}
    (same : result.elements = builder.elements) :
    result.optionalTriples = builder.blocks.flatMap Block.optionalTriples := by
  have nothing : ∀ block : Block, block.isVoid = true → block.optionalTriples = [] := by
    intro block void
    cases block with
    | required triples => rfl
    | optional group => exact allTriples_of_isVoid void
  rw [Query.optionalTriples, same, elements_eq, List.flatMap_append, List.flatMap_append,
    List.flatMap_map, List.flatMap_map, List.flatMap_map, flatMap_filter_isVoid nothing]
  simp

theorem perm_allTriples (blocks : List Block) :
    (blocks.flatMap Block.allTriples).Perm
      (blocks.flatMap Block.requiredTriples ++ blocks.flatMap Block.optionalTriples) := by
  induction blocks with
  | nil => exact .refl _
  | cons block rest ih =>
      simp only [List.flatMap_cons]
      cases block with
      | required triples =>
          rw [Block.allTriples, Block.requiredTriples, Block.optionalTriples, List.nil_append,
            List.append_assoc]
          exact ih.append_left triples
      | optional group =>
          rw [Block.allTriples, Block.requiredTriples, Block.optionalTriples, List.nil_append]
          exact (ih.append_left _).trans (List.perm_append_comm_assoc _ _ _)

/-- Values of one kind and values of the other are all values. -/
theorem perm_flatMap_filter {α β : Type} (kind : α → Bool) (part : α → List β)
    (values : List α) :
    (values.flatMap part).Perm ((values.filter (fun value => !kind value)).flatMap part ++
      (values.filter kind).flatMap part) := by
  rw [← List.flatMap_append]
  exact ((List.perm_append_comm.trans (List.filter_append_perm kind values)).flatMap_right
    part).symm

/-- Where a registered column stands in an optional group exactly when its table
is left-joined or it is set apart, the columns are split. -/
theorem Placed.splitsColumns {builder : Builder} {result : Query} {apart : Registration → Bool}
    (placed : Placed builder) (same : result.elements = builder.elements)
    (flags : ∀ registration ∈ builder.registrations,
      registration.inGroup = (registration.binding.isOptional || apart registration)) :
    result.SplitsColumns builder apart := by
  have plain : builder.plainColumns false = builder.registrations.filter (fun registration =>
      !(registration.binding.isOptional || apart registration)) := by
    refine List.filter_congr ?_
    intro registration registered
    rw [flags registration registered]
    cases registration.binding.isOptional <;> cases apart registration <;> rfl
  have required := placed.required
  rw [plain] at required
  refine ⟨?_, ?_⟩
  · simpa only [requiredTriples_of_elements same, Bool.not_or] using required
  · -- All triples are those of the tables and columns, and the required ones are known.
    have tables := perm_flatMap_filter Binding.isOptional Binding.ownTriples builder.bindings
    have columns := perm_flatMap_filter
      (fun registration : Registration => registration.binding.isOptional || apart registration)
      (fun registration => [registration.triple]) builder.registrations
    simp only [← List.map_eq_flatMap] at columns
    have all := ((perm_allTriples builder.blocks).symm.trans placed.once).trans
      (tables.append columns)
    rw [optionalTriples_of_elements same]
    have joined := (required.append_right _).symm.trans all
    rw [List.append_assoc, List.append_assoc] at joined
    have behind := (List.perm_append_left_iff _).mp joined
    exact (List.perm_append_left_iff _).mp
      (behind.trans (List.perm_append_comm_assoc _ _ _))

/-! ## Who mentions a column first -/

/-- Of three phases, the second registers as optional what it is the first to
mention, and the others register nothing so. -/
theorem inGroup_of_phases {early late : List Name} {start first second last : Builder}
    (unregistered : start.registrations = []) (before : Mentioning false early start first)
    (between : Mentioning true late first second) (behind : Growing false second last) :
    ∀ registration ∈ last.registrations, registration.inGroup =
      (registration.binding.isOptional || registration.column.nullable ||
        ((start.placesOf late).contains registration.place &&
          !(start.placesOf early).contains registration.place)) := by
  obtain ⟨ones, isOnes, onesFlags⟩ := before.registered
  obtain ⟨twos, isTwos, twosFlags⟩ := between.registered
  obtain ⟨threes, isThrees, threesFlags⟩ := behind.registered
  have distinct : last.places.Nodup := by
    rw [Builder.places, behind.consistent.map_place_registrations]
    exact behind.consistent.places
  rw [Builder.places, isThrees, List.map_append, List.nodup_append] at distinct
  have distinctSecond := distinct.1
  rw [isTwos, List.map_append, List.nodup_append] at distinctSecond
  have inFirst : ∀ place, place ∈ first.places ↔ place ∈ start.placesOf early := by
    intro place
    rw [before.places, Builder.places, unregistered]
    simp
  have inSecond : ∀ place, place ∈ second.places ↔
      place ∈ start.placesOf early ∨ place ∈ start.placesOf late := by
    intro place
    rw [between.places, inFirst, placesOf_congr before.bindings]
  intro registration registered
  rw [isThrees, List.mem_append] at registered
  rcases registered with registered | isThree
  · rw [isTwos, List.mem_append] at registered
    rcases registered with isOne | isTwo
    · have mentioned : registration.place ∈ start.placesOf early :=
        (inFirst _).mp (List.mem_map_of_mem isOne)
      rw [isOnes, unregistered, List.nil_append] at isOne
      rw [onesFlags registration isOne]
      simp [mentioned]
    · have new : registration.place ∉ start.placesOf early := by
        rw [← inFirst]
        intro old
        exact distinctSecond.2.2 _ old _ (List.mem_map_of_mem isTwo) rfl
      have known : registration.place ∈ second.places := by
        rw [Builder.places, isTwos]
        exact List.mem_map_of_mem (List.mem_append_right _ isTwo)
      have mentioned := ((inSecond _).mp known).resolve_left new
      rw [twosFlags registration isTwo]
      simp [mentioned, new]
  · have new : registration.place ∉ second.places := by
      intro old
      exact distinct.2.2 _ old _ (List.mem_map_of_mem isThree) rfl
    have unmentioned : registration.place ∉ start.placesOf late := by
      intro mentioned
      exact new ((inSecond _).mpr (.inr mentioned))
    rw [threesFlags registration isThree]
    simp [unmentioned]

/-- The condition of a left join is the first to mention the column at a place:
no item of the select list and no condition of an inner join does. -/
def isFirstInLeftJoin (builder : Builder) (query : Sql.Query) (place : Nat × Nat) : Bool :=
  (builder.placesOf ((Sql.SourceWithJoins.conditionsOn .leftOuter query.sources).flatMap
      Sql.Expr.columnNames)).contains place &&
    !(builder.placesOf (query.items.flatMap builder.itemNames ++
      (Sql.SourceWithJoins.conditionsOn .inner query.sources).flatMap
        Sql.Expr.columnNames)).contains place

end Builder

namespace Compile

open TripleTables.Builder (Consistent Growing Mentioning)

variable {before next : Builder}

/-! ## Joins -/

/-- Binding sources gives the conditions of the inner and of the left joins, and
adds a binding for each source, which is left-joined or not. -/
structure Collects (inner left : List Sql.Expr) (joined : List Bool) (before next : Builder)
    (conditions : Conditions) : Prop where
  inner : conditions.inner = inner
  left : conditions.left.map Prod.snd = left
  bindings : next.bindings.map Binding.isOptional =
    before.bindings.map Binding.isOptional ++ joined

theorem Collects.append {inner left others rest : List Sql.Expr} {joined more : List Bool}
    {middle : Builder} {conditions further : Conditions}
    (first : Collects inner left joined before middle conditions)
    (second : Collects others rest more middle next further) :
    Collects (inner ++ others) (left ++ rest) (joined ++ more) before next
      (conditions.append further) where
  inner := by rw [Conditions.append, first.inner, second.inner]
  left := by rw [Conditions.append, List.map_append, first.left, second.left]
  bindings := by rw [second.bindings, first.bindings, List.append_assoc]

theorem isOptional_of_bindSource {optional : Bool} {source : Sql.Source} {id : Nat}
    (ran : bindSource optional source before = .ok id next) :
    next.bindings.map Binding.isOptional =
      before.bindings.map Binding.isOptional ++ [optional] := by
  obtain ⟨table, tableAlias, triples, _, rfl⟩ := bindSource_eq_ok ran
  cases optional <;> simp [Builder.withTable, Builder.nextBinding, Binding.isOptional]

theorem collects_bindJoin {join : Sql.Join} {conditions : Conditions}
    (ran : bindJoin join before = .ok conditions next) :
    Collects (join.rule.conditionsOn .inner) (join.rule.conditionsOn .leftOuter)
      [join.rule.isLeft] before next conditions := by
  obtain ⟨source, rule⟩ := join
  cases rule with
  | cross =>
      obtain ⟨id, middle, bound, done⟩ := Run.bind_eq_ok_iff.mp ran
      cases done
      exact ⟨rfl, rfl, isOptional_of_bindSource bound⟩
  | on kind condition =>
      cases kind with
      | inner =>
          obtain ⟨id, middle, bound, done⟩ := Run.bind_eq_ok_iff.mp ran
          cases done
          exact ⟨rfl, rfl, isOptional_of_bindSource bound⟩
      | leftOuter =>
          obtain ⟨id, middle, bound, done⟩ := Run.bind_eq_ok_iff.mp ran
          cases done
          refine ⟨rfl, ?_, isOptional_of_bindSource bound⟩
          simp [Sql.JoinRule.conditionsOn, Function.comp_def]
      | rightOuter => cases ran
      | fullOuter => cases ran

theorem collects_bindJoins {joins : List Sql.Join} {conditions : Conditions}
    (ran : bindJoins joins before = .ok conditions next) :
    Collects (joins.flatMap fun join => join.rule.conditionsOn .inner)
      (joins.flatMap fun join => join.rule.conditionsOn .leftOuter)
      (joins.map fun join => join.rule.isLeft) before next conditions := by
  induction joins generalizing before conditions with
  | nil =>
      cases ran
      exact ⟨rfl, rfl, by simp⟩
  | cons join rest ih =>
      obtain ⟨first, middle, joinRan, ran⟩ := Run.bind_eq_ok_iff.mp ran
      obtain ⟨others, last, restRan, done⟩ := Run.bind_eq_ok_iff.mp ran
      cases done
      exact (collects_bindJoin joinRan).append (ih restRan)

theorem collects_bindSources {sources : List Sql.SourceWithJoins} {conditions : Conditions}
    (ran : bindSources sources before = .ok conditions next) :
    Collects (Sql.SourceWithJoins.conditionsOn .inner sources)
      (Sql.SourceWithJoins.conditionsOn .leftOuter sources)
      (Sql.SourceWithJoins.leftJoined sources) before next conditions := by
  induction sources generalizing before conditions with
  | nil =>
      cases ran
      exact ⟨rfl, rfl, by simp [Sql.SourceWithJoins.leftJoined]⟩
  | cons entry rest ih =>
      obtain ⟨id, opened, bound, ran⟩ := Run.bind_eq_ok_iff.mp ran
      obtain ⟨first, middle, joinsRan, ran⟩ := Run.bind_eq_ok_iff.mp ran
      obtain ⟨others, last, restRan, done⟩ := Run.bind_eq_ok_iff.mp ran
      cases done
      have base : Collects [] [] [false] before opened {} :=
        ⟨rfl, rfl, isOptional_of_bindSource bound⟩
      exact (base.append (collects_bindJoins joinsRan)).append (ih restRan)

/-! ## Statements -/

/-- A registered column stands in an optional group if its table is left-joined,
if it is nullable, or if the condition of a left join mentions it first. -/
theorem inGroup_of_afterSources {functions : FunctionTable} {query : Sql.Query}
    {conditions : Conditions} (consistent : Consistent before)
    (unregistered : before.registrations = [])
    (inner : conditions.inner = Sql.SourceWithJoins.conditionsOn .inner query.sources)
    (left : conditions.left.map Prod.snd =
      Sql.SourceWithJoins.conditionsOn .leftOuter query.sources)
    (ran : afterSources functions query conditions before = .ok () next) :
    ∀ registration ∈ next.registrations, registration.inGroup =
      (registration.binding.isOptional ||
        (registration.column.nullable || next.isFirstInLeftJoin query registration.place)) := by
  obtain ⟨_, opened, distinctRan, ran⟩ := Run.bind_eq_ok_iff.mp ran
  obtain ⟨_, shown, itemsRan, ran⟩ := Run.bind_eq_ok_iff.mp ran
  obtain ⟨_, filtered, innerRan, ran⟩ := Run.bind_eq_ok_iff.mp ran
  obtain ⟨_, joined, leftRan, ran⟩ := Run.bind_eq_ok_iff.mp ran
  obtain ⟨_, restricted, conditionRan, ran⟩ := Run.bind_eq_ok_iff.mp ran
  have start : Mentioning false [] before opened := by
    cases distinctRan
    exact .of_columns (consistent.fill (.outside _ _ _ _ _ _ _ _)) rfl rfl rfl
  have items := start.trans (mentioning_addItems start.consistent itemsRan)
  have early := items.trans (mentioning_addInnerConditions items.consistent innerRan)
  have late := mentioning_addLeftConditions early.consistent leftRan
  have condition := grows_addCondition functions query.condition joined () restricted
    late.consistent conditionRan
  have behind := condition.trans (grows_afterConditions functions query restricted () next
    condition.consistent ran)
  have same : next.bindings = before.bindings :=
    behind.bindings.trans (late.bindings.trans early.bindings)
  rw [List.nil_append, inner, Builder.itemNames_congr start.bindings] at early
  rw [left] at late
  intro registration registered
  rw [Builder.inGroup_of_phases unregistered early late behind registration registered,
    Builder.isFirstInLeftJoin, Builder.itemNames_congr same, Builder.placesOf_congr same,
    Builder.placesOf_congr same, Bool.or_assoc]

end Compile

/-- In a compiled query, a column of a table that is not left-joined stands in
an optional group if it is nullable or if the condition of a left join is the
first to mention it, and otherwise in a required block. -/
theorem Compiler.splitsColumns_of_compile {compiler : Compiler} {query : Sql.Query}
    {result : Query} (compiled : compiler.compile query = .ok result) :
    ∃ builder, Compile.clauses compiler.functions query compiler.start = .ok () builder ∧
      builder.build = .ok result ∧
      builder.bindings.map Binding.isOptional =
        Sql.SourceWithJoins.leftJoined query.sources ∧
      result.columns = builder.registrations.map Registration.mentioned ∧
      result.SplitsColumns builder fun registration =>
        registration.column.nullable || builder.isFirstInLeftJoin query registration.place := by
  obtain ⟨builder, ran, built⟩ := compiler.exists_of_compile compiled
  obtain ⟨conditions, middle, bound, filled⟩ := Compile.exists_of_clauses ran
  have binding := (Compile.moves_bindSources query.sources).of_ok bound
  have filling := (Compile.fills_afterSources _ query conditions).of_ok filled
  obtain ⟨consistent, opened, _⟩ := Builder.layered_of_binds binding
  have collects := Compile.collects_bindSources bound
  obtain ⟨consistentLast, placed⟩ := Builder.placed_of_phases binding filling
  obtain ⟨elements, columns, _⟩ := Builder.parts_of_build built
  have unregistered : middle.registrations = [] := by
    rw [Builder.registrations, opened.noColumns]
    rfl
  refine ⟨builder, ran, built, ?_, ?_, ?_⟩
  · rw [Builder.bindings_of_fills filling, collects.bindings]
    rfl
  · rw [columns, consistentLast.columns_eq]
  · exact placed.splitsColumns elements
      (Compile.inGroup_of_afterSources consistent unregistered collects.inner collects.left filled)

/-- The second table left-joined to the first on equal columns, of which only
that of the second table is shown. -/
def joinedOnHidden : Sql.Query :=
  { distinct := false
    items := [.expr (.column ["bar", "y"]) none]
    sources :=
      [⟨.table ["foo"] none,
        [⟨.table ["bar"] none, .on .leftOuter
          (some (.binary .equal (.column ["foo", "x"]) (.column ["bar", "y"])))⟩]⟩]
    condition := none
    groupBy := []
    having := none
    orderBy := []
    limit := none
    offset := none }

/-- Both columns are never null, and that of the first table is set apart. -/
theorem splitsColumns_joinedOnHidden :
    ∃ catalog result builder, twoTables.assemble = .ok catalog ∧
      ({ catalog } : Compiler).compile joinedOnHidden = .ok result ∧
      builder.build = .ok result ∧
      builder.registrations.length = 2 ∧
      result.SplitsColumns builder fun registration =>
        registration.column.nullable ||
          builder.isFirstInLeftJoin joinedOnHidden registration.place := by
  have checked : ∃ catalog, twoTables.assemble = .ok catalog ∧
      ∃ builder, Compile.clauses ({ catalog } : Compiler).functions joinedOnHidden
          ({ catalog } : Compiler).start = .ok () builder ∧
        ∃ result, builder.build = .ok result ∧ builder.registrations.length = 2 := by
    decide +kernel
  obtain ⟨catalog, assembled, builder, ran, result, built, two⟩ := checked
  have compiled := Compiler.compile_of_clauses ran built
  obtain ⟨other, otherRan, _, _, _, splits⟩ := Compiler.splitsColumns_of_compile compiled
  have same : other = builder := by
    rw [ran] at otherRan
    cases otherRan
    rfl
  subst same
  exact ⟨catalog, result, other, assembled, compiled, built, two, splits⟩

/-- The column of the first table is not nullable and the table is not
left-joined, but the triple of the column stands in an optional group only. -/
theorem optional_joinedOnHidden :
    ∃ catalog builder result, twoTables.assemble = .ok catalog ∧
      Compile.clauses ({ catalog } : Compiler).functions joinedOnHidden
        ({ catalog } : Compiler).start =
        .ok () builder ∧
      builder.build = .ok result ∧
      ({ catalog } : Compiler).compile joinedOnHidden = .ok result ∧
      ∃ registration ∈ builder.registrations,
        registration.binding.isOptional = false ∧ registration.column.nullable = false ∧
        registration.triple ∉ result.requiredTriples ∧
        registration.triple ∈ result.optionalTriples := by
  have checked : ∃ catalog, twoTables.assemble = .ok catalog ∧
      ∃ builder, Compile.clauses ({ catalog } : Compiler).functions joinedOnHidden
          ({ catalog } : Compiler).start = .ok () builder ∧
        ∃ result, builder.build = .ok result ∧
          ∃ registration ∈ builder.registrations,
            registration.binding.isOptional = false ∧ registration.column.nullable = false ∧
            registration.triple ∉ result.requiredTriples ∧
            registration.triple ∈ result.optionalTriples := by
    decide +kernel
  obtain ⟨catalog, assembled, builder, ran, result, built, found⟩ := checked
  exact ⟨catalog, builder, result, assembled, ran, built, Compiler.compile_of_clauses ran built,
    found⟩

end TripleTables

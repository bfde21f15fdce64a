import TripleTables.Catalog.Definition
import TripleTables.Proofs.Builder.Scope
import TripleTables.Proofs.Compile.Phases

/-!
# The scope of join conditions

The condition of a left join is evaluated inside the optional group of the
joined table, over what the group and the elements before it bind.  It is in
scope exactly when its variables occur in triples that are there for the join:
own triples of the tables up to the joined one, and columns of left-joined
tables among them.  A column of a table that is not left-joined is registered
behind the group, so a condition that compares it is out of scope.
-/

namespace TripleTables

open TripleTables.Graph

/-- All triples of the element. -/
def Element.triples : Element → List Triple
  | .block content => content.allTriples
  | .bind _ _ => []
  | .filter _ => []

/-- Every variable of a condition in an optional group occurs in a triple of
the group or of an element before it. -/
def Query.ConditionsInScope (query : Query) : Prop :=
  ∀ earlier group later, query.elements = earlier ++ .block (.optional group) :: later →
    ∀ condition ∈ group.filters, ∀ v ∈ condition.vars,
      ∃ triple ∈ earlier.flatMap Element.triples ++ group.allTriples, v ∈ triple.vars

/-! ## Checking a list of elements -/

/-- The conditions that stand inside the element. -/
def Element.conditions : Element → List Expr
  | .block (.optional group) => group.filters
  | _ => []

/-- Conditions inside the elements are in scope when the given triples stand
before them. -/
def InScopeAfter : List Triple → List Element → Prop
  | _, [] => True
  | seen, element :: rest =>
      (∀ condition ∈ element.conditions, ∀ v ∈ condition.vars,
        ∃ triple ∈ seen ++ element.triples, v ∈ triple.vars) ∧
      InScopeAfter (seen ++ element.triples) rest

instance decidableInScopeAfter :
    ∀ (seen : List Triple) (elements : List Element), Decidable (InScopeAfter seen elements)
  | _, [] => inferInstanceAs (Decidable True)
  | seen, element :: rest =>
      have : Decidable (InScopeAfter (seen ++ element.triples) rest) :=
        decidableInScopeAfter (seen ++ element.triples) rest
      inferInstanceAs (Decidable (_ ∧ _))

theorem inScopeAfter_iff (seen : List Triple) (elements : List Element) :
    InScopeAfter seen elements ↔
      ∀ earlier group later, elements = earlier ++ .block (.optional group) :: later →
        ∀ condition ∈ group.filters, ∀ v ∈ condition.vars,
          ∃ triple ∈ seen ++ earlier.flatMap Element.triples ++ group.allTriples,
            v ∈ triple.vars := by
  induction elements generalizing seen with
  | nil => simp [InScopeAfter]
  | cons element rest ih =>
      rw [InScopeAfter, ih]
      constructor
      · rintro ⟨here, behind⟩ earlier group later split
        cases earlier with
        | nil =>
            cases split
            simpa [Element.conditions, Element.triples, Block.allTriples] using here
        | cons first earlier =>
            cases split
            simpa using behind earlier group later rfl
      · intro all
        constructor
        · intro condition inside
          cases element with
          | block content =>
              cases content with
              | required triples => simp [Element.conditions] at inside
              | optional group =>
                  simpa [Element.triples, Block.allTriples] using
                    all [] group rest rfl condition inside
          | bind expr v => simp [Element.conditions] at inside
          | filter other => simp [Element.conditions] at inside
        · intro earlier group later split
          simpa using all (element :: earlier) group later (by rw [split]; rfl)

instance : DecidablePred Query.ConditionsInScope := fun query =>
  decidable_of_iff (InScopeAfter [] query.elements) (inScopeAfter_iff [] query.elements)

namespace Builder

/-- The condition stands in the group of the left-joined binding at a
position. -/
def JoinCondition (builder : Builder) (k : Nat) (condition : Expr) : Prop :=
  ∃ binding position group, builder.bindings[k]? = some binding ∧
    binding.group = some position ∧ builder.blocks[position]? = some (.optional group) ∧
    condition ∈ group.filters

/-! ## Elements and blocks -/

/-- The blocks that are left out hold no triples. -/
theorem flatMap_triples_elements (blocks : List Block) :
    ((blocks.filter (fun block => !block.isVoid)).map Element.block).flatMap Element.triples =
      blocks.flatMap Block.allTriples := by
  rw [List.flatMap_map]
  exact flatMap_allTriples_filter blocks

theorem triplesUpTo_append_cons (front back : List Block) (group : OptionalGroup) :
    triplesUpTo (front ++ .optional group :: back) (front.length + 1) =
      front.flatMap Block.allTriples ++ group.allTriples := by
  rw [triplesUpTo, List.take_append, List.take_of_length_le (Nat.le_succ _)]
  simp [Block.allTriples]

/-- An optional group among the elements stands among the blocks, behind the
same triples. -/
theorem exists_position_of_elements {builder : Builder} {earlier later : List Element}
    {group : OptionalGroup}
    (split : builder.elements = earlier ++ .block (.optional group) :: later) :
    ∃ position, builder.blocks[position]? = some (.optional group) ∧
      earlier.flatMap Element.triples ++ group.allTriples =
        triplesUpTo builder.blocks (position + 1) := by
  have others : Element.block (.optional group) ∉
      builder.binds.map (fun entry => Element.bind entry.1 entry.2) ++
        builder.filters.map Element.filter := by
    simp
  rw [elements_eq] at split
  rcases List.append_eq_append_iff.mp split with ⟨_, _, inOthers⟩ | ⟨rest, inBlocks, joined⟩
  · exact absurd (by rw [inOthers]; simp) others
  · cases rest with
    | nil => exact absurd (by rw [List.nil_append] at joined; rw [← joined]; simp) others
    | cons first rest =>
        cases joined
        obtain ⟨kept, _, cut, rfl, tail⟩ := List.map_eq_append_iff.mp inBlocks
        obtain ⟨block, _, rfl, isGroup, _⟩ := List.map_eq_cons_iff.mp tail
        cases isGroup
        obtain ⟨front, back, whole, rfl, behind⟩ := List.filter_eq_append_iff.mp cut
        obtain ⟨skipped, back, rfl, void, _, _⟩ := List.filter_eq_cons_iff.mp behind
        refine ⟨(front ++ skipped).length, ?_, ?_⟩
        · rw [whole, ← List.append_assoc, List.getElem?_append_right (Nat.le_refl _)]
          simp
        · have nothing : skipped.filter (fun block => !block.isVoid) = [] :=
            List.filter_eq_nil_iff.mpr void
          rw [whole, ← List.append_assoc, triplesUpTo_append_cons,
            ← flatMap_triples_elements (front ++ skipped), List.filter_append, nothing,
            List.append_nil]

/-- An optional group that holds something stands among the elements, behind
the same triples. -/
theorem exists_elements_of_position {builder : Builder} {position : Nat} {group : OptionalGroup}
    (found : builder.blocks[position]? = some (.optional group))
    (solid : group.isEmpty = false) :
    ∃ earlier later, builder.elements = earlier ++ .block (.optional group) :: later ∧
      earlier.flatMap Element.triples ++ group.allTriples =
        triplesUpTo builder.blocks (position + 1) := by
  obtain ⟨front, back, whole, isFront⟩ : ∃ front back,
      builder.blocks = front ++ .optional group :: back ∧ front.length = position := by
    obtain ⟨inside, isGroup⟩ := List.getElem?_eq_some_iff.mp found
    refine ⟨builder.blocks.take position, builder.blocks.drop (position + 1), ?_, ?_⟩
    · rw [← isGroup, ← List.drop_eq_getElem_cons inside, List.take_append_drop]
    · exact List.length_take_of_le (Nat.le_of_lt inside)
  subst isFront
  refine ⟨(front.filter (fun block => !block.isVoid)).map Element.block,
    (back.filter (fun block => !block.isVoid)).map Element.block ++
      (builder.binds.map (fun entry => Element.bind entry.1 entry.2) ++
        builder.filters.map Element.filter), ?_, ?_⟩
  · rw [elements_eq, whole, List.filter_append,
      List.filter_cons_of_pos (by simp [Block.isVoid, solid]), List.map_append, List.map_cons]
    simp only [List.append_assoc, List.cons_append]
  · rw [flatMap_triples_elements, whole, triplesUpTo_append_cons]

end Builder

/-! ## Compiled queries -/

theorem Compiler.reachable_start (compiler : Compiler) :
    Builder.Reachable compiler.catalog compiler.start :=
  .empty compiler.options.defaultSchema compiler.options.useService

/-- A compiled query is what the clauses have gathered. -/
theorem Compiler.exists_of_compile {compiler : Compiler} {query : Sql.Query} {result : Query}
    (compiled : compiler.compile query = .ok result) :
    ∃ builder, Compile.clauses compiler.functions query compiler.start = .ok () builder ∧
      builder.build = .ok result := by
  unfold Compiler.compile at compiled
  split at compiled
  · rename_i builder ran
    cases built : builder.build with
    | error error => simp [built, Except.mapError] at compiled
    | ok other =>
        rw [built] at compiled
        cases compiled
        exact ⟨builder, ran, built⟩
  · contradiction

theorem Compiler.compile_of_clauses {compiler : Compiler} {query : Sql.Query} {builder : Builder}
    {result : Query}
    (ran : Compile.clauses compiler.functions query compiler.start = .ok () builder)
    (built : builder.build = .ok result) : compiler.compile query = .ok result := by
  simp only [compile, ran, built, Except.mapError]

theorem Compiler.compileText_of_parse (compiler : Compiler) {text : String} {query : Sql.Query}
    (read : Sql.parse text = .ok query) : compiler.compileText text = compiler.compile query := by
  rw [compileText, read]
  rfl

/-- A text that is compiled has been read. -/
theorem Compiler.exists_of_compileText {compiler : Compiler} {text : String} {result : Query}
    (compiled : compiler.compileText text = .ok result) :
    ∃ query, Sql.parse text = .ok query ∧ compiler.compile query = .ok result := by
  cases read : Sql.parse text with
  | error error =>
      rw [Compiler.compileText, read] at compiled
      cases compiled
  | ok query => exact ⟨query, rfl, compiler.compileText_of_parse read ▸ compiled⟩

/-- The conditions of the left joins of a compiled query are in scope exactly
when every variable of theirs occurs in a triple that is there for the join. -/
theorem Compiler.conditionsInScope_iff {compiler : Compiler} {query : Sql.Query} {result : Query}
    (compiled : compiler.compile query = .ok result) :
    ∃ builder, Compile.clauses compiler.functions query compiler.start = .ok () builder ∧
      builder.build = .ok result ∧
      (result.ConditionsInScope ↔
        ∀ k condition, builder.JoinCondition k condition →
          ∀ v ∈ condition.vars, ∃ triple, builder.Offers k triple ∧ v ∈ triple.vars) := by
  obtain ⟨builder, ran, built⟩ := compiler.exists_of_compile compiled
  obtain ⟨middle, binding, filling⟩ := Compile.phases_of_clauses ran
  obtain ⟨consistent, _, opened⟩ := Builder.layered_of_binds binding
  have layered := (Builder.layered_of_fills consistent opened filling).2
  have elements : result.elements = builder.elements := Builder.elements_of_build built
  refine ⟨builder, ran, built, ?_⟩
  constructor
  · rintro inScope k condition ⟨joined, position, group, isJoined, grouped, found, member⟩ v occurs
    have solid : group.isEmpty = false := by
      cases filters : group.filters with
      | nil => simp [filters] at member
      | cons first others => simp [OptionalGroup.isEmpty, filters]
    obtain ⟨earlier, later, split, before⟩ := Builder.exists_elements_of_position found solid
    obtain ⟨triple, stands, inTriple⟩ :=
      inScope earlier group later (elements.trans split) condition member v occurs
    rw [before, layered.upTo isJoined grouped] at stands
    exact ⟨triple, stands, inTriple⟩
  · intro offered earlier group later split condition member v occurs
    obtain ⟨position, found, before⟩ :=
      Builder.exists_position_of_elements (elements.symm.trans split)
    obtain ⟨k, joined, isJoined, grouped⟩ :=
      layered.conditions found (List.ne_nil_of_mem member)
    obtain ⟨triple, isOffered, inTriple⟩ :=
      offered k condition ⟨joined, position, group, isJoined, grouped, found, member⟩ v occurs
    rw [← layered.upTo isJoined grouped, ← before] at isOffered
    exact ⟨triple, isOffered, inTriple⟩

/-- A catalog of two tables with one column each. -/
def twoTables : CatalogDefinition :=
  { name := "cat"
    schemas :=
      [{ name := "s"
         tables :=
          [{ name := "foo"
             templates := ["\x7bsubject\x7d a <http://e/foo> ."]
             columns :=
              [{ name := "x", template := "\x7bsubject\x7d <http://e/x> \x7bobject\x7d ." }] },
           { name := "bar"
             templates := ["\x7bsubject\x7d a <http://e/bar> ."]
             columns :=
              [{ name := "y", template := "\x7bsubject\x7d <http://e/y> \x7bobject\x7d ." }] }] }] }

/-- The second table left-joined to the first on a condition, both columns
shown. -/
def leftJoined (condition : Sql.Expr) : Sql.Query :=
  { distinct := false
    items := [.expr (.column ["foo", "x"]) none, .expr (.column ["bar", "y"]) none]
    sources :=
      [⟨.table ["foo"] none, [⟨.table ["bar"] none, .on .leftOuter (some condition)⟩]⟩]
    condition := none
    groupBy := []
    having := none
    orderBy := []
    limit := none
    offset := none }

/-- A condition on the joined table alone compiles, and the theorem applies to
what it is compiled to. -/
theorem conditionsInScope_iff_ownColumn :
    ∃ catalog result, twoTables.assemble = .ok catalog ∧
      ({ catalog } : Compiler).compile
        (leftJoined (.isNull true (.column ["bar", "y"]))) = .ok result ∧
      result.optionalGroups.length = 1 ∧ result.ConditionsInScope ∧
      ∃ builder : Builder, builder.build = .ok result ∧
        ∀ k condition, builder.JoinCondition k condition →
          ∀ v ∈ condition.vars, ∃ triple, builder.Offers k triple ∧ v ∈ triple.vars := by
  have checked : ∃ catalog, twoTables.assemble = .ok catalog ∧
      ∃ result, ({ catalog } : Compiler).compile
        (leftJoined (.isNull true (.column ["bar", "y"]))) = .ok result ∧
        result.optionalGroups.length = 1 ∧ result.ConditionsInScope := by
    decide +kernel
  obtain ⟨catalog, assembled, result, compiled, groups, inScope⟩ := checked
  obtain ⟨builder, _, built, offered⟩ := Compiler.conditionsInScope_iff compiled
  exact ⟨catalog, result, assembled, compiled, groups, inScope, builder, built,
    offered.mp inScope⟩

/-- A condition that compares a column of the first table is out of scope: that
column is bound only behind the group. -/
theorem not_conditionsInScope_leftJoined :
    ∃ catalog result, twoTables.assemble = .ok catalog ∧
      ({ catalog } : Compiler).compile
        (leftJoined (.binary .equal (.column ["foo", "x"]) (.column ["bar", "y"]))) =
          .ok result ∧
      ¬ result.ConditionsInScope := by
  have checked : ∃ catalog, twoTables.assemble = .ok catalog ∧
      ∃ result, ({ catalog } : Compiler).compile
        (leftJoined (.binary .equal (.column ["foo", "x"]) (.column ["bar", "y"]))) =
          .ok result ∧ ¬ result.ConditionsInScope := by
    decide +kernel
  obtain ⟨catalog, assembled, result, compiled, outOfScope⟩ := checked
  exact ⟨catalog, result, assembled, compiled, outOfScope⟩

end TripleTables

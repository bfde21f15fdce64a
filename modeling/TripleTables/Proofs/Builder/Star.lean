import TripleTables.Proofs.Builder.Resolution

/-!
# Star expansion

A star shows the columns of all bindings, or those of the one binding that its
pattern covers.  Each column goes through the general resolution of names, in a
builder that the columns before it have changed.  `Expands` says what comes out
in the end: one result column for each column, in the order of bindings and
columns, under the first of three names that no result column before it has.
-/

namespace TripleTables

open TripleTables.Graph

theorem Name.spelled_of_table_column {table column : String} (hasTable : table ≠ "")
    (hasColumn : column ≠ "") :
    (Name.ofSegments none none (some table) (some column)).spelled =
      table ++ Name.middleDot ++ column := by
  rw [Name.spelled, Name.joinedBy, Name.ofSegments, Name.segment_some_of_ne_empty hasTable,
    Name.segment_some_of_ne_empty hasColumn]
  rfl

namespace Builder

/-! ## Names of shown columns -/

namespace Offer

/-- The column's own name behind the alias of its binding. -/
def qualifiedName (offer : Offer) : String :=
  offer.binding.tableAlias ++ Name.middleDot ++ offer.column.shortName

/-- The name under which a column is shown beside earlier names: its own name, the
one with the alias if that is taken, and the name of its variable if both are. -/
def displayName (offer : Offer) (earlier : List String) : String :=
  if offer.column.shortName ∉ earlier then offer.column.shortName
  else if offer.qualifiedName ∉ earlier then offer.qualifiedName
  else offer.var.name

/-- The result column shows the column under a name that no earlier one has. -/
structure ShownAs (offer : Offer) (earlier : List String) (projection : Projection) : Prop where
  var : projection.var = offer.var
  expression : projection.expression = none
  sqlType : projection.sqlType = some offer.column.sqlType
  displayName : projection.displayName = offer.displayName earlier
  free : projection.displayName ∉ earlier

/-- The error is about the column: its template cannot be filled, or all of its
names are taken. -/
def Blamed (offer : Offer) (error : QueryError) : Prop :=
  (∃ fault, error = .malformed fault ∧ BlamesColumn offer.column fault) ∨
    error = .duplicateProjection offer.var.name

end Offer

/-- The result columns show the columns, one for each and in the same order, beside
earlier names. -/
inductive Expands : List String → List Offer → List Projection → Prop
  | nil (earlier : List String) : Expands earlier [] []
  | cons {earlier : List String} {offer : Offer} {offers : List Offer} {projection : Projection}
      {shown : List Projection} (first : offer.ShownAs earlier projection)
      (rest : Expands (earlier ++ [projection.displayName]) offers shown) :
      Expands earlier (offer :: offers) (projection :: shown)

/-- The step adds result columns that show the columns, or fails for a column that is
to blame. -/
def Shows (step : Build Unit) (builder : Builder) (columns : List Offer) : Prop :=
  (∃ next shown, step builder = .ok () next ∧ next.projections = builder.projections ++ shown ∧
      Expands (builder.projections.map Projection.displayName) columns shown) ∨
    ∃ offer ∈ columns, ∃ error next, step builder = .error error next ∧ offer.Blamed error

/-- No other error comes out of it. -/
theorem Shows.not_error {step : Build Unit} {builder : Builder} {columns : List Offer}
    {error : QueryError} (shows : Shows step builder columns)
    (noFault : ∀ fault, error ≠ .malformed fault)
    (noDuplicate : ∀ name, error ≠ .duplicateProjection name) :
    ¬ ∃ next, step builder = .error error next := by
  rintro ⟨next, failed⟩
  rcases shows with ⟨_, _, ran, _⟩ | ⟨offer, _, _, _, isError, ⟨fault, blamed, _⟩ | blamed⟩
  · cases failed.symm.trans ran
  · cases failed.symm.trans isError
    exact noFault fault blamed
  · cases failed.symm.trans isError
    exact noDuplicate _ blamed

/-- The first of three names that is free is chosen, if one is. -/
theorem chooseDisplayName_of_candidates {builder : Builder} {v : Variable}
    {first second : String} (candidates : builder.displayCandidates v = [first, second, v.name]) :
    builder.chooseDisplayName v none =
      let name := if first ∉ builder.displayNames then first
        else if second ∉ builder.displayNames then second else v.name
      if name ∈ builder.displayNames then .error (.duplicateProjection v.name) else .ok name := by
  rw [chooseDisplayName, candidates]
  by_cases firstTaken : first ∈ builder.displayNames
  · by_cases secondTaken : second ∈ builder.displayNames
    · by_cases thirdTaken : v.name ∈ builder.displayNames
      · simp [firstTaken, secondTaken, thirdTaken]
      · simp [firstTaken, secondTaken, thirdTaken]
    · simp [firstTaken, secondTaken]
  · simp [firstTaken]

/-! ## Aliases -/

/-- An alias that is kept has a text. -/
theorem Reachable.alias_ne_empty {catalog : Catalog} {builder : Builder}
    (reachable : Reachable catalog builder) :
    ∀ binding ∈ builder.bindings, binding.name.table ≠ some "" := by
  refine @Reachable.keeps catalog
    (fun builder => ∀ binding ∈ builder.bindings, binding.name.table ≠ some "")
    (fun _ _ => by simp) ?_ builder reachable
  rintro before next (binds | fills) kept
  · rcases binds with @⟨_, table, tableAlias, optional, _, _, _, _⟩
    intro binding member
    rcases List.mem_append.mp member with old | new
    · exact kept binding old
    · rw [List.mem_singleton.mp new]
      simp [nextBinding, Table.aliased, Name.ofSegments, Name.segment, Option.filter_eq_some_iff]
  · rw [fills.bindings_eq.2]
    exact kept

/-- A column of a builder is one that is offered. -/
theorem Consistent.exists_offer_of_mem_columns {builder : Builder} (consistent : Consistent builder)
    {column : MentionedColumn} (kept : column ∈ builder.columns) :
    ∃ offer ∈ builder.offers, ∃ inGroup, column = mention offer.binding offer.column inGroup := by
  obtain ⟨position, found⟩ := List.mem_iff_getElem?.mp kept
  have inside : position ∈ List.range builder.columns.length :=
    List.mem_range.mpr (List.getElem?_eq_some_iff.mp found).1
  rw [← consistent.positions] at inside
  obtain ⟨⟨place, _⟩, indexed, rfl⟩ := List.mem_map.mp inside
  obtain ⟨binding, declared, _, inGroup, bound, isDeclared, _, isMention⟩ :=
    consistent.mentioned indexed
  refine ⟨⟨binding, place.2, declared⟩, ?_, inGroup, ?_⟩
  · exact List.mem_flatMap.mpr ⟨binding, List.mem_of_getElem? bound,
      mem_offersOf_iff.mpr ⟨rfl, isDeclared⟩⟩
  · exact Option.some.inj (found.symm.trans isMention)

theorem eq_singleton_of_nodup {α : Type} {values : List α} {value : α} (distinct : values.Nodup)
    (member : value ∈ values) (only : ∀ other ∈ values, other = value) : values = [value] := by
  cases values with
  | nil => cases member
  | cons first rest =>
      obtain rfl := only first List.mem_cons_self
      have none : rest = [] := List.eq_nil_iff_forall_not_mem.mpr fun other inRest =>
        (List.nodup_cons.mp distinct).1 (only other (List.mem_cons_of_mem _ inRest) ▸ inRest)
      rw [none]

section Assembled

variable {definition : CatalogDefinition} {catalog : Catalog} {builder : Builder}
  (assembled : definition.assemble = .ok catalog) (reachable : Reachable catalog builder)
  (named : FullyNamed builder)

include reachable named in
/-- The alias tells the bindings apart. -/
theorem FullyNamed.eq_of_table {first second : Binding} (isFirst : first ∈ builder.bindings)
    (isSecond : second ∈ builder.bindings) (same : first.name.table = second.name.table) :
    first = second := by
  obtain ⟨i, found⟩ := List.mem_iff_getElem?.mp isFirst
  obtain ⟨j, found'⟩ := List.mem_iff_getElem?.mp isSecond
  obtain ⟨tableAlias, isAlias⟩ := Option.ne_none_iff_exists'.mp (named.aliases first isFirst)
  obtain rfl := reachable.bound.eq_of_alias found found' isAlias (same.symm.trans isAlias)
  exact Option.some.inj (found.symm.trans found')

include assembled reachable named

/-- The full name of an offer covers no other one. -/
theorem FullyNamed.meant_name {offer : Offer} (offered : offer ∈ builder.offers) :
    builder.meant offer.name = [offer] := by
  have distinct := named.nodup_offers assembled reachable
  have isBinding : ∀ offer ∈ builder.offers, offer.binding ∈ builder.bindings :=
    fun offer offered =>
      List.mem_of_getElem? (reachable.consistent.stands_of_mem_offers offered).1
  have namedColumn : ∀ offer ∈ builder.offers, offer.column.name.column ≠ none :=
    fun offer offered => named.columns _ (isBinding offer offered) _
      (List.mem_of_getElem? (reachable.consistent.stands_of_mem_offers offered).2)
  apply eq_singleton_of_nodup
  · exact distinct.of_map.filter _
  · exact List.mem_filter.mpr ⟨offered, offer.name.covers_self⟩
  · intro other meant
    obtain ⟨isOther, covered⟩ := List.mem_filter.mp meant
    simp only [Name.covers, Bool.and_eq_true] at covered
    have table : other.binding.name.table = offer.binding.name.table :=
      (Name.admits_iff_of_present (Option.isNone_eq_false_iff.mpr
        (Option.isSome_iff_ne_none.mpr
          (named.aliases _ (isBinding offer offered)))) _).mp covered.1.2
    have column : other.column.name.column = offer.column.name.column :=
      (Name.admits_iff_of_present (Option.isNone_eq_false_iff.mpr
        (Option.isSome_iff_ne_none.mpr (namedColumn offer offered))) _).mp covered.2
    have sameBinding := named.eq_of_table reachable (isBinding other isOther)
      (isBinding offer offered) table
    apply List.inj_on_of_nodup_map distinct isOther offered
    rw [Offer.name, Offer.name, Binding.fullName, Binding.fullName, sameBinding, column]

/-- The name of a binding leads back to it. -/
theorem FullyNamed.columnsOfBinding_eq {binding : Binding}
    (isBinding : binding ∈ builder.bindings) :
    builder.columnsOfBinding binding.name = (offersOf binding).map Offer.name := by
  have found : builder.bindings.find? (fun other => other.name = binding.name) = some binding := by
    cases first : builder.bindings.find? (fun other => other.name = binding.name) with
    | none =>
        have absent := List.find?_eq_none.mp first binding isBinding
        simp at absent
    | some other =>
        have same : other.name = binding.name := by simpa using List.find?_some first
        rw [named.eq_of_table reachable (List.mem_of_find?_eq_some first) isBinding
          (congrArg Name.table same)]
  rw [columnsOfBinding, found]
  exact named.columnNames_eq assembled reachable isBinding

/-! ## One column -/

variable (apart : (builder.offers.map Offer.var).Nodup)

include apart

/-- The variable of a registered column leads back to it. -/
theorem FullyNamed.find?_columns {offer : Offer} (offered : offer ∈ builder.offers)
    {kept : MentionedColumn} (registered : builder.registered? offer.place = some kept) :
    ∃ inGroup, builder.columns.find? (fun column => column.var = offer.var) =
      some (mention offer.binding offer.column inGroup) := by
  have consistent := reachable.consistent
  have varOf : ∀ {other inGroup}, other ∈ builder.offers →
      (mention other.binding other.column inGroup).var = other.var :=
    fun offered => congrArg Variable.ofName (named.columnName_eq assembled reachable offered)
  obtain ⟨binding, declared, inGroup, bound, isDeclared, rfl⟩ :=
    consistent.exists_of_registered? registered
  obtain ⟨isBinding, isColumn⟩ := consistent.stands_of_mem_offers offered
  cases bound.symm.trans isBinding
  cases isDeclared.symm.trans isColumn
  obtain ⟨_, _, kept⟩ := consistent.registered?_eq_some_iff.mp registered
  cases found : builder.columns.find? (fun column => column.var = offer.var) with
  | none =>
      have absent := List.find?_eq_none.mp found _ (List.mem_of_getElem? kept)
      simp [varOf offered] at absent
  | some column =>
      have isVar : column.var = offer.var := by simpa using List.find?_some found
      obtain ⟨other, isOther, inGroup', rfl⟩ :=
        consistent.exists_offer_of_mem_columns (List.mem_of_find?_eq_some found)
      obtain rfl :=
        List.inj_on_of_nodup_map apart isOther offered ((varOf isOther).symm.trans isVar)
      exact ⟨inGroup', rfl⟩

/-- The names that a column may be shown under. -/
theorem FullyNamed.displayCandidates_eq {offer : Offer} (offered : offer ∈ builder.offers)
    {kept : MentionedColumn} (registered : builder.registered? offer.place = some kept) :
    builder.displayCandidates offer.var =
      [offer.column.shortName, offer.qualifiedName, offer.var.name] := by
  obtain ⟨inGroup, found⟩ := named.find?_columns assembled reachable apart offered registered
  have isColumn : builder.columnOf offer.var = some offer.name := by
    rw [columnOf, found]
    exact congrArg some (named.columnName_eq assembled reachable offered)
  obtain ⟨bound, declared⟩ := reachable.consistent.stands_of_mem_offers offered
  have isBinding := List.mem_of_getElem? bound
  obtain ⟨tableAlias, isAlias⟩ := Option.ne_none_iff_exists'.mp (named.aliases _ isBinding)
  obtain ⟨text, isText, nonempty⟩ := named.exists_text assembled reachable offered
  have aliasNonempty : tableAlias ≠ "" := by
    rintro rfl
    exact reachable.alias_ne_empty _ isBinding isAlias
  have short : offer.column.shortName = text := by simp [Column.shortName, Name.shortName, isText]
  have called : offer.binding.tableAlias = tableAlias := by
    simp [Binding.tableAlias, Name.shortName, reachable.bound.columnless _ isBinding, isAlias]
  have ownName : offer.name.column = some text := isText
  have ownAlias : offer.name.table = some tableAlias := isAlias
  have ownShort : offer.name.shortName = text := by simp [Name.shortName, ownName]
  rw [displayCandidates, isColumn, Offer.qualifiedName, short, called]
  simp only [ownShort, ownName, ownAlias, Name.spelled_of_table_column aliasNonempty nonempty]

omit assembled reachable named apart in
theorem addVar_of_chosen {v : Variable} {name : String}
    (chosen : builder.chooseDisplayName v none = .ok name) :
    ∃ projection : Projection, projection.var = v ∧ projection.displayName = name ∧
      projection.expression = none ∧
      projection.sqlType =
        (builder.columns.find? (fun column => column.var = v)).map MentionedColumn.sqlType ∧
      addVar v none builder = .ok () (builder.withProjection projection) := by
  simp only [addVar, Run.get_bind_apply, chosen, Run.build_liftExcept_ok, pure_bind]
  exact ⟨_, rfl, rfl, rfl, rfl, rfl⟩

/-- A registered column is shown under its first name that is free, unless all of
them are taken. -/
theorem FullyNamed.addVar_cases {offer : Offer} (offered : offer ∈ builder.offers)
    {kept : MentionedColumn} (registered : builder.registered? offer.place = some kept) :
    (∃ projection, addVar offer.var none builder = .ok () (builder.withProjection projection) ∧
        offer.ShownAs builder.displayNames projection) ∨
      addVar offer.var none builder =
        .error (.duplicateProjection offer.var.name) builder := by
  have chosen := chooseDisplayName_of_candidates
    (named.displayCandidates_eq assembled reachable apart offered registered)
  by_cases taken : offer.displayName builder.displayNames ∈ builder.displayNames
  · have refused : builder.chooseDisplayName offer.var none =
        .error (.duplicateProjection offer.var.name) := chosen.trans (if_pos taken)
    exact .inr (by simp [addVar, refused])
  · obtain ⟨projection, isVar, isName, plain, isType, shown⟩ :=
      addVar_of_chosen (chosen.trans (if_neg taken))
    obtain ⟨inGroup, found⟩ := named.find?_columns assembled reachable apart offered registered
    rw [found] at isType
    have free : projection.displayName ∉ builder.displayNames := by
      rw [isName]
      exact taken
    exact .inl ⟨projection, shown, isVar, plain, isType, isName, free⟩

omit assembled reachable named apart in
/-- Registering a column touches no binding and no result column. -/
theorem parts_of_addColumn {name : Name} {optional : Bool} {v : Variable} {next : Builder}
    (ran : addColumn name optional builder = .ok v next) :
    next.bindings = builder.bindings ∧ next.projections = builder.projections := by
  have path := (moves_addColumn name optional).of_ok ran
  clear ran
  induction path with
  | refl => exact ⟨rfl, rfl⟩
  | tail _ registers ih =>
      cases registers
      exact ih

omit assembled named apart in
theorem Reachable.addColumn {name : Name} {optional : Bool} {v : Variable} {next : Builder}
    (ran : Builder.addColumn name optional builder = .ok v next) : Reachable catalog next := by
  have leads := reachable.step (.addColumn name optional)
  rwa [Operation.run, Run.after_bind_pure, Run.after_of_ok ran] at leads

omit assembled reachable apart in
theorem FullyNamed.of_bindings_eq {next : Builder} (same : next.bindings = builder.bindings) :
    FullyNamed next :=
  ⟨same ▸ named.aliases, same ▸ named.columns⟩

/-- One round of a star: the column that is offered is shown, or it is to blame. -/
theorem FullyNamed.showColumn_cases {offer : Offer} (offered : offer ∈ builder.offers) :
    (∃ next projection,
        (Builder.addColumn offer.name false >>= fun v => addVar v none) builder = .ok () next ∧
        Reachable catalog next ∧ next.bindings = builder.bindings ∧
        next.projections = builder.projections ++ [projection] ∧
        offer.ShownAs (builder.projections.map Projection.displayName) projection) ∨
      ∃ error next,
        (Builder.addColumn offer.name false >>= fun v => addVar v none) builder =
          .error error next ∧
        offer.Blamed error := by
  have resolved : builder.resolveColumn offer.name = .ok offer.place := by
    have one := named.meant_name assembled reachable offered
    rcases named.resolveColumn_cases assembled reachable offer.name with
      ⟨none, _⟩ | ⟨other, isOther, resolved⟩ | ⟨several, _⟩
    · simp [one] at none
    · cases one.symm.trans isOther
      exact resolved
    · simp [one] at several
  rcases named.yields assembled reachable offered resolved false with
    ⟨kept, middle, added, registered, _⟩ | ⟨fault, failed, blames⟩
  · obtain ⟨sameBindings, sameProjections⟩ := parts_of_addColumn added
    have reaches := reachable.addColumn added
    have sameOffers : middle.offers = builder.offers := by rw [offers, sameBindings, offers]
    have names : middle.displayNames = builder.projections.map Projection.displayName := by
      rw [reaches.consistent.shown, sameProjections]
    rw [← sameOffers] at offered apart
    rcases (named.of_bindings_eq sameBindings).addVar_cases assembled reaches apart offered
      registered with ⟨projection, shown, isShown⟩ | refused
    · have leads := reaches.step (.addVar offer.var none)
      rw [Operation.run, Run.after_of_ok shown] at leads
      rw [names] at isShown
      exact .inl ⟨_, projection, (Run.bind_of_ok added _).trans shown, leads, sameBindings,
        congrArg (· ++ [projection]) sameProjections, isShown⟩
    · exact .inr ⟨_, middle, (Run.bind_of_ok added _).trans refused, .inr rfl⟩
  · exact .inr ⟨_, builder, Run.bind_of_error failed _, .inl ⟨fault, rfl, blames⟩⟩

/-! ## All columns -/

omit assembled reachable named apart in
theorem addEach_cons (name : Name) (rest : List Name) :
    addEach (name :: rest) =
      (Builder.addColumn name false >>= fun v => addVar v none) >>= fun _ => addEach rest := by
  rw [bind_assoc]
  rfl

omit apart in
/-- Columns that are offered are shown one after the other, unless one of them is to
blame. -/
theorem FullyNamed.shows_addEach {columns : List Offer}
    (apart : (builder.offers.map Offer.var).Nodup) (offered : columns ⊆ builder.offers) :
    Shows (addEach (columns.map Offer.name)) builder columns := by
  -- Every round starts in a reachable builder with the same bindings.
  induction columns generalizing builder with
  | nil => exact .inl ⟨builder, [], rfl, (List.append_nil _).symm, .nil _⟩
  | cons offer rest ih =>
      obtain ⟨isOffered, restOffered⟩ := List.cons_subset.mp offered
      rw [List.map_cons, addEach_cons, Shows]
      rcases named.showColumn_cases assembled reachable apart isOffered with
        ⟨middle, projection, shown, reaches, sameBindings, extended, first⟩ |
        ⟨error, next, failed, blamed⟩
      · have sameOffers : middle.offers = builder.offers := by rw [offers, sameBindings, offers]
        rw [← sameOffers] at apart restOffered
        rw [Run.bind_of_ok shown]
        rcases ih reaches (named.of_bindings_eq sameBindings) apart restOffered with
          ⟨next, others, ran, grown, expands⟩ | ⟨other, isOther, error, next, failed, blamed⟩
        · refine .inl ⟨next, projection :: others, ran, ?_, .cons first ?_⟩
          · rw [grown, extended, List.append_assoc, List.singleton_append]
          · rwa [extended, List.map_append] at expands
        · exact .inr ⟨other, List.mem_cons_of_mem _ isOther, error, next, failed, blamed⟩
      · exact .inr ⟨offer, List.mem_cons_self, error, next, Run.bind_of_error failed _, blamed⟩

/-! ## Stars -/

/-- The bindings that a pattern covers. -/
def coveredBindings (builder : Builder) (pattern : Name) : List Binding :=
  builder.bindings.filter fun binding => pattern.covers binding.name

omit apart in
/-- A star without a pattern goes through all columns. -/
theorem FullyNamed.addAllColumns_none :
    addAllColumns none builder = addEach (builder.offers.map Offer.name) builder := by
  have columns : (builder.bindings.map Binding.name).flatMap builder.columnsOfBinding =
      builder.offers.map Offer.name := by
    rw [List.flatMap_map, offers, List.map_flatMap]
    exact List.flatMap_congr fun binding isBinding =>
      named.columnsOfBinding_eq assembled reachable isBinding
  simp only [addAllColumns, Run.get_bind_apply, starTargets, Run.build_liftExcept_ok, pure_bind,
    columns]

omit apart in
/-- What becomes of a star depends on the number of bindings that its pattern
covers. -/
theorem FullyNamed.addAllColumns_some_cases (pattern : Name) :
    (builder.coveredBindings pattern = [] ∧
        addAllColumns (some pattern) builder = .error (.unknownTable pattern) builder) ∨
      (∃ binding, builder.coveredBindings pattern = [binding] ∧
        addAllColumns (some pattern) builder =
          addEach ((offersOf binding).map Offer.name) builder) ∨
      (1 < (builder.coveredBindings pattern).length ∧
        addAllColumns (some pattern) builder =
          .error (.ambiguous ⟨pattern, (builder.coveredBindings pattern).length⟩) builder) := by
  have names : (builder.bindings.map Binding.name).filter pattern.covers =
      (builder.coveredBindings pattern).map Binding.name := List.filter_map
  cases covered : builder.coveredBindings pattern with
  | nil =>
      rw [covered] at names
      exact .inl ⟨rfl, by simp [addAllColumns, starTargets, names]⟩
  | cons binding rest =>
      rw [covered] at names
      cases rest with
      | nil =>
          have isBinding : binding ∈ builder.bindings :=
            List.mem_of_mem_filter (covered ▸ List.mem_cons_self)
          refine .inr (.inl ⟨binding, rfl, ?_⟩)
          rw [← named.columnsOfBinding_eq assembled reachable isBinding]
          simp [addAllColumns, starTargets, names]
      | cons second rest =>
          refine .inr (.inr ⟨by simp, ?_⟩)
          simp [addAllColumns, starTargets, names]

end Assembled

/-- A star without a pattern shows all columns of all bindings, and one with a
pattern those of the one binding that it covers: each column once, in order, with
its own variable and under its first name that is free.  A pattern is unknown
exactly when it covers no binding, and ambiguous, with their number, exactly when
it covers several.  The display names differ afterwards in any case. -/
theorem addAllColumns_expands {definition : CatalogDefinition} {catalog : Catalog}
    (assembled : definition.assemble = .ok catalog) {builder : Builder}
    (reachable : Reachable catalog builder) (named : FullyNamed builder)
    (apart : (builder.offers.map Offer.var).Nodup) :
    Shows (addAllColumns none) builder builder.offers ∧
    (∀ pattern binding, builder.coveredBindings pattern = [binding] →
      Shows (addAllColumns (some pattern)) builder (offersOf binding)) ∧
    (∀ pattern name,
      (∃ next, addAllColumns (some pattern) builder = .error (.unknownTable name) next) ↔
        (builder.coveredBindings pattern).length = 0 ∧ name = pattern) ∧
    (∀ pattern ambiguity,
      (∃ next, addAllColumns (some pattern) builder = .error (.ambiguous ambiguity) next) ↔
        1 < (builder.coveredBindings pattern).length ∧
          ambiguity = ⟨pattern, (builder.coveredBindings pattern).length⟩) ∧
    ∀ pattern, ((Run.after (addAllColumns pattern) builder).projections.map
      Projection.displayName).Nodup := by
  have showsOne : ∀ pattern binding, builder.coveredBindings pattern = [binding] →
      Shows (addAllColumns (some pattern)) builder (offersOf binding) := by
    intro pattern binding covered
    have isBinding : binding ∈ builder.bindings :=
      List.mem_of_mem_filter (covered ▸ List.mem_cons_self)
    rcases named.addAllColumns_some_cases assembled reachable pattern with
      ⟨none, _⟩ | ⟨other, isOther, ran⟩ | ⟨several, _⟩
    · simp [covered] at none
    · cases covered.symm.trans isOther
      rw [Shows, ran]
      exact named.shows_addEach assembled reachable apart
        fun offer ofBinding => List.mem_flatMap.mpr ⟨binding, isBinding, ofBinding⟩
    · simp [covered] at several
  refine ⟨?_, showsOne, ?_, ?_, ?_⟩
  · rw [Shows, named.addAllColumns_none assembled reachable]
    exact named.shows_addEach assembled reachable apart (List.Subset.refl _)
  · intro pattern name
    rcases named.addAllColumns_some_cases assembled reachable pattern with
      ⟨none, failed⟩ | ⟨binding, covered, _⟩ | ⟨several, failed⟩
    · simp [failed, none, eq_comm]
    · have shows := showsOne pattern binding covered
      exact iff_of_false (shows.not_error (by simp) (by simp)) (by simp [covered])
    · have some : (builder.coveredBindings pattern).length ≠ 0 := by omega
      simp [failed, some]
  · intro pattern ambiguity
    rcases named.addAllColumns_some_cases assembled reachable pattern with
      ⟨none, failed⟩ | ⟨binding, covered, _⟩ | ⟨several, failed⟩
    · simp [failed, none]
    · have shows := showsOne pattern binding covered
      exact iff_of_false (shows.not_error (by simp) (by simp)) (by simp [covered])
    · simp [failed, several, eq_comm]
  · intro pattern
    have consistent := (reachable.step (.addAllColumns pattern)).consistent
    have distinct := consistent.distinctNames
    rwa [consistent.shown] at distinct

/-- Of two columns of one name the second is shown with its alias.  A pattern for both
bindings is ambiguous, and one for neither is unknown. -/
theorem addAllColumns_expands_boundTwice :
    ∃ catalog, oneTable.assemble = .ok catalog ∧
      (∃ next, addAllColumns none (afterAll (boundTwice "a" "b") { catalog }) = .ok () next ∧
        next.projections.map Projection.displayName = ["x", "b·x"] ∧
        Expands [] (afterAll (boundTwice "a" "b") { catalog }).offers next.projections) ∧
      (∃ next, addAllColumns (some { schema := some "s" })
        (afterAll (boundTwice "a" "b") { catalog }) =
          .error (.ambiguous ⟨{ schema := some "s" }, 2⟩) next) ∧
      ∃ next, addAllColumns (some { table := some "c" })
        (afterAll (boundTwice "a" "b") { catalog }) =
          .error (.unknownTable { table := some "c" }) next := by
  have counted : ∀ catalog, oneTable.assemble = .ok catalog →
      FullyNamed (afterAll (boundTwice "a" "b") { catalog }) ∧
        ((afterAll (boundTwice "a" "b") { catalog }).offers.map Offer.var).Nodup ∧
        ((afterAll (boundTwice "a" "b") { catalog }).coveredBindings
          { schema := some "s" }).length = 2 ∧
        ((afterAll (boundTwice "a" "b") { catalog }).coveredBindings
          { table := some "c" }).length = 0 := by
    rintro _ ⟨⟩
    decide +kernel
  have ran : ∀ catalog, oneTable.assemble = .ok catalog → ∃ next,
      addAllColumns none (afterAll (boundTwice "a" "b") { catalog }) = .ok () next ∧
        next.projections.map Projection.displayName = ["x", "b·x"] ∧
        (afterAll (boundTwice "a" "b") { catalog }).projections = [] := by
    rintro _ ⟨⟩
    exact ⟨_, rfl, rfl, rfl⟩
  obtain ⟨catalog, assembled⟩ : ∃ catalog, oneTable.assemble = .ok catalog := ⟨_, rfl⟩
  obtain ⟨named, apart, two, zero⟩ := counted catalog assembled
  obtain ⟨next, ran, names, unshown⟩ := ran catalog assembled
  have reachable := (@Reachable.empty catalog none false).afterAll (boundTwice "a" "b")
  obtain ⟨shows, _, unknown, ambiguous, _⟩ :=
    addAllColumns_expands assembled reachable named apart
  refine ⟨catalog, assembled, ⟨next, ran, names, ?_⟩,
    (ambiguous _ _).mpr ⟨by omega, by rw [two]⟩, (unknown _ _).mpr ⟨zero, rfl⟩⟩
  rcases shows with ⟨_, shown, ran', grown, expands⟩ | ⟨_, _, _, _, failed, _⟩
  · cases ran.symm.trans ran'
    rw [unshown] at grown expands
    rw [grown]
    exact expands
  · cases ran.symm.trans failed

end Builder

end TripleTables

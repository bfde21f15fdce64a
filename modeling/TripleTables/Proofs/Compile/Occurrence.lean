import TripleTables.Proofs.Compile.WellScoped

/-!
# Variables of the pattern

A triple of a pattern comes from a template: an own template of a bound table,
filled with the row, or the template of a registered column, filled with the row
and the column's variable.  So a variable occurs in the triples exactly when it
is that of a registered column, that of a row which some template speaks of, or
one that some template writes by itself.
-/

namespace TripleTables

open TripleTables.Graph

/-- A template with what it is filled with. -/
structure Use where
  subject : Variable
  template : Template
  value : Option Term

/-- The template gives the triple. -/
def Use.Gives (use : Use) (triple : Triple) : Prop :=
  use.template.instantiate use.subject use.value = .ok (some triple)

/-- The variable that the template writes at a slot by itself. -/
def Slot.written? : Slot → Option Variable
  | .fixed term => term.asVariable?
  | _ => none

theorem Slot.written?_eq_some_iff {slot : Slot} {v : Variable} :
    slot.written? = some v ↔ slot = .fixed (.variable v) := by
  cases slot <;> simp [Slot.written?, Term.asVariable?_eq_some_iff]

/-- The own templates of the table, for a row of the binding. -/
def Binding.uses (binding : Binding) : List Use :=
  (binding.table.readTemplates.toOption.getD []).map fun template =>
    ⟨binding.subject, template, binding.table.object?⟩

namespace Builder

/-- The template of the column. -/
def Registration.use? (registration : Registration) : Option Use :=
  registration.column.readTemplate.toOption.map fun template =>
    ⟨registration.binding.subject, template,
      some (.variable (registration.binding.columnVariable registration.column))⟩

/-- The templates that have been filled. -/
def uses (builder : Builder) : List Use :=
  builder.bindings.flatMap Binding.uses ++ builder.registrations.filterMap Registration.use?

/-- The variables of the rows that some template speaks of. -/
def rowVars (builder : Builder) : List Variable :=
  (builder.uses.filter fun use => use.template.slots.contains .subject).map Use.subject

/-- The variables that some template writes by itself. -/
def writtenVars (builder : Builder) : List Variable :=
  builder.uses.flatMap fun use => use.template.slots.filterMap Slot.written?

variable {builder : Builder} {v : Variable}

theorem mem_rowVars_iff :
    v ∈ builder.rowVars ↔
      ∃ use ∈ builder.uses, .subject ∈ use.template.slots ∧ use.subject = v := by
  simp [rowVars, and_assoc]

theorem mem_writtenVars_iff :
    v ∈ builder.writtenVars ↔
      ∃ use ∈ builder.uses, .fixed (.variable v) ∈ use.template.slots := by
  simp [writtenVars, Slot.written?_eq_some_iff]

/-! ## Templates and triples -/

/-- The own triples of a binding are given by its own templates, and each of
them gives one. -/
theorem gives_of_ownTriples {binding : Binding}
    (filled : binding.table.triples binding.subject = .ok binding.ownTriples) :
    (∀ use ∈ binding.uses, ∃ triple ∈ binding.ownTriples, use.Gives triple) ∧
      ∀ triple ∈ binding.ownTriples, ∃ use ∈ binding.uses, use.Gives triple := by
  obtain ⟨templates, read, each⟩ := Table.filledFrom_of_triples filled
  have uses : binding.uses = templates.map fun template =>
      ⟨binding.subject, template, binding.table.object?⟩ := by
    simp [Binding.uses, read, Except.toOption]
  rw [uses]
  generalize binding.ownTriples = triples at each
  clear uses read filled
  induction each with
  | nil => simp
  | @cons template triple _ _ first _ ih =>
      obtain ⟨gives, given⟩ := ih
      constructor
      · intro use member
        rcases List.mem_cons.mp member with rfl | later
        · exact ⟨triple, List.mem_cons_self, first⟩
        · obtain ⟨other, inRest, giving⟩ := gives use later
          exact ⟨other, List.mem_cons_of_mem _ inRest, giving⟩
      · intro other member
        rcases List.mem_cons.mp member with rfl | later
        · exact ⟨_, List.mem_cons_self, first⟩
        · obtain ⟨use, inRest, giving⟩ := given other later
          exact ⟨use, List.mem_cons_of_mem _ inRest, giving⟩

/-- The triple of a registered column is given by the template of the column. -/
theorem Consistent.exists_use (consistent : Consistent builder) {registration : Registration}
    (registered : registration ∈ builder.registrations) :
    ∃ use, registration.use? = some use ∧ use.Gives registration.triple := by
  obtain ⟨_, template, _, _, _, read, filled, _⟩ := consistent.stands registered
  have isUse : registration.use? = some ⟨registration.binding.subject, template,
      some (.variable (registration.binding.columnVariable registration.column))⟩ := by
    simp [Registration.use?, read, Except.toOption]
  exact ⟨_, isUse, filled⟩

/-- Every template that is in use gives a triple of the blocks. -/
theorem Placed.exists_gives (placed : Placed builder) (consistent : Consistent builder)
    {use : Use} (used : use ∈ builder.uses) :
    ∃ triple ∈ builder.blocks.flatMap Block.allTriples, use.Gives triple := by
  rcases List.mem_append.mp used with own | ofColumn
  · obtain ⟨binding, bound, isOwn⟩ := List.mem_flatMap.mp own
    obtain ⟨triple, inOwn, gives⟩ := (gives_of_ownTriples (placed.own binding bound)).1 use isOwn
    refine ⟨triple, placed.once.mem_iff.mpr (List.mem_append_left _ ?_), gives⟩
    exact List.mem_flatMap.mpr ⟨binding, bound, inOwn⟩
  · obtain ⟨registration, registered, isUse⟩ := List.mem_filterMap.mp ofColumn
    obtain ⟨other, isOther, gives⟩ := consistent.exists_use registered
    rw [isUse] at isOther
    cases isOther
    refine ⟨registration.triple, placed.once.mem_iff.mpr (List.mem_append_right _ ?_), gives⟩
    exact List.mem_map_of_mem registered

/-- Every triple of the blocks is given by a template that is in use. -/
theorem Placed.exists_use (placed : Placed builder) (consistent : Consistent builder)
    {triple : Triple} (stands : triple ∈ builder.blocks.flatMap Block.allTriples) :
    ∃ use ∈ builder.uses, use.Gives triple := by
  rcases List.mem_append.mp (placed.once.mem_iff.mp stands) with own | ofColumn
  · obtain ⟨binding, bound, inOwn⟩ := List.mem_flatMap.mp own
    obtain ⟨use, isOwn, gives⟩ := (gives_of_ownTriples (placed.own binding bound)).2 triple inOwn
    exact ⟨use, List.mem_append_left _ (List.mem_flatMap.mpr ⟨binding, bound, isOwn⟩), gives⟩
  · obtain ⟨registration, registered, rfl⟩ := List.mem_map.mp ofColumn
    obtain ⟨use, isUse, gives⟩ := consistent.exists_use registered
    exact ⟨use, List.mem_append_right _
      (List.mem_filterMap.mpr ⟨registration, registered, isUse⟩), gives⟩

/-- A variable that is filled in as a value is that of a registered column. -/
theorem Consistent.mem_columnVars_of_value (consistent : Consistent builder) {use : Use}
    (used : use ∈ builder.uses) (isValue : use.value = some (.variable v)) :
    v ∈ builder.columnVars := by
  rcases List.mem_append.mp used with own | ofColumn
  · obtain ⟨binding, _, isOwn⟩ := List.mem_flatMap.mp own
    obtain ⟨template, _, rfl⟩ := List.mem_map.mp isOwn
    obtain ⟨iri, _, isIri⟩ := Option.map_eq_some_iff.mp isValue
    cases isIri
  · obtain ⟨registration, registered, isUse⟩ := List.mem_filterMap.mp ofColumn
    obtain ⟨template, _, rfl⟩ := Option.map_eq_some_iff.mp isUse
    cases isValue
    exact consistent.mem_columnVars_iff.mpr ⟨registration, registered, rfl⟩

/-- A variable occurs in the triples exactly when it is that of a column, of a
row, or one that a template writes. -/
theorem Placed.mem_vars_iff (placed : Placed builder) (consistent : Consistent builder) :
    v ∈ (builder.blocks.flatMap Block.allTriples).flatMap Triple.vars ↔
      v ∈ builder.columnVars ∨ v ∈ builder.rowVars ∨ v ∈ builder.writtenVars := by
  rw [List.mem_flatMap, mem_rowVars_iff, mem_writtenVars_iff]
  constructor
  · rintro ⟨triple, stands, occurs⟩
    obtain ⟨use, used, gives⟩ := placed.exists_use consistent stands
    obtain ⟨slot, isSlot, fills⟩ := (Template.mem_vars_iff gives).mp occurs
    cases slot with
    | subject =>
        cases fills
        exact .inr (.inl ⟨use, used, isSlot, rfl⟩)
    | object =>
        refine .inl (consistent.mem_columnVars_of_value used ?_)
        cases isValue : use.value with
        | none => simp [Template.fillSlot, isValue] at fills
        | some term =>
            simp only [Template.fillSlot, isValue, Except.ok.injEq] at fills
            rw [fills]
    | fixed term =>
        cases fills
        exact .inr (.inr ⟨use, used, isSlot⟩)
  · rintro (known | ⟨use, used, isSlot, rfl⟩ | ⟨use, used, isSlot⟩)
    · exact placed.exists_triple consistent known
    · obtain ⟨triple, stands, gives⟩ := placed.exists_gives consistent used
      exact ⟨triple, stands, (Template.mem_vars_iff gives).mpr ⟨.subject, isSlot, rfl⟩⟩
    · obtain ⟨triple, stands, gives⟩ := placed.exists_gives consistent used
      exact ⟨triple, stands, (Template.mem_vars_iff gives).mpr ⟨_, isSlot, rfl⟩⟩

end Builder

end TripleTables

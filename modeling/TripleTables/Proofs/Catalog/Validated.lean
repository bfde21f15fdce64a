import TripleTables.Proofs.Builder.Layout
import TripleTables.Proofs.Catalog.Assembled

/-!
# Validated catalogs

A catalog is validated by filling every template once, with a placeholder for
the row and for the value.  A query fills the same templates with other
variables.  `Template.Sound` says, without filling anything, which templates can
be filled at all; it does not depend on what fills the holes.  Therefore the
templates of a validated catalog can be filled for every row and every column.
-/

namespace TripleTables

open TripleTables.Graph
open TripleTables.Run (exists_bind_eq_ok_iff exists_map_eq_ok_iff mapError_eq_ok_iff
  eq_ok_unit_iff forM_eq_ok_iff exists_mapM_eq_ok_iff)

/-! ## Templates that can be filled -/

/-- The term may be the subject of a triple. -/
def Graph.Term.mayBeSubject : Term → Bool
  | .literal _ => false
  | _ => true

/-- The term may be the predicate of a triple. -/
def Graph.Term.mayBePredicate : Term → Bool
  | .literal _ | .blankNode _ => false
  | _ => true

theorem Template.exists_checkTriple_iff {triple : Triple} :
    (∃ checked, checkTriple triple = .ok checked) ↔
      triple.subject.mayBeSubject = true ∧ triple.predicate.mayBePredicate = true := by
  obtain ⟨subject, predicate, object⟩ := triple
  cases subject <;> cases predicate <;>
    simp [checkTriple, Term.mayBeSubject, Term.mayBePredicate]

/-- The slot can be filled, and a term that stands in it passes the test.  The
value hole needs a value. -/
def Slot.Passes (test : Term → Bool) (hasValue : Bool) : Slot → Prop
  | .subject => True
  | .object => hasValue = true
  | .fixed term => test term = true

/-- The template can be filled, with a value or without one. -/
def Template.Sound (hasValue : Bool) (template : Template) : Prop :=
  match template.body with
  | .comment => True
  | .triple first second third =>
      first.Passes Term.mayBeSubject hasValue ∧
        second.Passes Term.mayBePredicate hasValue ∧ third.Passes (fun _ => true) hasValue

/-- A slot gives a term that passes a test exactly when it says so itself, if
what fills the holes passes. -/
theorem Template.exists_fillSlot_iff (test : Term → Bool) (subject : Variable) (slot : Slot)
    {value : Option Term} (row : test (.variable subject) = true)
    (filling : ∀ term ∈ value, test term = true) :
    (∃ term, fillSlot subject value slot = .ok term ∧ test term = true) ↔
      slot.Passes test value.isSome := by
  cases slot with
  | subject => simpa [fillSlot, Slot.Passes] using row
  | object =>
      cases value with
      | none => simp [fillSlot, Slot.Passes]
      | some term => simpa [fillSlot, Slot.Passes] using filling
  | fixed term => simp [fillSlot, Slot.Passes]

/-- Whether a template can be filled depends on neither the row nor the value,
as long as the value may stand anywhere. -/
theorem Template.exists_instantiate_iff (template : Template) (subject : Variable)
    {value : Option Term}
    (anywhere : ∀ term ∈ value, term.mayBeSubject = true ∧ term.mayBePredicate = true) :
    (∃ result, template.instantiate subject value = .ok result) ↔
      template.Sound value.isSome := by
  simp only [Template.instantiate, mapError_eq_ok_iff, Template.Sound]
  cases template.body with
  | comment => simp [fillBody]
  | triple first second third =>
      have firstFilled := exists_fillSlot_iff Term.mayBeSubject subject first rfl
        fun term given => (anywhere term given).1
      have secondFilled := exists_fillSlot_iff Term.mayBePredicate subject second rfl
        fun term given => (anywhere term given).2
      have thirdFilled := exists_fillSlot_iff (fun _ => true) subject third rfl
        fun term (_ : term ∈ value) => rfl
      simp only [fillBody, exists_bind_eq_ok_iff, exists_map_eq_ok_iff, exists_checkTriple_iff,
        ← firstFilled, ← secondFilled, ← thirdFilled]
      constructor
      · rintro ⟨s, hs, p, hp, o, ho, subjectPasses, predicatePasses⟩
        exact ⟨⟨s, hs, subjectPasses⟩, ⟨p, hp, predicatePasses⟩, ⟨o, ho, trivial⟩⟩
      · rintro ⟨⟨s, hs, subjectPasses⟩, ⟨p, hp, predicatePasses⟩, ⟨o, ho, _⟩⟩
        exact ⟨s, hs, p, hp, o, ho, subjectPasses, predicatePasses⟩

theorem Template.exists_instantiate_variable_iff (template : Template) (subject v : Variable) :
    (∃ result, template.instantiate subject (some (.variable v)) = .ok result) ↔
      template.Sound true := by
  apply template.exists_instantiate_iff subject
  rintro _ ⟨⟩
  exact ⟨rfl, rfl⟩

/-! ## Tables that can be filled -/

/-- The column has a template, which has a hole for the value and can be
filled with one. -/
def Column.Fillable (column : Column) : Prop :=
  ∃ template, column.readTemplate = .ok template ∧ template.Sound true

/-- The table's own templates can be filled with what the table has. -/
def Table.Fillable (table : Table) : Prop :=
  ∃ templates, table.readTemplates = .ok templates ∧
    ∀ template ∈ templates, template.Sound table.iri.isSome

/-- The own triples of a table exist for every row, or for none. -/
theorem Table.exists_triples_iff (table : Table) (subject : Variable) :
    (∃ triples, table.triples subject = .ok triples) ↔ table.Fillable := by
  have anywhere : ∀ term ∈ table.object?, term.mayBeSubject = true ∧
      term.mayBePredicate = true := by
    intro term given
    obtain ⟨iri, _, rfl⟩ := Option.map_eq_some_iff.mp given
    exact ⟨rfl, rfl⟩
  have sameHole : table.object?.isSome = table.iri.isSome := Option.isSome_map
  simp only [Table.triples, exists_bind_eq_ok_iff]
  constructor
  · rintro ⟨templates, read, filled, made, _⟩
    refine ⟨templates, read, fun template member => ?_⟩
    rw [← sameHole]
    exact (template.exists_instantiate_iff subject anywhere).mp
      (exists_mapM_eq_ok_iff.mp ⟨filled, made⟩ template member)
  · rintro ⟨templates, read, sound⟩
    obtain ⟨filled, made⟩ := exists_mapM_eq_ok_iff.mpr fun template member =>
      (Template.exists_instantiate_iff template subject anywhere).mpr
        (sameHole ▸ sound template member)
    exact ⟨templates, read, filled, made, _, rfl⟩

/-- A template with a hole for a value is no comment. -/
theorem Column.isComment_of_readTemplate {column : Column} {template : Template}
    (read : column.readTemplate = .ok template) : template.isComment = false := by
  have holed := Column.usesObject_of_readTemplate read
  unfold Template.usesObject at holed
  unfold Template.isComment
  cases body : template.body with
  | comment => simp [body] at holed
  | triple first second third => rfl

/-- The triple of a column exists for every row and every variable, or for
none. -/
theorem Builder.exists_columnTriple_iff {binding : Binding} {column : Column} {v : Variable} :
    (∃ triple, columnTriple binding column v = .ok triple) ↔ column.Fillable := by
  constructor
  · rintro ⟨triple, filled⟩
    obtain ⟨template, read, made⟩ := Builder.instantiate_of_columnTriple filled
    exact ⟨template, read, (template.exists_instantiate_variable_iff _ v).mp ⟨_, made⟩⟩
  · rintro ⟨template, read, sound⟩
    obtain ⟨result, made⟩ :=
      (template.exists_instantiate_variable_iff binding.subject v).mpr sound
    obtain ⟨triple, rfl⟩ :=
      Template.exists_of_instantiate (Column.isComment_of_readTemplate read) made
    exact ⟨triple, by simp [columnTriple, read, made, bind, Except.bind, pure, Except.pure]⟩

namespace Catalog

theorem checkColumn_eq_ok_iff {column : Column} :
    checkColumn column = .ok () ↔ (column.template.isSome = true → column.Fillable) := by
  by_cases has : column.template.isSome = true
  · rw [checkColumn, if_pos has, eq_ok_unit_iff]
    simp only [exists_bind_eq_ok_iff, has, forall_const, Column.Fillable]
    constructor
    · rintro ⟨template, read, result, filled, _⟩
      exact ⟨template, read, (template.exists_instantiate_variable_iff _ _).mp ⟨result, filled⟩⟩
    · rintro ⟨template, read, sound⟩
      obtain ⟨result, filled⟩ :=
        (template.exists_instantiate_variable_iff placeholder placeholder).mpr sound
      exact ⟨template, read, result, filled, (), rfl⟩
  · simp [checkColumn, has]

theorem checkTable_eq_ok_iff {table : Table} :
    checkTable table = .ok () ↔
      table.Fillable ∧
        ∀ column ∈ table.columns, column.template.isSome = true → column.Fillable := by
  rw [checkTable, eq_ok_unit_iff, exists_bind_eq_ok_iff,
    ← table.exists_triples_iff placeholder]
  simp only [← eq_ok_unit_iff, forM_eq_ok_iff, checkColumn_eq_ok_iff, ← exists_and_right]

/-- A catalog is valid exactly when every template in it can be filled. -/
theorem validate_eq_ok_iff {catalog : Catalog} :
    catalog.validate = .ok () ↔ ∀ table ∈ catalog.tables, table.Fillable ∧
      ∀ column ∈ table.columns, column.template.isSome = true → column.Fillable := by
  simp only [validate, forM_eq_ok_iff, checkTable_eq_ok_iff]

end Catalog

end TripleTables

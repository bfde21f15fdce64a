import TripleTables.Proofs.Run
import TripleTables.Sparql.Query

/-!
# Queries that can be written

Writing a query fails for three reasons only: it shows nothing, a result column
takes the name of a variable of the pattern, or an optional group holds nothing.
Each error says which of them it was.
-/

namespace TripleTables.Sparql

open TripleTables.Graph

/-- A result column is renamed to a variable that some column has. -/
def Clashes (columns : List MentionedColumn) (projection : Projection) : Prop :=
  isRenamed projection = true ∧
    Variable.ofText projection.displayName ∈ columns.map MentionedColumn.var

instance (columns : List MentionedColumn) (projection : Projection) :
    Decidable (Clashes columns projection) :=
  inferInstanceAs (Decidable (_ ∧ _))

theorem checkDisplayName_eq_error_iff {columns : List MentionedColumn} {projection : Projection}
    {error : RenderError} :
    checkDisplayName columns projection = .error error ↔
      Clashes columns projection ∧ error = .invalidDisplayName projection.displayName := by
  have known : (isRenamed projection &&
      columns.any (fun column => column.var = Variable.ofText projection.displayName)) = true ↔
        Clashes columns projection := by
    simp [Clashes]
  rw [checkDisplayName, ← known]
  split
  · rename_i clashes
    simp only [clashes, true_and, Except.error.injEq]
    exact eq_comm
  · rename_i free
    simp [free]

theorem not_clashes_of_checkDisplayName {columns : List MentionedColumn} {projection : Projection}
    (passed : checkDisplayName columns projection = .ok ()) : ¬ Clashes columns projection := by
  intro clashes
  have failed := checkDisplayName_eq_error_iff.mpr ⟨clashes, rfl⟩
  rw [passed] at failed
  cases failed

/-- Only an optional group that holds nothing cannot be written. -/
theorem elementLines_eq_error {depth : Nat} {element : Element} {error : RenderError}
    (failed : elementLines depth element = .error error) :
    error = .emptyOptionalGroup ∧
      ∃ group, element = .block (.optional group) ∧ group.isEmpty = true := by
  cases element with
  | block block =>
      cases block with
      | required triples => cases failed
      | optional group =>
          simp only [elementLines, groupLines] at failed
          split at failed
          · rename_i empty
            cases failed
            exact ⟨rfl, group, rfl, empty⟩
          · contradiction
  | bind expr v => cases failed
  | filter condition => cases failed

theorem patternLines_eq_error {query : Query} {error : RenderError}
    (failed : patternLines query = .error error) :
    error = .emptyOptionalGroup ∧
      ∃ group, .block (.optional group) ∈ query.elements ∧ group.isEmpty = true := by
  have inside : ∀ {depth}, elementsLines depth query.elements = .error error →
      error = .emptyOptionalGroup ∧
        ∃ group, .block (.optional group) ∈ query.elements ∧ group.isEmpty = true := by
    intro depth failed
    rcases Run.bind_eq_error_iff.mp failed with unwritten | ⟨_, _, done⟩
    · obtain ⟨element, member, there⟩ := Run.exists_of_mapM_eq_error unwritten
      obtain ⟨isEmptyGroup, group, rfl, empty⟩ := elementLines_eq_error there
      exact ⟨isEmptyGroup, group, member, empty⟩
    · cases done
  unfold patternLines at failed
  split at failed
  · rcases Run.bind_eq_error_iff.mp failed with unwritten | ⟨_, _, done⟩
    · exact inside unwritten
    · cases done
  · exact inside failed

/-- The three reasons why a query cannot be written. -/
theorem render_eq_error {query : Query} {error : RenderError}
    (failed : render query = .error error) :
    (error = .emptyProjection ∧ query.projections = []) ∨
      (∃ projection ∈ query.projections, Clashes query.columns projection ∧
        error = .invalidDisplayName projection.displayName) ∨
      (error = .emptyOptionalGroup ∧
        ∃ group, .block (.optional group) ∈ query.elements ∧ group.isEmpty = true) := by
  have unwritten : queryChars query = .error error := by
    cases written : queryChars query with
    | error other => simpa [render, written] using failed
    | ok chars => simp [render, written] at failed
  unfold queryChars at unwritten
  cases shown : query.projections.isEmpty with
  | true =>
      rw [shown] at unwritten
      cases unwritten
      exact .inl ⟨rfl, List.isEmpty_iff.mp shown⟩
  | false =>
      rw [shown] at unwritten
      rcases Run.bind_eq_error_iff.mp unwritten with clash | ⟨_, _, rest⟩
      · obtain ⟨projection, member, there⟩ := Run.exists_of_forM_eq_error clash
        exact .inr (.inl ⟨projection, member, checkDisplayName_eq_error_iff.mp there⟩)
      · rcases Run.bind_eq_error_iff.mp rest with void | ⟨_, _, done⟩
        · exact .inr (.inr (patternLines_eq_error void))
        · cases done

/-- A query that is written renames no result column to a variable of a
column. -/
theorem not_clashes_of_render {query : Query} {text : String}
    (written : render query = .ok text) :
    ∀ projection ∈ query.projections, ¬ Clashes query.columns projection := by
  obtain ⟨chars, done⟩ := Run.exists_map_eq_ok_iff.mp ⟨text, written⟩
  unfold queryChars at done
  cases shown : query.projections.isEmpty with
  | true => simp [shown, throw, throwThe, MonadExceptOf.throw, bind, Except.bind] at done
  | false =>
      rw [shown] at done
      obtain ⟨_, passed, _⟩ := Run.exists_bind_eq_ok_iff.mp ⟨chars, done⟩
      intro projection member
      exact not_clashes_of_checkDisplayName (Run.forM_eq_ok_iff.mp passed projection member)

end TripleTables.Sparql

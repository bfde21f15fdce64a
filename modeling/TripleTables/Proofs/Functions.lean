import TripleTables.Proofs.Graph.Blanking
import TripleTables.Proofs.Meaning

/-!
# Tables of functions

Whoever registers a function may give it a transform, which is called on the compiled
arguments of every call and hands on whatever it likes.  What a property of compiled
queries needs of the transforms is said of the table: that they act on values (`ActsBy`),
that they bring nothing in (`BringsIn`) or that they do not look at texts (`TextBlind`).

The standard functions have two kinds of transforms between them, which act on values,
bring in constants only and look at no text.
-/

namespace TripleTables

open TripleTables.Graph

namespace FunctionTable

variable {functions : FunctionTable} {name : String} {entry : FunctionEntry}
  {transform : List Expr → List Expr}

/-! ## Entries -/

theorem mem_of_mem_put {key : String} {entry : FunctionEntry} {pair : String × FunctionEntry}
    {entries : List (String × FunctionEntry)} (member : pair ∈ put key entry entries) :
    pair = (key, entry) ∨ pair ∈ entries := by
  induction entries with
  | nil => exact .inl (List.mem_singleton.mp member)
  | cons first rest ih =>
      rw [put] at member
      split at member
      · exact (List.mem_cons.mp member).imp_right (List.mem_cons_of_mem _)
      · rcases List.mem_cons.mp member with rfl | later
        · exact .inr List.mem_cons_self
        · exact (ih later).imp_right (List.mem_cons_of_mem _)

/-- A table holds what it held before and what has been registered since, each
under its own name. -/
theorem mem_of_mem_registered {listed : List FunctionEntry} {table : FunctionTable}
    {pair : String × FunctionEntry} (member : pair ∈ (listed.foldl register table).entries) :
    pair ∈ table.entries ∨ ∃ entry ∈ listed, pair = (key entry.name, entry) := by
  induction listed generalizing table with
  | nil => exact .inl member
  | cons first rest ih =>
      rcases ih member with old | ⟨entry, isListed, same⟩
      · rcases mem_of_mem_put old with same | older
        · exact .inr ⟨first, List.mem_cons_self, same⟩
        · exact .inl older
      · exact .inr ⟨entry, List.mem_cons_of_mem _ isListed, same⟩

/-- A function that is found among those registered is listed under its name. -/
theorem mem_of_get?_registered {listed : List FunctionEntry}
    (found : (listed.foldl register {}).get? name = some entry) :
    entry ∈ listed ∧ key entry.name = key name := by
  obtain ⟨earlier, later, split, _⟩ := List.lookup_eq_some_iff.mp found
  have member : (key name, entry) ∈ (listed.foldl register {}).entries := by simp [split]
  rcases mem_of_mem_registered member with none | ⟨listed, isListed, same⟩
  · cases none
  · obtain ⟨sameKey, rfl⟩ := Prod.mk.inj same
    exact ⟨isListed, sameKey.symm⟩

theorem mem_of_get?_standard (found : standard.get? name = some entry) :
    entry ∈ standardEntries ∧ key entry.name = key name :=
  mem_of_get?_registered found

/-- A function of the table has the transform. -/
def Transforms (functions : FunctionTable) (transform : List Expr → List Expr) : Prop :=
  ∃ name entry, functions.get? name = some entry ∧ entry.transform = some transform

theorem transform_of_mem_standardEntries : ∀ entry ∈ standardEntries,
    ∀ transform ∈ entry.transform, transform = Transform.fromStart ∨
      ∃ pattern, transform = Transform.removing pattern := by
  simp [standardEntries, scalar, scalarAs, aggregate]

/-- The transforms of the standard functions. -/
theorem transform_of_standard (transforms : standard.Transforms transform) :
    transform = Transform.fromStart ∨ ∃ pattern, transform = Transform.removing pattern := by
  obtain ⟨name, entry, found, transformed⟩ := transforms
  exact transform_of_mem_standardEntries entry (mem_of_get?_standard found).1 transform transformed

/-! ## Transforms that bring something in -/

section BringsIn

variable {α : Type} {contents : Expr → List α} {x : α}

/-- A transform hands on something that is in none of the arguments. -/
def BringsIn (functions : FunctionTable) (contents : Expr → List α) (x : α) : Prop :=
  ∃ transform, functions.Transforms transform ∧
    ∃ args, x ∈ (transform args).flatMap contents ∧ x ∉ args.flatMap contents

theorem BringsIn.congr {others : Expr → List α} (same : ∀ e, x ∈ contents e ↔ x ∈ others e)
    (brought : functions.BringsIn contents x) : functions.BringsIn others x := by
  simp only [BringsIn, List.mem_flatMap, same] at brought ⊢
  exact brought

/-- What is handed on is in the arguments, or a transform has brought it in. -/
theorem mem_or_bringsIn (found : functions.get? name = some entry) {args : List Expr}
    (member : x ∈ (entry.handOn args).flatMap contents) :
    x ∈ args.flatMap contents ∨ functions.BringsIn contents x := by
  unfold FunctionEntry.handOn at member
  cases transformed : entry.transform with
  | none =>
      rw [transformed] at member
      exact .inl member
  | some transform =>
      rw [transformed] at member
      by_cases given : x ∈ args.flatMap contents
      · exact .inl given
      · exact .inr ⟨transform, ⟨name, entry, found, transformed⟩, args, member, given⟩

/-- The standard functions bring in constants only. -/
theorem not_bringsIn_standard (plain : ∀ value, contents (.constant value) = []) :
    ¬ standard.BringsIn contents x := by
  rintro ⟨transform, transforms, args, member, foreign⟩
  apply foreign
  rcases transform_of_standard transforms with rfl | ⟨pattern, rfl⟩
  · match args with
    | [] => exact member
    | [_] => exact member
    | text :: length :: rest =>
        simp only [Transform.fromStart, Expr.integer, List.flatMap_cons, plain, List.nil_append,
          List.flatMap_nil, List.append_nil, List.mem_append] at member ⊢
        exact member.imp_right .inl
  · simpa [Transform.removing, Expr.string, plain] using member

end BringsIn

/-! ## Transforms and texts -/

/-- What the transforms make of arguments that differ only in texts differs only in
texts. -/
def TextBlind (functions : FunctionTable) : Prop :=
  ∀ transform, functions.Transforms transform → ∀ args others,
    List.Forall₂ Expr.SameButTexts args others →
      List.Forall₂ Expr.SameButTexts (transform args) (transform others)

theorem TextBlind.handOn (blind : functions.TextBlind) (found : functions.get? name = some entry)
    {args others : List Expr} (same : List.Forall₂ Expr.SameButTexts args others) :
    List.Forall₂ Expr.SameButTexts (entry.handOn args) (entry.handOn others) := by
  unfold FunctionEntry.handOn
  cases transformed : entry.transform with
  | none => exact same
  | some transform => exact blind transform ⟨name, entry, found, transformed⟩ args others same

section Values

variable {V : Type} {M : Meaning V}

/-- Every transform does to expressions what the action of its function does to their
values. -/
def ActsBy (functions : FunctionTable) (M : Meaning V)
    (action : FunctionEntry → List (Option V) → List (Option V)) : Prop :=
  ∀ name entry transform, functions.get? name = some entry → entry.transform = some transform →
    ∀ assignment args, Expr.values M assignment (transform args) =
      action entry (Expr.values M assignment args)

/-- The values of a text and a length become those of the text, one and the length. -/
def valuesFromStart (M : Meaning V) : List (Option V) → List (Option V)
  | text :: length :: _ => [text, some (M.integer 1), length]
  | values => values

/-- The values are followed by those of a pattern and an empty text. -/
def valuesRemoving (M : Meaning V) (pattern : String) (values : List (Option V)) :
    List (Option V) :=
  values ++ [some (M.string pattern), some (M.string "")]

theorem values_fromStart (assignment : Variable → Option V) (args : List Expr) :
    Expr.values M assignment (Transform.fromStart args) =
      valuesFromStart M (Expr.values M assignment args) := by
  match args with
  | [] => rfl
  | [_] => rfl
  | _ :: _ :: _ => rfl

theorem values_removing (pattern : String) (assignment : Variable → Option V)
    (args : List Expr) :
    Expr.values M assignment (Transform.removing pattern args) =
      valuesRemoving M pattern (Expr.values M assignment args) := by
  rw [Transform.removing, valuesRemoving, Expr.values_eq_map, Expr.values_eq_map,
    List.map_append]
  rfl

/-- What the standard functions do to the values of their arguments. -/
def standardAction (M : Meaning V) (entry : FunctionEntry) (values : List (Option V)) :
    List (Option V) :=
  match entry.name with
  | "LEFT" => valuesFromStart M values
  | "TRIM" => valuesRemoving M "^\\s+|\\s+$" values
  | "LTRIM" => valuesRemoving M "^\\s+" values
  | "RTRIM" => valuesRemoving M "\\s+$" values
  | _ => values

theorem actsBy_standard : standard.ActsBy M (standardAction M) := by
  have listed : ∀ entry ∈ standardEntries, ∀ transform, entry.transform = some transform →
      ∀ assignment args, Expr.values M assignment (transform args) =
        standardAction M entry (Expr.values M assignment args) := by
    simp [standardEntries, scalar, scalarAs, aggregate, standardAction, values_fromStart,
      values_removing]
  intro name entry transform found transformed
  exact listed entry (mem_of_get?_standard found).1 transform transformed

end Values

end FunctionTable

end TripleTables

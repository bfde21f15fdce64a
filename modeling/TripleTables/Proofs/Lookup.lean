import Mathlib.Data.List.Nodup
import TripleTables.Name

/-!
# Looking names up

A map of names is searched on three paths: a complete name is looked up, the
name without segments asks for the only entry, and any other name is compared
with every entry.  As long as no name is kept twice, all three give the value of
the one entry that the pattern covers, so the order of the entries does not
count.
-/

namespace TripleTables

namespace Name

/-- A segment that is present admits itself alone. -/
theorem admits_iff_of_present {mine : Option String} (present : mine.isNone = false)
    (theirs : Option String) : admits mine theirs = true ↔ theirs = mine := by
  cases mine with
  | none => simp at present
  | some text => exact admits_some text theirs

/-- A pattern without absent segments covers itself alone. -/
theorem covers_iff_of_complete {pattern : Name} (complete : pattern.hasWild = false)
    (name : Name) : pattern.covers name = true ↔ name = pattern := by
  obtain ⟨catalog, schema, table, column⟩ := pattern
  simp only [hasWild, segments, List.any_cons, List.any_nil, Bool.or_eq_false_iff] at complete
  obtain ⟨catalogPresent, schemaPresent, tablePresent, columnPresent, _⟩ := complete
  cases name
  simp only [covers, Bool.and_eq_true, admits_iff_of_present catalogPresent,
    admits_iff_of_present schemaPresent, admits_iff_of_present tablePresent,
    admits_iff_of_present columnPresent, mk.injEq, and_assoc]

/-- A pattern without segments covers every name. -/
theorem covers_of_isWild {pattern : Name} (wild : pattern.isWild = true) (name : Name) :
    pattern.covers name = true := by
  simp only [isWild, segments, List.all_cons, List.all_nil, Bool.and_eq_true,
    Option.isNone_iff_eq_none] at wild
  simp [covers, wild.1, wild.2.1, wild.2.2.1, wild.2.2.2.1]

/-- Distinct names are covered as they stand. -/
theorem covered_of_nodup {names : List Name} (distinct : names.Nodup) (pattern : Name) :
    pattern.covered names = names.filter pattern.covers := by
  have kept : ∀ {rest : List Name}, rest.Nodup → rest.eraseDups = rest := by
    intro rest distinct
    induction rest with
    | nil => rfl
    | cons name rest ih =>
        obtain ⟨fresh, distinct⟩ := List.nodup_cons.mp distinct
        have others : rest.filter (fun other => !other == name) = rest := by
          rw [List.filter_eq_self]
          intro other member
          have different : other ≠ name := fun same => fresh (same ▸ member)
          simpa using different
        rw [List.eraseDups_cons, others, ih distinct]
  exact kept (distinct.filter _)

end Name

namespace NameMap

variable {α : Type}

theorem put_of_fresh {name : Name} {entries : List (Name × α)}
    (fresh : name ∉ entries.map Prod.fst) (value : α) :
    put name value entries = entries ++ [(name, value)] := by
  induction entries with
  | nil => rfl
  | cons entry rest ih =>
      rw [List.map_cons, List.mem_cons, not_or] at fresh
      rw [put, if_neg (Ne.symm fresh.1), ih fresh.2, List.cons_append]

/-- A list in which no name stands twice is kept as it is. -/
theorem entries_ofList {entries : List (Name × α)} (distinct : (entries.map Prod.fst).Nodup) :
    (ofList entries).entries = entries := by
  have gathered : ∀ map : NameMap α, ((map.entries ++ entries).map Prod.fst).Nodup →
      (entries.foldl (fun map entry => map.insert entry.1 entry.2) map).entries =
        map.entries ++ entries := by
    clear distinct
    induction entries with
    | nil => simp
    | cons entry rest ih =>
        intro map distinct
        have fresh : entry.1 ∉ map.entries.map Prod.fst := by
          rw [List.map_append, List.nodup_append] at distinct
          intro old
          exact distinct.2.2 _ old entry.1 (by simp) rfl
        have inserted : (map.insert entry.1 entry.2).entries = map.entries ++ [entry] :=
          put_of_fresh fresh entry.2
        rw [List.foldl_cons, ih, inserted, List.append_assoc, List.singleton_append]
        rwa [inserted, List.append_assoc, List.singleton_append]
  exact gathered empty (by simpa [empty] using distinct)

theorem names_put_of_known {name : Name} {entries : List (Name × α)}
    (known : name ∈ entries.map Prod.fst) (value : α) :
    (put name value entries).map Prod.fst = entries.map Prod.fst := by
  induction entries with
  | nil => simp at known
  | cons entry rest ih =>
      by_cases same : entry.1 = name
      · simp [put, same]
      · have later : name ∈ rest.map Prod.fst := by
          simpa [Ne.symm same] using known
        rw [put, if_neg same, List.map_cons, ih later, List.map_cons]

/-- No name is kept twice, whatever the map is made of. -/
theorem nodup_ofList (entries : List (Name × α)) :
    ((ofList entries).entries.map Prod.fst).Nodup := by
  have kept : ∀ map : NameMap α, (map.entries.map Prod.fst).Nodup →
      ((entries.foldl (fun map entry => map.insert entry.1 entry.2) map).entries.map
        Prod.fst).Nodup := by
    induction entries with
    | nil => exact fun map distinct => distinct
    | cons entry rest ih =>
        intro map distinct
        have inserted : ((map.insert entry.1 entry.2).entries.map Prod.fst).Nodup := by
          unfold NameMap.insert
          by_cases known : entry.1 ∈ map.entries.map Prod.fst
          · rwa [names_put_of_known known]
          · rw [put_of_fresh known, List.map_append, List.nodup_append]
            refine ⟨distinct, List.nodup_singleton _, ?_⟩
            intro name old other new same
            rw [same, List.mem_singleton.mp new] at old
            exact known old
        exact ih _ inserted
  exact kept empty List.nodup_nil

/-- Where no name stands twice, a name is the first of its entries only if it is
the only one. -/
theorem filter_eq_toList_find? {entries : List (Name × α)}
    (distinct : (entries.map Prod.fst).Nodup) (name : Name) :
    entries.filter (fun entry => decide (entry.1 = name)) =
      (entries.find? (fun entry => decide (entry.1 = name))).toList := by
  induction entries with
  | nil => rfl
  | cons entry rest ih =>
      rw [List.map_cons, List.nodup_cons] at distinct
      by_cases same : entry.1 = name
      · have others : rest.filter (fun entry => decide (entry.1 = name)) = [] := by
          rw [List.filter_eq_nil_iff]
          intro other member sameName
          have known : other.1 ∈ rest.map Prod.fst := List.mem_map_of_mem member
          rw [of_decide_eq_true sameName, ← same] at known
          exact distinct.1 known
        simp [same, others]
      · simpa [same] using ih distinct.2

/-- All paths look for the one entry that the pattern covers. -/
theorem find?_eq_only? {map : NameMap α} (distinct : (map.entries.map Prod.fst).Nodup)
    (pattern : Name) :
    map.find? pattern =
      only? pattern ((map.entries.filter (fun entry => pattern.covers entry.1)).map Prod.snd) := by
  unfold find?
  split
  · rename_i complete
    rw [Bool.not_eq_true'] at complete
    have exactly : (fun entry : Name × α => pattern.covers entry.1) =
        fun entry => decide (entry.1 = pattern) := by
      funext entry
      rw [Bool.eq_iff_iff, Name.covers_iff_of_complete complete, decide_eq_true_iff]
    rw [exactly, filter_eq_toList_find? distinct, get?]
    cases map.entries.find? (fun entry => decide (entry.1 = pattern)) with
    | none => rfl
    | some entry => rfl
  · split
    · rename_i wild
      rw [List.filter_eq_self.mpr fun entry _ => Name.covers_of_isWild wild entry.1]
    · rfl

/-- Several values are refused with their number. -/
theorem only?_eq (pattern : Name) (values : List α) :
    only? pattern values =
      if 1 < values.length then .error ⟨pattern, values.length⟩ else .ok values.head? := by
  cases values with
  | nil => rfl
  | cons first rest =>
      cases rest with
      | nil => rfl
      | cons second rest => simp [only?]

theorem only?_of_perm {values others : List α} (same : values.Perm others) (pattern : Name) :
    only? pattern values = only? pattern others := by
  rw [only?_eq, only?_eq, same.length_eq]
  split
  · rfl
  · rename_i few
    have equal : others = values := by
      rw [← same.length_eq] at few
      cases values with
      | nil => exact List.nil_perm.mp same
      | cons first rest =>
          have alone : rest = [] := by simpa using few
          subst alone
          exact (List.singleton_perm.mp same).symm
    rw [equal]

/-- The order of the entries does not count. -/
theorem find?_of_perm {map other : NameMap α} (distinct : (map.entries.map Prod.fst).Nodup)
    (same : other.entries.Perm map.entries) (pattern : Name) :
    other.find? pattern = map.find? pattern := by
  have distinctOther : (other.entries.map Prod.fst).Nodup :=
    (same.map Prod.fst).nodup_iff.mpr distinct
  rw [find?_eq_only? distinct, find?_eq_only? distinctOther]
  exact only?_of_perm ((same.filter _).map Prod.snd) pattern

/-! ## The outcomes of a search -/

theorem only?_eq_none_iff {pattern : Name} {values : List α} :
    only? pattern values = .ok none ↔ values = [] := by
  match values with
  | [] => simp [only?]
  | [_] => simp [only?]
  | _ :: _ :: _ => simp [only?]

theorem only?_eq_some_iff {pattern : Name} {values : List α} {value : α} :
    only? pattern values = .ok (some value) ↔ values = [value] := by
  match values with
  | [] => simp [only?]
  | [_] => simp [only?]
  | _ :: _ :: _ => simp [only?]

theorem only?_eq_error_iff {pattern : Name} {values : List α} {ambiguity : Ambiguity} :
    only? pattern values = .error ambiguity ↔
      1 < values.length ∧ ambiguity = ⟨pattern, values.length⟩ := by
  match values with
  | [] => simp [only?]
  | [_] => simp [only?]
  | _ :: _ :: _ => simp [only?, eq_comm]

/-- The entries that a pattern covers are counted by their names. -/
theorem length_covered {entries : List (Name × α)} (distinct : (entries.map Prod.fst).Nodup)
    (pattern : Name) :
    (pattern.covered (entries.map Prod.fst)).length =
      (entries.filter (fun entry => pattern.covers entry.1)).length := by
  rw [Name.covered_of_nodup distinct, List.filter_map, List.length_map]
  rfl

/-- One value is found exactly if one name is covered, and then it is that name's. -/
theorem values_eq_singleton_iff {entries : List (Name × α)}
    (distinct : (entries.map Prod.fst).Nodup) {pattern : Name} {value : α} :
    (entries.filter (fun entry => pattern.covers entry.1)).map Prod.snd = [value] ↔
      ∃ name, (name, value) ∈ entries ∧
        ∀ other ∈ entries.map Prod.fst, pattern.covers other = true ↔ other = name := by
  constructor
  · intro found
    obtain ⟨only, alone, rfl⟩ := List.map_eq_singleton_iff.mp found
    have hit : ∀ entry, entry ∈ entries ∧ pattern.covers entry.1 = true ↔ entry = only := by
      intro entry
      rw [← List.mem_singleton (b := only), ← alone, List.mem_filter]
    obtain ⟨member, covered⟩ := (hit only).mpr rfl
    refine ⟨only.1, member, ?_⟩
    intro other known
    obtain ⟨entry, isEntry, rfl⟩ := List.mem_map.mp known
    constructor
    · intro coversEntry
      rw [(hit entry).mp ⟨isEntry, coversEntry⟩]
    · intro same
      rwa [same]
  · rintro ⟨name, member, exactly⟩
    have asName : entries.filter (fun entry => pattern.covers entry.1) =
        entries.filter (fun entry => decide (entry.1 = name)) := by
      apply List.filter_congr
      intro entry isEntry
      rw [Bool.eq_iff_iff, exactly entry.1 (List.mem_map_of_mem isEntry), decide_eq_true_iff]
    have inside : (name, value) ∈ entries.filter (fun entry => decide (entry.1 = name)) := by
      simp [member]
    rw [filter_eq_toList_find? distinct, Option.mem_toList] at inside
    rw [asName, filter_eq_toList_find? distinct, inside]
    rfl

/-- On all paths and in whatever order the entries are kept, a search finds nothing if
the pattern covers no name, the value of the name if it covers one, and otherwise fails
with the number of names that it covers. -/
theorem find?_agrees_with_covers {map : NameMap α} (distinct : (map.entries.map Prod.fst).Nodup)
    {entries : List (Name × α)} (order : entries.Perm map.entries) (pattern : Name) :
    ((⟨entries⟩ : NameMap α).find? pattern = .ok none ↔
        ∀ name ∈ map.entries.map Prod.fst, pattern.covers name = false) ∧
      (∀ value, (⟨entries⟩ : NameMap α).find? pattern = .ok (some value) ↔
        ∃ name, (name, value) ∈ map.entries ∧
          ∀ other ∈ map.entries.map Prod.fst, pattern.covers other = true ↔ other = name) ∧
      ∀ ambiguity, (⟨entries⟩ : NameMap α).find? pattern = .error ambiguity ↔
        1 < (pattern.covered (map.entries.map Prod.fst)).length ∧
          ambiguity = ⟨pattern, (pattern.covered (map.entries.map Prod.fst)).length⟩ := by
  rw [find?_of_perm distinct order, find?_eq_only? distinct, length_covered distinct]
  refine ⟨?_, ?_, ?_⟩
  · rw [only?_eq_none_iff, List.map_eq_nil_iff, List.filter_eq_nil_iff]
    simp
  · intro value
    rw [only?_eq_some_iff, values_eq_singleton_iff distinct]
  · intro ambiguity
    rw [only?_eq_error_iff, List.length_map]

/-- A map whose names leave segments out. -/
def partialNames : NameMap Nat :=
  ofList [({ schema := "s", table := "t" }, 0), ({ table := "t", column := "c" }, 1),
    ({ schema := "s", table := "t" }, 2)]

theorem find?_agrees_with_covers_partialNames :
    (partialNames.entries.map Prod.fst).Nodup ∧
      (⟨partialNames.entries.reverse⟩ : NameMap Nat).find? { catalog := "x" } = .ok none ∧
      (⟨partialNames.entries.reverse⟩ : NameMap Nat).find? { schema := "s" } = .ok (some 2) ∧
      (⟨partialNames.entries.reverse⟩ : NameMap Nat).find? { table := "t" } =
        .error ⟨{ table := "t" }, 2⟩ := by
  have distinct : (partialNames.entries.map Prod.fst).Nodup := nodup_ofList _
  have agrees := find?_agrees_with_covers distinct (List.reverse_perm _)
  refine ⟨distinct, (agrees { catalog := "x" }).1.mpr (by decide),
    ((agrees { schema := "s" }).2.1 2).mpr ⟨{ schema := "s", table := "t" }, by decide, by decide⟩,
    ((agrees { table := "t" }).2.2 _).mpr (by decide)⟩

end NameMap

end TripleTables

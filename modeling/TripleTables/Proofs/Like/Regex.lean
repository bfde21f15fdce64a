import TripleTables.Proofs.Like.Matching

/-!
# LIKE patterns as regular expressions

The regular expressions of SPARQL that are put together from single characters,
full stops, groups and the quantifier `+`, between the anchors `^` and `$`.
`Regex.ofText?` reads them and `Regex.Matches` says what they match.

A LIKE pattern with wildcards is translated to such an expression, which can be
read and matches what the pattern matches.
-/

namespace TripleTables

/-- A regular expression. -/
inductive Regex where
  | empty
  | char (c : Char)
  /-- The full stop. -/
  | any
  | seq (first rest : Regex)
  /-- One or more times the same expression. -/
  | plus (repeated : Regex)
deriving DecidableEq, Repr

namespace Regex

/-- A text matches a regular expression in whole.  The parameter tells which
characters a full stop stands for: not all in every dialect. -/
inductive Matches (dot : Char → Prop) : Regex → List Char → Prop
  | empty : Matches dot .empty []
  | char (c : Char) : Matches dot (.char c) [c]
  | any {c : Char} (stands : dot c) : Matches dot .any [c]
  | seq {first rest : Regex} {text others : List Char} (matched : Matches dot first text)
      (restMatched : Matches dot rest others) : Matches dot (.seq first rest) (text ++ others)
  | once {repeated : Regex} {text : List Char} (matched : Matches dot repeated text) :
      Matches dot (.plus repeated) text
  | more {repeated : Regex} {text others : List Char} (matched : Matches dot repeated text)
      (again : Matches dot (.plus repeated) others) : Matches dot (.plus repeated) (text ++ others)

/-! ## Reading -/

/-- The characters that do not stand for themselves. -/
def reserved : List Char :=
  ['\\', '|', '.', '?', '*', '+', '(', ')', '\x7b', '\x7d', '[', ']', '^', '$']

/-- Parts one after the other; the latest is given first. -/
def sequence (parts : List Regex) : Regex :=
  parts.foldl (fun rest part => .seq part rest) .empty

/-- Reads the characters behind the first anchor, given what stands before each
group that is still open, and the parts of the innermost one that have been
read; the latest is given first.  A backslash takes its meaning from a reserved
character, and may stand before a hyphen. -/
def read : List Char → List (List Regex) → List Regex → Option Regex
  | [], _, _ => none
  | ['$'], [], parts => some (sequence parts)
  | '\\' :: c :: rest, groups, parts =>
      if reserved.contains c || c == '-' then read rest groups (.char c :: parts) else none
  | '.' :: rest, groups, parts => read rest groups (.any :: parts)
  | '(' :: rest, groups, parts => read rest (parts :: groups) []
  | ')' :: rest, outer :: groups, parts => read rest groups (sequence parts :: outer)
  | '+' :: rest, groups, part :: parts => read rest groups (.plus part :: parts)
  | c :: rest, groups, parts =>
      if reserved.contains c then none else read rest groups (.char c :: parts)

/-- The regular expression with the given text, between anchors. -/
def ofText? (pattern : String) : Option Regex :=
  match pattern.toList with
  | '^' :: rest => read rest [] []
  | _ => none

/-! ## The parts of LIKE patterns -/

/-- The expression of an item. -/
def ofItem : LikeItem → Regex
  | .char c => .char c
  | .many => sequence [.plus .any]
  | .one => .any

variable {groups : List (List Regex)} {parts : List Regex}

/-- A character that is quoted where that is needed is read as itself. -/
theorem read_quoteChar (c : Char) (rest : List Char) :
    read (LikeItem.quoteChar c ++ rest) groups parts = read rest groups (.char c :: parts) := by
  have escapable : ∀ c ∈ LikeItem.metaCharacters, (reserved.contains c || c == '-') = true :=
    List.all_eq_true.mp (by decide)
  have quoted : ∀ c ∈ reserved, LikeItem.metaCharacters.contains c = true :=
    List.all_eq_true.mp (by decide)
  by_cases special : c ∈ LikeItem.metaCharacters
  · have written : LikeItem.quoteChar c = ['\\', c] := by
      simp [LikeItem.quoteChar, special]
    rw [written, List.cons_append, List.singleton_append, read, if_pos (escapable c special)]
  · have written : LikeItem.quoteChar c = [c] := by
      simp [LikeItem.quoteChar, special]
    have plain : c ∉ reserved := fun member =>
      special (List.contains_iff_mem.mp (quoted c member))
    have other : ∀ {d : Char}, d ∈ reserved → c ≠ d := fun member same => plain (same ▸ member)
    rw [written, List.singleton_append, read, if_neg (by simpa using plain)]
    · intro _ _ same
      exact absurd same (other (by decide))
    · exact other (by decide)
    · exact other (by decide)
    · intro _ same
      exact absurd same (other (by decide))
    · intro _ _ _ same
      exact absurd same (other (by decide))
    · intro _ _ _ same
      exact absurd same (other (by decide))

/-- The regular expression of items is read item by item. -/
theorem read_items (items : List LikeItem) :
    read (items.flatMap LikeItem.regexChars ++ ['$']) [] parts =
      some (sequence ((items.map ofItem).reverse ++ parts)) := by
  induction items generalizing parts with
  | nil => rfl
  | cons item items ih =>
      have collected : ((item :: items).map ofItem).reverse ++ parts =
          (items.map ofItem).reverse ++ ofItem item :: parts := by
        simp
      rw [List.flatMap_cons, List.append_assoc, collected, ← ih]
      cases item with
      | char c => exact read_quoteChar c _
      | many => rfl
      | one => rfl

/-! ## What is matched -/

variable {dot : Char → Prop} {text : List Char}

theorem matches_empty_iff : Matches dot .empty text ↔ text = [] := by
  constructor
  · rintro ⟨⟩
    rfl
  · rintro rfl
    exact .empty

theorem matches_char_iff {c : Char} : Matches dot (.char c) text ↔ text = [c] := by
  constructor
  · rintro ⟨⟩
    rfl
  · rintro rfl
    exact .char c

theorem matches_any_iff : Matches dot .any text ↔ ∃ c, dot c ∧ text = [c] := by
  constructor
  · rintro ⟨⟩
    exact ⟨_, by assumption, rfl⟩
  · rintro ⟨c, stands, rfl⟩
    exact .any stands

theorem matches_seq_iff {first rest : Regex} :
    Matches dot (.seq first rest) text ↔
      ∃ front back, text = front ++ back ∧ Matches dot first front ∧ Matches dot rest back := by
  constructor
  · rintro ⟨⟩
    exact ⟨_, _, rfl, by assumption, by assumption⟩
  · rintro ⟨front, back, rfl, matched, restMatched⟩
    exact .seq matched restMatched

/-- A full stop with `+` stands for one or more characters. -/
theorem matches_plus_any_iff :
    Matches dot (.plus .any) text ↔ text ≠ [] ∧ ∀ c ∈ text, dot c := by
  constructor
  · intro matched
    generalize isPlus : Regex.plus .any = regex at matched
    induction matched with
    | once matched _ =>
        cases isPlus
        obtain ⟨c, stands, rfl⟩ := matches_any_iff.mp matched
        simp [stands]
    | more matched again _ ih =>
        cases isPlus
        obtain ⟨c, stands, rfl⟩ := matches_any_iff.mp matched
        simpa [stands] using (ih rfl).2
    | _ => cases isPlus
  · rintro ⟨nonempty, stand⟩
    induction text with
    | nil => contradiction
    | cons c text ih =>
        have first : Matches dot .any [c] := .any (stand c (by simp))
        cases text with
        | nil => exact .once first
        | cons d text =>
            exact .more first (ih (by simp) fun e member => stand e (by simp [member]))

theorem matches_many_iff :
    Matches dot (ofItem .many) text ↔ text ≠ [] ∧ ∀ c ∈ text, dot c := by
  have written : ofItem .many = .seq (.plus .any) .empty := rfl
  rw [written, matches_seq_iff, ← matches_plus_any_iff]
  constructor
  · rintro ⟨front, back, rfl, matched, nothing⟩
    rw [matches_empty_iff.mp nothing, List.append_nil]
    exact matched
  · intro matched
    exact ⟨text, [], (List.append_nil text).symm, matched, .empty⟩

/-- The expression of items matches what the items accept, among the texts
whose characters a full stop stands for. -/
theorem matches_items_iff {items : List LikeItem} (stand : ∀ c ∈ text, dot c) :
    Matches dot ((items.map ofItem).foldr .seq .empty) text ↔
      LikeItem.accepts items text = true := by
  induction items generalizing text with
  | nil =>
      rw [List.map_nil, List.foldr_nil, matches_empty_iff, LikeItem.accepts, List.isEmpty_iff]
  | cons item items ih =>
      rw [List.map_cons, List.foldr_cons, matches_seq_iff]
      have behind : ∀ {front back}, text = front ++ back → ∀ c ∈ back, dot c := by
        rintro front back rfl c member
        exact stand c (List.mem_append_right front member)
      constructor
      · rintro ⟨front, back, split, matched, restMatched⟩
        have accepted := (ih (behind split)).mp restMatched
        subst split
        cases item with
        | char c =>
            rw [matches_char_iff.mp matched, List.singleton_append, LikeItem.accepts]
            simp [accepted]
        | many =>
            rw [LikeItem.accepts_many_iff]
            exact ⟨front, back, (matches_many_iff.mp matched).1, rfl, accepted⟩
        | one =>
            obtain ⟨c, _, rfl⟩ := matches_any_iff.mp matched
            exact accepted
      · intro accepted
        cases item with
        | char c =>
            obtain ⟨rest, rfl, restAccepted⟩ := LikeItem.exists_of_accepts_char accepted
            exact ⟨[c], rest, rfl, .char c,
              (ih (behind List.singleton_append.symm)).mpr restAccepted⟩
        | many =>
            obtain ⟨run, rest, nonempty, split, restAccepted⟩ :=
              LikeItem.accepts_many_iff.mp accepted
            have front : ∀ c ∈ run, dot c := fun c member =>
              stand c (split ▸ List.mem_append_left rest member)
            exact ⟨run, rest, split, matches_many_iff.mpr ⟨nonempty, front⟩,
              (ih (behind split)).mpr restAccepted⟩
        | one =>
            cases text with
            | nil => contradiction
            | cons c rest =>
                exact ⟨[c], rest, rfl, .any (stand c (by simp)),
                  (ih (behind List.singleton_append.symm)).mpr accepted⟩

end Regex

/-- The regular expression of a pattern with wildcards can be read, and it
matches what the pattern matches, among the texts whose characters a full stop
stands for. -/
theorem LikePattern.exists_regex_of_wild {pattern : String}
    (wild : likeText? pattern.toList = none) :
    ∃ written regex, LikePattern.ofText pattern = .regex written ∧
      Regex.ofText? written = some regex ∧
      ∀ (dot : Char → Prop) (text : List Char), (∀ c ∈ text, dot c) →
        (regex.Matches dot text ↔ LikeMatches pattern.toList text) := by
  refine ⟨_, ((LikeItem.ofChars pattern.toList).map Regex.ofItem).foldr .seq .empty,
    ofText_of_wild wild, ?_, ?_⟩
  · simp only [Regex.ofText?, String.toList_ofList, List.cons_append]
    rw [Regex.read_items, List.append_nil, Regex.sequence, List.foldl_reverse]
  · intro dot text stand
    rw [Regex.matches_items_iff stand, LikeItem.accepts_ofChars_iff]

end TripleTables

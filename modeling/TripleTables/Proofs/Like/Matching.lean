import TripleTables.Like

/-!
# What LIKE patterns match

`LikeMatches` says when a text matches a pattern, by rules over the characters
of the pattern.  The items of a pattern decide it, and a pattern without
wildcards matches one text only.
-/

namespace TripleTables

/-- A text matches a LIKE pattern. -/
inductive LikeMatches : List Char → List Char → Prop
  | nil : LikeMatches [] []
  /-- Behind a backslash a wildcard stands for itself. -/
  | escaped {c : Char} {pattern text : List Char} (wildcard : c = '%' ∨ c = '_')
      (rest : LikeMatches pattern text) : LikeMatches ('\\' :: c :: pattern) (c :: text)
  /-- The wildcard `%` stands for one or more characters. -/
  | many {run pattern text : List Char} (nonempty : run ≠ [])
      (rest : LikeMatches pattern text) : LikeMatches ('%' :: pattern) (run ++ text)
  /-- The wildcard `_` stands for one character. -/
  | one (c : Char) {pattern text : List Char} (rest : LikeMatches pattern text) :
      LikeMatches ('_' :: pattern) (c :: text)
  /-- Any other character stands for itself, a backslash too unless a wildcard
  follows. -/
  | ordinary {c : Char} {pattern text : List Char} (notMany : c ≠ '%') (notOne : c ≠ '_')
      (notEscape : c = '\\' → pattern.head? ≠ some '%' ∧ pattern.head? ≠ some '_')
      (rest : LikeMatches pattern text) : LikeMatches (c :: pattern) (c :: text)

/-- The text that a pattern without wildcards stands for. -/
def likeText? : List Char → Option (List Char)
  | [] => some []
  | '\\' :: '%' :: pattern => (likeText? pattern).map ('%' :: ·)
  | '\\' :: '_' :: pattern => (likeText? pattern).map ('_' :: ·)
  | '%' :: _ => none
  | '_' :: _ => none
  | c :: pattern => (likeText? pattern).map (c :: ·)

namespace LikeItem

/-- The items accept the text. -/
def accepts : List LikeItem → List Char → Bool
  | [], text => text.isEmpty
  | _ :: _, [] => false
  | .char c :: items, d :: text => c == d && accepts items text
  | .one :: items, _ :: text => accepts items text
  | .many :: items, _ :: text => accepts items text || accepts (.many :: items) text

theorem accepts_many_iff {items : List LikeItem} {text : List Char} :
    accepts (.many :: items) text = true ↔
      ∃ run rest, run ≠ [] ∧ text = run ++ rest ∧ accepts items rest = true := by
  induction text with
  | nil =>
      constructor
      · intro accepted
        contradiction
      · rintro ⟨run, rest, nonempty, split, _⟩
        exact absurd (List.append_eq_nil_iff.mp split.symm).1 nonempty
  | cons c text ih =>
      rw [accepts, Bool.or_eq_true, ih]
      constructor
      · rintro (accepted | ⟨run, rest, _, rfl, accepted⟩)
        · exact ⟨[c], text, by simp, rfl, accepted⟩
        · exact ⟨c :: run, rest, by simp, rfl, accepted⟩
      · rintro ⟨run, rest, nonempty, split, accepted⟩
        cases run with
        | nil => contradiction
        | cons d run =>
            injection split with _ split
            cases run with
            | nil =>
                left
                rw [split]
                exact accepted
            | cons e run => exact .inr ⟨e :: run, rest, by simp, split, accepted⟩

theorem ofChars_ordinary {c : Char} {pattern : List Char} (notMany : c ≠ '%') (notOne : c ≠ '_')
    (notEscape : c = '\\' → pattern.head? ≠ some '%' ∧ pattern.head? ≠ some '_') :
    ofChars (c :: pattern) = .char c :: ofChars pattern := by
  rw [ofChars]
  · intro rest escape start
    exact (notEscape escape).1 (by rw [start]; rfl)
  · intro rest escape start
    exact (notEscape escape).2 (by rw [start]; rfl)
  · exact notMany
  · exact notOne

theorem accepts_of_likeMatches {pattern text : List Char} (matched : LikeMatches pattern text) :
    accepts (ofChars pattern) text = true := by
  induction matched with
  | nil => rfl
  | escaped wildcard rest ih =>
      rcases wildcard with rfl | rfl
      · rw [ofChars]
        simp [accepts, ih]
      · rw [ofChars]
        simp [accepts, ih]
  | many nonempty rest ih =>
      rw [ofChars, accepts_many_iff]
      exact ⟨_, _, nonempty, rfl, ih⟩
  | one c rest ih =>
      rw [ofChars, accepts]
      exact ih
  | ordinary notMany notOne notEscape rest ih =>
      rw [ofChars_ordinary notMany notOne notEscape]
      simp [accepts, ih]

theorem exists_of_accepts_char {c : Char} {items : List LikeItem} {text : List Char}
    (accepted : accepts (.char c :: items) text = true) :
    ∃ rest, text = c :: rest ∧ accepts items rest = true := by
  cases text with
  | nil => simp [accepts] at accepted
  | cons d rest =>
      simp only [accepts, Bool.and_eq_true, beq_iff_eq] at accepted
      exact ⟨rest, by rw [accepted.1], accepted.2⟩

theorem likeMatches_of_accepts {pattern text : List Char}
    (accepted : accepts (ofChars pattern) text = true) : LikeMatches pattern text := by
  fun_induction ofChars pattern generalizing text with
  | case1 =>
      rw [accepts, List.isEmpty_iff] at accepted
      rw [accepted]
      exact .nil
  | case2 pattern ih =>
      obtain ⟨rest, rfl, restAccepted⟩ := exists_of_accepts_char accepted
      exact .escaped (.inl rfl) (ih restAccepted)
  | case3 pattern ih =>
      obtain ⟨rest, rfl, restAccepted⟩ := exists_of_accepts_char accepted
      exact .escaped (.inr rfl) (ih restAccepted)
  | case4 pattern ih =>
      obtain ⟨run, rest, nonempty, rfl, restAccepted⟩ := accepts_many_iff.mp accepted
      exact .many nonempty (ih restAccepted)
  | case5 pattern ih =>
      cases text with
      | nil => simp [accepts] at accepted
      | cons c text =>
          rw [accepts] at accepted
          exact .one c (ih accepted)
  | case6 c pattern notEscapedMany notEscapedOne notMany notOne ih =>
      obtain ⟨rest, rfl, restAccepted⟩ := exists_of_accepts_char accepted
      refine .ordinary notMany notOne ?_ (ih restAccepted)
      intro escape
      constructor
      · intro start
        obtain ⟨others, rfl⟩ := List.head?_eq_some_iff.mp start
        exact notEscapedMany others escape rfl
      · intro start
        obtain ⟨others, rfl⟩ := List.head?_eq_some_iff.mp start
        exact notEscapedOne others escape rfl

/-- The items of a pattern accept exactly what matches the pattern. -/
theorem accepts_ofChars_iff {pattern text : List Char} :
    accepts (ofChars pattern) text = true ↔ LikeMatches pattern text :=
  ⟨likeMatches_of_accepts, accepts_of_likeMatches⟩

/-! ## Patterns without wildcards -/

theorem accepts_iff_of_not_wildcard {items : List LikeItem} {text : List Char}
    (plain : items.any isWildcard = false) :
    accepts items text = true ↔ text = items.filterMap char? := by
  induction items generalizing text with
  | nil => simp [accepts]
  | cons item items ih =>
      rw [List.any_cons, Bool.or_eq_false_iff] at plain
      cases item with
      | many => simp [isWildcard] at plain
      | one => simp [isWildcard] at plain
      | char c =>
          cases text with
          | nil => simp [accepts, char?]
          | cons d text =>
              simp only [accepts, Bool.and_eq_true, beq_iff_eq, ih plain.2, char?,
                List.filterMap_cons, List.cons.injEq]
              exact and_congr_left' eq_comm

/-- The text of items of which none is a wildcard. -/
def text? (items : List LikeItem) : Option (List Char) :=
  if items.any isWildcard then none else some (items.filterMap char?)

theorem text?_char_cons (c : Char) (items : List LikeItem) :
    text? (.char c :: items) = (text? items).map (c :: ·) := by
  simp only [text?, List.any_cons, isWildcard, Bool.false_or, char?, List.filterMap_cons]
  split
  · rfl
  · rfl

theorem likeText?_eq (pattern : List Char) : likeText? pattern = text? (ofChars pattern) := by
  fun_induction ofChars pattern with
  | case1 => rfl
  | case2 pattern ih => rw [likeText?, ih, text?_char_cons]
  | case3 pattern ih => rw [likeText?, ih, text?_char_cons]
  | case4 pattern ih => rfl
  | case5 pattern ih => rfl
  | case6 c pattern notEscapedMany notEscapedOne notMany notOne ih =>
      rw [likeText?, ih, text?_char_cons]
      · exact notEscapedMany
      · exact notEscapedOne
      · exact notMany
      · exact notOne

end LikeItem

instance (pattern text : List Char) : Decidable (LikeMatches pattern text) :=
  decidable_of_iff _ LikeItem.accepts_ofChars_iff

/-- A pattern without wildcards matches the text that it stands for. -/
theorem likeMatches_iff_eq {pattern own text : List Char} (plain : likeText? pattern = some own) :
    LikeMatches pattern text ↔ text = own := by
  rw [LikeItem.likeText?_eq, LikeItem.text?] at plain
  split at plain
  · contradiction
  · rename_i noWildcard
    rw [Bool.not_eq_true] at noWildcard
    injection plain with plain
    rw [← LikeItem.accepts_ofChars_iff, LikeItem.accepts_iff_of_not_wildcard noWildcard, plain]

/-- A pattern without wildcards asks for equality with the text that it stands
for. -/
theorem LikePattern.ofText_of_plain {pattern : String} {own : List Char}
    (plain : likeText? pattern.toList = some own) :
    LikePattern.ofText pattern = .exact (String.ofList own) := by
  rw [LikeItem.likeText?_eq, LikeItem.text?] at plain
  split at plain
  · contradiction
  · rename_i noWildcard
    injection plain with plain
    rw [ofText, ofItems, if_neg noWildcard, plain]

/-- A pattern with wildcards asks for a match with a regular expression. -/
theorem LikePattern.ofText_of_wild {pattern : String} (wild : likeText? pattern.toList = none) :
    LikePattern.ofText pattern =
      .regex (String.ofList
        ('^' :: (LikeItem.ofChars pattern.toList).flatMap LikeItem.regexChars ++ ['$'])) := by
  rw [LikeItem.likeText?_eq, LikeItem.text?] at wild
  split at wild
  · rename_i wildcard
    rw [ofText, ofItems, if_pos wildcard]
  · contradiction

end TripleTables

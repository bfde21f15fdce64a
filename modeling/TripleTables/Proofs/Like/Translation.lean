import TripleTables.Proofs.Like.Regex

/-!
# What becomes of a LIKE pattern

A pattern is kept as a text that values are compared with exactly when no
wildcard stands in it without a backslash directly before it.  Every other
pattern becomes a regular expression.  In both cases what is asked for is what
the pattern matches, among texts without line breaks: those are what a full
stop of a regular expression does not stand for.
-/

namespace TripleTables

/-- The characters that stand for others in a LIKE pattern. -/
def IsLikeWildcard (c : Char) : Prop :=
  c = '%' ∨ c = '_'

/-- A wildcard stands in the pattern without a backslash directly before it. -/
def HasWildcard (pattern : List Char) : Prop :=
  ∃ before c after, pattern = before ++ c :: after ∧ IsLikeWildcard c ∧
    before.getLast? ≠ some '\\'

/-- The first character does not count for what stands last, unless it is the
only one. -/
theorem getLast?_cons_ne_iff {c : Char} {others : List Char}
    (alone : others = [] → c ≠ '\\') :
    (c :: others).getLast? ≠ some '\\' ↔ others.getLast? ≠ some '\\' := by
  cases others with
  | nil => simpa using alone rfl
  | cons d rest => rw [List.getLast?_cons_cons]

theorem hasWildcard_of_head {c : Char} (wildcard : IsLikeWildcard c) (pattern : List Char) :
    HasWildcard (c :: pattern) :=
  ⟨[], c, pattern, rfl, wildcard, by simp⟩

/-- A character that is no wildcard does not count, unless it is a backslash
before one. -/
theorem hasWildcard_cons_iff {c : Char} {pattern : List Char} (ordinary : ¬ IsLikeWildcard c)
    (notEscape : c = '\\' → ∀ d, pattern.head? = some d → ¬ IsLikeWildcard d) :
    HasWildcard (c :: pattern) ↔ HasWildcard pattern := by
  have special : ∀ {before d after}, pattern = before ++ d :: after → IsLikeWildcard d →
      before = [] → c ≠ '\\' := by
    rintro before d after rfl wildcard rfl escape
    exact notEscape escape d rfl wildcard
  constructor
  · rintro ⟨before, d, after, split, wildcard, unescaped⟩
    cases before with
    | nil =>
        injection split with same
        exact absurd (same ▸ wildcard) ordinary
    | cons first before =>
        injection split with same split
        subst same
        exact ⟨before, d, after, split, wildcard,
          (getLast?_cons_ne_iff (special split wildcard)).mp unescaped⟩
  · rintro ⟨before, d, after, split, wildcard, unescaped⟩
    exact ⟨c :: before, d, after, by rw [split]; rfl, wildcard,
      (getLast?_cons_ne_iff (special split wildcard)).mpr unescaped⟩

/-- A wildcard behind a backslash does not count. -/
theorem hasWildcard_escaped_iff {c : Char} {pattern : List Char} (escaped : IsLikeWildcard c) :
    HasWildcard ('\\' :: c :: pattern) ↔ HasWildcard pattern := by
  have noEscape : c ≠ '\\' := by
    rintro rfl
    rcases escaped with same | same <;> cases same
  constructor
  · rintro ⟨before, d, after, split, wildcard, unescaped⟩
    cases before with
    | nil =>
        injection split with same
        rw [← same] at wildcard
        rcases wildcard with same | same <;> cases same
    | cons first before =>
        injection split with same split
        subst same
        cases before with
        | nil => simp at unescaped
        | cons second before =>
            injection split with same split
            subst same
            rw [List.getLast?_cons_cons] at unescaped
            exact ⟨before, d, after, split, wildcard,
              (getLast?_cons_ne_iff fun _ => noEscape).mp unescaped⟩
  · rintro ⟨before, d, after, split, wildcard, unescaped⟩
    refine ⟨'\\' :: c :: before, d, after, by rw [split]; rfl, wildcard, ?_⟩
    rw [List.getLast?_cons_cons]
    exact (getLast?_cons_ne_iff fun _ => noEscape).mpr unescaped

/-- A pattern stands for one text exactly when it has no wildcard. -/
theorem likeText?_eq_none_iff (pattern : List Char) :
    likeText? pattern = none ↔ HasWildcard pattern := by
  fun_induction likeText? pattern with
  | case1 =>
      simp only [reduceCtorEq, false_iff]
      rintro ⟨before, c, after, split, _⟩
      simp at split
  | case2 pattern ih => rw [Option.map_eq_none_iff, ih, hasWildcard_escaped_iff (.inl rfl)]
  | case3 pattern ih => rw [Option.map_eq_none_iff, ih, hasWildcard_escaped_iff (.inr rfl)]
  | case4 pattern => simp [hasWildcard_of_head (.inl rfl)]
  | case5 pattern => simp [hasWildcard_of_head (.inr rfl)]
  | case6 c pattern notEscapedMany notEscapedOne notMany notOne ih =>
      rw [Option.map_eq_none_iff, ih, hasWildcard_cons_iff]
      · rintro (same | same)
        · exact notMany same
        · exact notOne same
      · rintro escape d start
        obtain ⟨rest, rfl⟩ := List.head?_eq_some_iff.mp start
        rintro (rfl | rfl)
        · exact notEscapedMany rest escape rfl
        · exact notEscapedOne rest escape rfl

instance : DecidablePred HasWildcard := fun pattern =>
  decidable_of_iff _ (likeText?_eq_none_iff pattern)

/-- A pattern asks for equality with a text exactly when it stands for it. -/
theorem LikePattern.ofText_eq_exact_iff {pattern own : String} :
    ofText pattern = .exact own ↔ likeText? pattern.toList = some own.toList := by
  cases plain : likeText? pattern.toList with
  | none => simp [ofText_of_wild plain]
  | some text =>
      rw [ofText_of_plain plain, exact.injEq, Option.some.injEq, ← String.toList_inj,
        String.toList_ofList]

/-- The characters that end a line. -/
def IsLineBreak (c : Char) : Prop :=
  c = '\n' ∨ c = '\r'

instance : DecidablePred IsLineBreak := fun c =>
  inferInstanceAs (Decidable (c = '\n' ∨ c = '\r'))

/-- A pattern is turned into a text exactly when it has no wildcard, and then
matches that text alone.  Otherwise it is turned into a regular expression,
which can be read and matches the texts without line breaks that the pattern
matches, in every dialect in which a full stop stands for all characters but
line breaks, and perhaps for some of these. -/
theorem LikePattern.ofText_translates (pattern : String) :
    ((∃ own, ofText pattern = .exact own) ↔ ¬ HasWildcard pattern.toList) ∧
    (∀ own, ofText pattern = .exact own →
      ∀ text : String, LikeMatches pattern.toList text.toList ↔ text = own) ∧
    ((∃ written, ofText pattern = .regex written) ↔ HasWildcard pattern.toList) ∧
    (∀ written, ofText pattern = .regex written →
      ∃ regex, Regex.ofText? written = some regex ∧
        ∀ dot : Char → Prop, (∀ c, ¬ IsLineBreak c → dot c) →
          ∀ text : String, (∀ c ∈ text.toList, ¬ IsLineBreak c) →
            (regex.Matches dot text.toList ↔ LikeMatches pattern.toList text.toList)) := by
  have matchesOwn : ∀ own, ofText pattern = .exact own →
      ∀ text : String, LikeMatches pattern.toList text.toList ↔ text = own := by
    intro own asked text
    rw [likeMatches_iff_eq (ofText_eq_exact_iff.mp asked), String.toList_inj]
  cases plain : likeText? pattern.toList with
  | none =>
      have wild := (likeText?_eq_none_iff _).mp plain
      obtain ⟨written, regex, asked, read, same⟩ := exists_regex_of_wild plain
      refine ⟨⟨?_, fun tame => absurd wild tame⟩, matchesOwn,
        ⟨fun _ => wild, fun _ => ⟨written, asked⟩⟩, ?_⟩
      · rintro ⟨own, exact⟩
        rw [asked] at exact
        cases exact
      · intro other askedOther
        cases asked.symm.trans askedOther
        refine ⟨regex, read, ?_⟩
        intro dot stands text unbroken
        exact same dot text.toList fun c member => stands c (unbroken c member)
  | some own =>
      have tame : ¬ HasWildcard pattern.toList := by
        rw [← likeText?_eq_none_iff, plain]
        simp
      have asked := ofText_of_plain plain
      have noRegex : ∀ written, ofText pattern ≠ .regex written := by simp [asked]
      exact ⟨⟨fun _ => tame, fun _ => ⟨_, asked⟩⟩, matchesOwn,
        ⟨fun ⟨written, found⟩ => absurd found (noRegex written), fun wild => absurd wild tame⟩,
        fun written found => absurd found (noRegex written)⟩

/-- A pattern with an escaped wildcard, both wildcards and a hyphen, which a
regular expression writes behind a backslash. -/
theorem LikePattern.ofText_translates_discount :
    ofText "50\\%%-_" = .regex "^50%(.+)\\-.$" ∧
      ∃ regex, Regex.ofText? "^50%(.+)\\-.$" = some regex ∧
        regex.Matches (fun c => ¬ IsLineBreak c) "50%off-x".toList ∧
        ¬ regex.Matches (fun c => ¬ IsLineBreak c) "50%-x".toList := by
  have asked : ofText "50\\%%-_" = .regex "^50%(.+)\\-.$" := by decide +kernel
  obtain ⟨regex, read, same⟩ := (ofText_translates "50\\%%-_").2.2.2 _ asked
  have decides := same _ (fun _ notBreak => notBreak)
  refine ⟨asked, regex, read, ?_, ?_⟩
  · rw [decides "50%off-x" (by simp [IsLineBreak])]
    decide +kernel
  · rw [decides "50%-x" (by simp [IsLineBreak])]
    decide +kernel

end TripleTables

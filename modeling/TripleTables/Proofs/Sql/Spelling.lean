import TripleTables.Proofs.Sql.Agreement
import TripleTables.Proofs.Sql.Lowering

/-!
# Lexemes in another style

Every lexical reader agrees with itself on texts that differ in style only.
Keywords and operators are read from both texts or from neither; words and
numbers are the same but for the case of letters; and what is quoted is the same.
-/

namespace TripleTables.Sql

open Reader Lexer

variable {α γ : Type} {n m least : Nat}

/-! ## Blanks and characters -/

theorem spaces_agree : Agree n m 0 id spaces spaces := by
  constructor
  intro s t _ _ restyled
  exact .ok rfl restyled.dropWhile_isSpace (.of_suffix (List.dropWhile_suffix isSpace))
    (.of_suffix (List.dropWhile_suffix isSpace))

theorem token_agree {view : α → γ} {p q : Lexer α} (agree : Agree n m least view p q) :
    Agree n m least view (token p) (token q) :=
  spaces_agree.andThen fun _ _ _ =>
    agree.bind fun _ _ same => spaces_agree.bind fun _ _ _ => .pure same

theorem satisfy_of_absent {condition : Char → Bool} {s : List Char}
    (absent : s.head?.any condition = false) : satisfy condition s = .miss s := by
  cases s with
  | nil => rfl
  | cons c s =>
      have lacking : ¬ condition c = true := by simpa using absent
      simp [satisfy, lacking]

theorem satisfy_agree {condition : Char → Bool} (blind : CaseBlind condition) :
    Agree n m 1 Char.toLower (satisfy condition) (satisfy condition) := by
  constructor
  intro s t _ _ restyled
  rcases restyled.heads blind with
    ⟨c, s, d, t, rfl, rfl, given, other, same, rest⟩ | ⟨absent, otherAbsent⟩
  · simp only [satisfy, given, other, if_true]
    exact .ok same rest (Leaves.refl s).cons (Leaves.refl t).cons
  · rw [satisfy_of_absent absent, satisfy_of_absent otherAbsent]
    exact .here

/-- The character is a mark: no letter, no blank and no quote. -/
def isMark (c : Char) : Bool :=
  isPlain c && !c.isAlpha

theorem caseBlind_of_isMark {expected : Char} (mark : isMark expected = true) :
    CaseBlind (· == expected) := by
  simp only [isMark, Bool.and_eq_true, Bool.not_eq_true'] at mark
  exact caseBlind_beq mark.2 mark.1

theorem char_agree {expected : Char} (mark : isMark expected = true) :
    Agree n m 1 Char.toLower (char expected) (char expected) :=
  satisfy_agree (caseBlind_of_isMark mark)

theorem symbol_agree {expected : Char} (mark : isMark expected = true) :
    Agree n m 1 id (symbol expected) (symbol expected) :=
  (token_agree (char_agree mark)).bind fun _ _ _ => .pure rfl

/-! ## Given texts -/

/-- The rest of a text after characters that meet some conditions, one each. -/
def afterEach? : List (Char → Bool) → List Char → Option (List Char)
  | [], s => some s
  | _ :: _, [] => none
  | condition :: more, c :: rest => if condition c then afterEach? more rest else none

theorem afterText?_eq_afterEach? (expected s : List Char) :
    afterText? expected s = afterEach? (expected.map fun mark c => c == mark) s := by
  induction expected generalizing s with
  | nil => rfl
  | cons mark expected ih =>
      cases s with
      | nil => rfl
      | cons c s => simp only [afterText?, List.map_cons, afterEach?, ih]

theorem afterWord?_eq_afterEach? (expected s : List Char) :
    afterWord? expected s =
      afterEach? (expected.map fun letter c => c.toLower == letter.toLower) s := by
  induction expected generalizing s with
  | nil => rfl
  | cons letter expected ih =>
      cases s with
      | nil => rfl
      | cons c s => simp only [afterWord?, List.map_cons, afterEach?, ih]

theorem afterEach?_of_absent {condition : Char → Bool} {more : List (Char → Bool)} {s : List Char}
    (absent : s.head?.any condition = false) : afterEach? (condition :: more) s = none := by
  cases s with
  | nil => rfl
  | cons c s =>
      have lacking : ¬ condition c = true := by simpa using absent
      simp [afterEach?, lacking]

/-- Reads characters that meet some conditions, one each. -/
def each (conditions : List (Char → Bool)) : Lexer Unit :=
  fun s =>
    match afterEach? conditions s with
    | some rest => .ok () rest
    | none => .miss s

theorem afterEach?_restyled {conditions : List (Char → Bool)}
    (blind : ∀ condition ∈ conditions, CaseBlind condition) {s t : List Char}
    (restyled : Restyled s t) :
    afterEach? conditions s = none ∧ afterEach? conditions t = none ∨
      ∃ rest left, afterEach? conditions s = some rest ∧ afterEach? conditions t = some left ∧
        Restyled rest left ∧ Leaves conditions.length s rest ∧ Leaves conditions.length t left := by
  induction conditions generalizing s t with
  | nil => exact .inr ⟨s, t, rfl, rfl, restyled, .refl s, .refl t⟩
  | cons condition more ih =>
      rcases restyled.heads (blind condition (by simp)) with
        ⟨c, s, d, t, rfl, rfl, given, other, _, rest⟩ | ⟨absent, otherAbsent⟩
      · simp only [afterEach?, given, other, if_true]
        apply (ih (fun next member => blind next (by simp [member])) rest).imp_right
        rintro ⟨rest, left, read, otherRead, restyled, first, second⟩
        exact ⟨rest, left, read, otherRead, restyled, first.cons, second.cons⟩
      · exact .inl ⟨afterEach?_of_absent absent, afterEach?_of_absent otherAbsent⟩

theorem each_agree {conditions : List (Char → Bool)}
    (blind : ∀ condition ∈ conditions, CaseBlind condition) (some : conditions ≠ []) :
    Agree n m 1 id (each conditions) (each conditions) := by
  constructor
  intro s t _ _ restyled
  have atLeast : 1 ≤ conditions.length := List.length_pos_iff.mpr some
  unfold each
  rcases afterEach?_restyled blind restyled with
    ⟨read, otherRead⟩ | ⟨rest, left, read, otherRead, restyled, first, second⟩
  · rw [read, otherRead]
    exact .here
  · rw [read, otherRead]
    exact .ok rfl restyled (first.mono atLeast) (second.mono atLeast)

theorem text_eq_each (expected : String) :
    text expected = each (expected.toList.map fun mark c => c == mark) := by
  funext s
  rw [text, afterText?_eq_afterEach?]
  rfl

/-- The text is one or more marks. -/
def isMarks (expected : String) : Bool :=
  !expected.toList.isEmpty && expected.toList.all isMark

theorem text_agree {expected : String} (isMarks : isMarks expected = true) :
    Agree n m 1 id (text expected) (text expected) := by
  obtain ⟨some, marks⟩ := Bool.and_eq_true_iff.mp isMarks
  rw [text_eq_each]
  apply each_agree _ (by simpa using some)
  intro condition member
  obtain ⟨mark, isMember, rfl⟩ := List.mem_map.mp member
  exact caseBlind_of_isMark (List.all_eq_true.mp marks mark isMember)

theorem wordEnd_agree : Agree n m 0 id wordEnd wordEnd := by
  constructor
  intro s t _ _ restyled
  have heads := restyled.head?_any caseBlind_isWordChar
  unfold wordEnd
  rw [heads]
  split
  · exact .here
  · exact .ok rfl restyled (.refl s) (.refl t)

/-- A text that is torn is torn in every style. -/
theorem isTorn_of_restyled {s t : List Char} (restyled : Restyled s t) (torn : isTorn s = true) :
    isTorn t = true := by
  obtain ⟨l, i, rest, rfl, isL, isI, goesOn⟩ := exists_of_isTorn torn
  obtain ⟨l', _, rfl, sameL, afterL⟩ :=
    restyled.exists_of_plain (isPlain_of_isAlpha (isAlpha_of_toLower_eq rfl isL))
  obtain ⟨i', _, rfl, sameI, afterI⟩ :=
    afterL.exists_of_plain (isPlain_of_isAlpha (isAlpha_of_toLower_eq rfl isI))
  obtain ⟨sign, left, rfl, sameSign, afterSign⟩ := afterI.exists_of_plain (by decide)
  obtain rfl : kelvinSign = sign := eq_of_toLower_eq sameSign (by decide)
  have ending : left.head?.all (fun e => e.toLower == 'e') = true := by
    cases rest with
    | nil => rw [afterSign.eq_nil, List.head?_nil, Option.all_none]
    | cons e rest =>
        have isE : e.toLower = 'e' := goesOn e rfl
        obtain ⟨e', left, rfl, sameE, _⟩ :=
          afterSign.exists_of_plain (isPlain_of_isAlpha (isAlpha_of_toLower_eq rfl isE))
        simp [← sameE, isE]
  simp [isTorn, ← sameL, ← sameI, isL, isI, ending]

theorem wordText_agree {word : String} (isKeyword : isKeyword word = true) :
    Agree n m 1 id (wordText word) (wordText word) := by
  constructor
  intro s t sBound tBound restyled
  obtain ⟨⟨some, upper⟩, _⟩ : (¬ word.toList.isEmpty = true ∧
      ∀ letter ∈ word.toList, letter.isUpper = true) ∧ _ := by
    simpa only [Lexer.isKeyword, Bool.and_eq_true, Bool.not_eq_true', Bool.not_eq_true,
      List.all_eq_true] using isKeyword
  have blind : ∀ condition ∈ word.toList.map fun letter c => c.toLower == letter.toLower,
      CaseBlind condition := by
    intro condition member
    obtain ⟨letter, isMember, rfl⟩ := List.mem_map.mp member
    exact caseBlind_toLower_beq (isPlain_of_isAlpha (isAlpha_of_isUpper (upper letter isMember)))
  have atLeast : 1 ≤ word.toList.length := by
    rw [List.isEmpty_iff] at some
    exact List.length_pos_iff.mpr some
  have sameTear : isTorn s = isTorn t :=
    Bool.eq_iff_iff.mpr ⟨isTorn_of_restyled restyled, isTorn_of_restyled restyled.symm⟩
  rw [wordText_apply isKeyword, wordText_apply isKeyword, afterWord?_eq_afterEach?,
    afterWord?_eq_afterEach?]
  rcases afterEach?_restyled blind restyled with
    ⟨read, otherRead⟩ | ⟨rest, left, read, otherRead, restyled, first, second⟩
  · rw [read, otherRead]
    by_cases torn : word = "LIKE" ∧ isTorn t = true
    · simp only [sameTear, if_pos torn]
      exact .torn ⟨List.suffix_rfl, sameTear.trans torn.2⟩ ⟨List.suffix_rfl, torn.2⟩
    · simp only [sameTear, if_neg torn]
      exact .here
  · rw [read, otherRead]
    rw [List.length_map] at first second
    exact .ok rfl restyled (first.mono atLeast) (second.mono atLeast)

theorem keyword_agree {word : String} (isKeyword : isKeyword word = true) :
    Agree n m 1 id (keyword word) (keyword word) :=
  token_agree ((wordText_agree isKeyword).bind fun _ _ _ => wordEnd_agree)

/-- A keyword that stands for a value. -/
theorem keywordFor_agree {word : String} (value : α) (isKeyword : isKeyword word = true) :
    Agree n m 1 id (do keyword word; return value) (do keyword word; return value) :=
  (keyword_agree isKeyword).bind fun _ _ _ => .pure rfl

/-! ## Words -/

theorem word_of_absent {condition : List Char → Bool} {s : List Char}
    (absent : s.head?.any isWordStart = false) : word condition s = .miss s := by
  cases s with
  | nil => rfl
  | cons c s =>
      have lacking : ¬ isWordStart c = true := by simpa using absent
      simp [word, lacking]

theorem word_agree {condition : List Char → Bool}
    (blind : ∀ {found other : List Char}, SameLetters found other →
      condition found = condition other) :
    Agree n m 1 String.toLower (word condition) (word condition) := by
  constructor
  intro s t _ _ restyled
  rcases restyled.heads caseBlind_isWordStart with
    ⟨c, s, d, t, rfl, rfl, given, other, same, rest⟩ | ⟨absent, otherAbsent⟩
  · obtain ⟨run, rest⟩ := rest.run caseBlind_isWordChar
    have letters : SameLetters (c :: s.takeWhile isWordChar) (d :: t.takeWhile isWordChar) :=
      run.cons same
    simp only [word, given, other, Bool.true_and, blind letters]
    split
    · exact .ok (toLower_ofList_eq_iff.mpr letters) rest
        (Leaves.of_suffix (List.dropWhile_suffix isWordChar)).cons
        (Leaves.of_suffix (List.dropWhile_suffix isWordChar)).cons
    · exact .here
  · rw [word_of_absent absent, word_of_absent otherAbsent]
    exact .here

/-! ## Quoted texts -/

theorem unquote_append {quote : Char} {body rest : List Char} (inside : quote ∉ body)
    (goesOn : rest ≠ []) :
    unquote quote (body ++ rest) =
      (unquote quote rest).map fun found => (body ++ found.1, found.2) := by
  induction body with
  | nil => simp
  | cons c body ih =>
      obtain ⟨different, inside⟩ : c ≠ quote ∧ quote ∉ body := by simpa [eq_comm] using inside
      rw [List.cons_append, unquote_cons_of_ne different (by simp [goesOn]), ih inside,
        Option.map_map]
      rfl

theorem unquote_eq_none {quote : Char} {s : List Char} (absent : quote ∉ s) :
    unquote quote s = none := by
  cases s using List.reverseRecOn with
  | nil => rfl
  | append_singleton body c =>
      obtain ⟨inside, different⟩ : quote ∉ body ∧ c ≠ quote := by simpa [eq_comm] using absent
      simp [unquote_append inside, unquote, different]

theorem unquote_quote_quote (quote : Char) (rest : List Char) :
    unquote quote (quote :: quote :: rest) =
      (unquote quote rest).map fun found => ([quote] ++ found.1, found.2) := by
  simp only [unquote, if_true]
  rfl

theorem leaves_of_unquote {quote : Char} {s : List Char} {found : List Char × List Char}
    (read : unquote quote s = some found) : Leaves 1 s found.2 := by
  fun_induction unquote quote s generalizing found with
  | case1 => cases read
  | case2 =>
      cases read
      exact (Leaves.refl []).cons
  | case3 => cases read
  | case4 rest ih =>
      obtain ⟨inner, innerRead, rfl⟩ := Option.map_eq_some_iff.mp read
      exact ((ih innerRead).cons.cons).mono (by omega)
  | case5 d rest _ =>
      cases read
      exact (Leaves.refl (d :: rest)).cons
  | case6 c d rest _ ih =>
      obtain ⟨inner, innerRead, rfl⟩ := Option.map_eq_some_iff.mp read
      exact ((ih innerRead).cons).mono (by omega)

/-- The same has been split off two texts, as far as `look` tells, and what is left
differs in style only. -/
def SplitAlike {γ : Type} (look : List Char → γ) (found other : List Char × List Char) : Prop :=
  look found.1 = look other.1 ∧ Restyled found.2 other.2

theorem splitAlike_map_append {found other : Option (List Char × List Char)} (body : List Char)
    (alike : Option.Rel (SplitAlike id) found other) :
    Option.Rel (SplitAlike id) (found.map fun read => (body ++ read.1, read.2))
      (other.map fun read => (body ++ read.1, read.2)) := by
  cases alike with
  | none => exact .none
  | some alike => exact .some ⟨congrArg (body ++ ·) alike.1, alike.2⟩

namespace Restyled

variable {quote : Char} {s t : List Char}

/-- A quote ends the quoted text, unless it is doubled. -/
theorem unquote_quote (isQuote : isQuote quote = true) (restyled : Restyled s t)
    (doubled : ∀ s' t', s = quote :: s' → t = quote :: t' →
      Option.Rel (SplitAlike id) (unquote quote s') (unquote quote t')) :
    Option.Rel (SplitAlike id) (unquote quote (quote :: s)) (unquote quote (quote :: t)) := by
  cases s with
  | nil =>
      rw [restyled.eq_nil]
      simp only [unquote, if_true]
      exact .some ⟨rfl, .nil⟩
  | cons d s =>
      by_cases again : d = quote
      · subst d
        obtain ⟨t, rfl⟩ := restyled.exists_of_quote isQuote
        rw [unquote_quote_quote, unquote_quote_quote]
        exact splitAlike_map_append [quote] (doubled s t rfl rfl)
      · cases t with
        | nil => cases restyled.symm.eq_nil
        | cons e t =>
            have different : e ≠ quote := by
              rintro rfl
              obtain ⟨_, same⟩ := restyled.symm.exists_of_quote isQuote
              exact again (List.cons.inj same).1
            simp only [unquote, again, different, if_true, if_false]
            exact .some ⟨rfl, restyled⟩

/-- What is quoted is the same in both texts. -/
theorem unquote (isQuote : isQuote quote = true) (restyled : Restyled (quote :: s) (quote :: t)) :
    Option.Rel (SplitAlike id) (unquote quote s) (unquote quote t) := by
  induction length : s.length using Nat.strong_induction_on generalizing s t with
  | h size ih =>
      subst length
      cases restyled with
      | plain plain _ _ =>
          rw [isQuote_eq_false_of_isPlain plain] at isQuote
          cases isQuote
      | blanks space _ _ =>
          rw [isSpace_eq_false_of_isQuote isQuote] at space
          cases space
      | quoted _ inside rest =>
          rw [unquote_append inside (by simp), unquote_append inside (by simp)]
          apply splitAlike_map_append
          apply rest.unquote_quote isQuote
          rintro s' t' rfl rfl
          exact ih s'.length (by simp; omega) rest rfl
      | unclosed _ first second _ =>
          rw [unquote_eq_none first, unquote_eq_none second]
          exact .none

end Restyled

theorem quoted_of_head?_ne {quote : Char} {s : List Char} (absent : s.head? ≠ some quote) :
    quoted quote s = .miss s := by
  cases s with
  | nil => rfl
  | cons c s =>
      have different : c ≠ quote := by simpa using absent
      simp [quoted, different]

theorem quoted_agree {quote : Char} (isQuote : isQuote quote = true) :
    Agree n m 1 id (quoted quote) (quoted quote) := by
  constructor
  intro s t _ _ restyled
  by_cases first : s.head? = some quote
  · obtain ⟨s, rfl⟩ := List.head?_eq_some_iff.mp first
    obtain ⟨t, rfl⟩ := restyled.exists_of_quote isQuote
    have alike := restyled.unquote isQuote
    simp only [quoted, if_true]
    generalize read : unquote quote s = found at alike
    generalize otherRead : unquote quote t = other at alike
    cases alike with
    | none => exact .here
    | some alike =>
        exact .ok (congrArg String.ofList alike.1) alike.2
          ((leaves_of_unquote read).cons.mono (by omega))
          ((leaves_of_unquote otherRead).cons.mono (by omega))
  · have second : t.head? ≠ some quote := by
      intro second
      obtain ⟨t, rfl⟩ := List.head?_eq_some_iff.mp second
      obtain ⟨_, rfl⟩ := restyled.symm.exists_of_quote isQuote
      exact first rfl
    rw [quoted_of_head?_ne first, quoted_of_head?_ne second]
    exact .here

theorem string_agree : Agree n m 1 id string string :=
  token_agree (quoted_agree (by decide))

/-! ## Identifiers -/

theorem identifier_agree : Agree n m 1 String.toLower identifier identifier := by
  have anyQuoted : ∀ {quote : Char}, isQuote quote = true →
      Agree n m 1 String.toLower (quoted quote) (quoted quote) := by
    intro quote isQuote
    exact (quoted_agree isQuote).coarsen fun _ _ same => congrArg String.toLower same
  refine token_agree ((word_agree ?_).firstOf
    (.cons (anyQuoted (by decide)) (.cons (anyQuoted (by decide)) .nil)))
  intro found other same
  rw [isReserved_of_sameLetters same]

theorem objectName_agree : Agree n m 1 ObjectName.lowered objectName objectName :=
  identifier_agree.separatedList1 (char_agree (by decide)) ⟨_, rfl⟩

theorem asName_agree : Agree n m 1 String.toLower asName asName :=
  (keyword_agree (by decide)).optional.andThen fun _ _ _ => identifier_agree

/-! ## Numbers -/

theorem Restyled.takeDigits {s t : List Char} (restyled : Restyled s t) :
    SameLetters (takeDigits s).1 (takeDigits t).1 ∧
      Restyled (takeDigits s).2 (takeDigits t).2 :=
  restyled.run caseBlind_isDigit

section Mantissa

variable {s rest : List Char}

theorem takeMantissa_point (point : s.dropWhile Char.isDigit = '.' :: rest) :
    takeMantissa s =
      if s.takeWhile Char.isDigit = [] ∧ rest.takeWhile Char.isDigit = [] then none
      else some (s.takeWhile Char.isDigit ++ '.' :: rest.takeWhile Char.isDigit,
        rest.dropWhile Char.isDigit) := by
  unfold takeMantissa takeDigits
  rw [point]
  cases s.takeWhile Char.isDigit with
  | nil => cases fraction : rest.takeWhile Char.isDigit <;> simp [fraction]
  | cons c whole => simp

theorem takeMantissa_whole (noPoint : (s.dropWhile Char.isDigit).head?.any (· == '.') = false) :
    takeMantissa s =
      if s.takeWhile Char.isDigit = [] then none
      else some (s.takeWhile Char.isDigit, s.dropWhile Char.isDigit) := by
  unfold takeMantissa takeDigits
  generalize s.dropWhile Char.isDigit = left at noPoint
  cases left with
  | nil => cases s.takeWhile Char.isDigit <;> simp
  | cons c left =>
      have different : c ≠ '.' := by simpa using noPoint
      cases s.takeWhile Char.isDigit <;> simp [different]

theorem append_of_takeMantissa {found : List Char × List Char}
    (taken : takeMantissa s = some found) : found.1 ++ found.2 = s := by
  rcases absent_or_eq_cons '.' (s.dropWhile Char.isDigit) with noPoint | ⟨rest, point⟩
  · rw [takeMantissa_whole noPoint] at taken
    split at taken
    · cases taken
    · cases taken
      exact List.takeWhile_append_dropWhile
  · rw [takeMantissa_point point] at taken
    split at taken
    · cases taken
    · cases taken
      rw [List.append_assoc, List.cons_append, List.takeWhile_append_dropWhile, ← point,
        List.takeWhile_append_dropWhile]

theorem leaves_of_takeMantissa {found : List Char × List Char}
    (taken : takeMantissa s = some found) : Leaves 1 s found.2 := by
  obtain ⟨c, more, first, _⟩ := (isMantissa_of_takeMantissa taken).head
  rw [← append_of_takeMantissa taken, first]
  exact (Leaves.of_suffix (List.suffix_append more found.2)).cons

end Mantissa

theorem Restyled.takeMantissa {s t : List Char} (restyled : Restyled s t) :
    Option.Rel (SplitAlike (List.map Char.toLower)) (takeMantissa s) (takeMantissa t) := by
  obtain ⟨whole, rest⟩ := restyled.run caseBlind_isDigit
  rcases rest.heads (caseBlind_of_isMark (by decide : isMark '.' = true)) with
    ⟨c, left, d, otherLeft, point, otherPoint, isPoint, otherIsPoint, _, rest⟩ |
      ⟨absent, otherAbsent⟩
  · rw [beq_iff_eq.mp isPoint] at point
    rw [beq_iff_eq.mp otherIsPoint] at otherPoint
    obtain ⟨fraction, rest⟩ := rest.run caseBlind_isDigit
    rw [takeMantissa_point point, takeMantissa_point otherPoint]
    simp only [whole.eq_nil_iff, fraction.eq_nil_iff]
    split
    · exact .none
    · exact .some ⟨whole.append (fraction.cons rfl), rest⟩
  · rw [takeMantissa_whole absent, takeMantissa_whole otherAbsent]
    simp only [whole.eq_nil_iff]
    split
    · exact .none
    · exact .some ⟨whole, rest⟩

/-! ### Exponents -/

theorem eq_or_eq_of_toLower_eq {c : Char} (small : c.toLower = 'e') : c = 'e' ∨ c = 'E' := by
  by_cases upper : c.isUpper = true
  · right
    calc
      c = c.toUpper := (Char.toUpper_eq_of_not_isLower (Char.not_isLower_of_isUpper upper)).symm
      _ = c.toLower.toUpper := (Char.toUpper_toLower_eq_toUpper c).symm
      _ = 'E' := by rw [small]; decide
  · left
    rw [← small, Char.toLower_eq_of_not_isUpper upper]

/-- The mark of an exponent has two cases. -/
theorem caseBlind_mark : CaseBlind fun c => c == 'e' || c == 'E' := by
  have either : (fun c : Char => c == 'e' || c == 'E') = fun c => c.toLower == 'e'.toLower := by
    funext c
    rw [Bool.eq_iff_iff, Bool.or_eq_true, beq_iff_eq, beq_iff_eq, beq_iff_eq]
    constructor
    · rintro (rfl | rfl) <;> decide
    · exact eq_or_eq_of_toLower_eq
  rw [either]
  exact caseBlind_toLower_beq (by decide)

theorem takeSign_of_absent {s : List Char} (noPlus : s.head?.any (· == '+') = false)
    (noMinus : s.head?.any (· == '-') = false) : takeSign s = ([], s) := by
  unfold takeSign
  split
  · cases noPlus
  · cases noMinus
  · rfl

theorem append_takeSign (s : List Char) : (takeSign s).1 ++ (takeSign s).2 = s := by
  unfold takeSign
  split <;> rfl

theorem Restyled.takeSign {s t : List Char} (restyled : Restyled s t) :
    SplitAlike (List.map Char.toLower) (takeSign s) (takeSign t) := by
  rcases restyled.heads (caseBlind_of_isMark (by decide : isMark '+' = true)) with
    ⟨c, s, d, t, rfl, rfl, plus, otherPlus, _, rest⟩ | ⟨noPlus, otherNoPlus⟩
  · rw [beq_iff_eq.mp plus, beq_iff_eq.mp otherPlus]
    exact ⟨rfl, rest⟩
  · rcases restyled.heads (caseBlind_of_isMark (by decide : isMark '-' = true)) with
      ⟨c, s, d, t, rfl, rfl, minus, otherMinus, _, rest⟩ | ⟨noMinus, otherNoMinus⟩
    · rw [beq_iff_eq.mp minus, beq_iff_eq.mp otherMinus]
      exact ⟨rfl, rest⟩
    · rw [takeSign_of_absent noPlus noMinus, takeSign_of_absent otherNoPlus otherNoMinus]
      exact ⟨rfl, restyled⟩

theorem takeExponent_of_absent {s : List Char}
    (noMark : s.head?.any (fun c => c == 'e' || c == 'E') = false) : takeExponent s = ([], s) := by
  cases s with
  | nil => rfl
  | cons c s =>
      have lacking : ¬ (c == 'e' || c == 'E') = true := by simpa using noMark
      simp [takeExponent, lacking]

theorem takeExponent_mark {mark : Char} {s : List Char}
    (isMark : (mark == 'e' || mark == 'E') = true) :
    takeExponent (mark :: s) =
      if (takeDigits (takeSign s).2).1 = [] then ([], mark :: s)
      else (mark :: (takeSign s).1 ++ (takeDigits (takeSign s).2).1,
        (takeDigits (takeSign s).2).2) := by
  simp only [takeExponent, isMark, if_true]
  cases (takeDigits (takeSign s).2) with
  | mk digits left => cases digits <;> simp

theorem append_takeExponent (s : List Char) : (takeExponent s).1 ++ (takeExponent s).2 = s := by
  cases s with
  | nil => rfl
  | cons c s =>
      by_cases isMark : (c == 'e' || c == 'E') = true
      · rw [takeExponent_mark isMark]
        split
        · rfl
        · simp [takeDigits, List.takeWhile_append_dropWhile, append_takeSign]
      · rw [takeExponent_of_absent (by simpa using isMark)]
        rfl

theorem Restyled.takeExponent {s t : List Char} (restyled : Restyled s t) :
    SplitAlike (List.map Char.toLower) (takeExponent s) (takeExponent t) := by
  rcases restyled.heads caseBlind_mark with
    ⟨c, s, d, t, rfl, rfl, isMark, otherIsMark, same, rest⟩ | ⟨absent, otherAbsent⟩
  · obtain ⟨sign, afterSign⟩ := rest.takeSign
    obtain ⟨digits, left⟩ := afterSign.takeDigits
    rw [takeExponent_mark isMark, takeExponent_mark otherIsMark]
    by_cases none : (Lexer.takeDigits (Lexer.takeSign t).2).1 = []
    · rw [if_pos (digits.eq_nil_iff.mpr none), if_pos none]
      exact ⟨rfl, restyled⟩
    · rw [if_neg (digits.eq_nil_iff.not.mpr none), if_neg none]
      exact ⟨SameLetters.append (SameLetters.cons same sign) digits, left⟩
  · rw [takeExponent_of_absent absent, takeExponent_of_absent otherAbsent]
    exact ⟨rfl, restyled⟩

/-! ### Whole numbers -/

theorem number_agree : Agree n m 1 (List.map Char.toLower) number number := by
  apply token_agree
  constructor
  intro s t _ _ restyled
  have alike := restyled.takeMantissa
  generalize taken : takeMantissa s = found at alike
  generalize otherTaken : takeMantissa t = other at alike
  cases alike with
  | none => exact .here
  | some alike =>
      obtain ⟨exponent, rest⟩ := alike.2.takeExponent
      have afterExponent : ∀ left : List Char, Leaves 0 left (takeExponent left).2 := by
        intro left
        exact .of_suffix ⟨_, append_takeExponent left⟩
      exact .ok (SameLetters.append alike.1 exponent) rest
        ((leaves_of_takeMantissa taken).trans (afterExponent _))
        ((leaves_of_takeMantissa otherTaken).trans (afterExponent _))

theorem digits_apply (s : List Char) :
    digits s =
      if (takeDigits s).1 = [] then .miss s else .ok (takeDigits s).1 (takeDigits s).2 := by
  unfold digits
  cases takeDigits s with
  | mk found left => cases found <;> rfl

theorem leaves_of_takeDigits {s : List Char} (some : (takeDigits s).1 ≠ []) :
    Leaves 1 s (takeDigits s).2 := by
  cases s with
  | nil => exact absurd rfl some
  | cons c s =>
      have isDigit : c.isDigit = true := by
        by_contra noDigit
        exact some (List.takeWhile_cons_of_neg noDigit)
      rw [takeDigits, List.dropWhile_cons_of_pos isDigit]
      exact (Leaves.of_suffix (List.dropWhile_suffix Char.isDigit)).cons

theorem digits_agree : Agree n m 1 id digits digits := by
  constructor
  intro s t _ _ restyled
  obtain ⟨letters, rest⟩ := restyled.takeDigits
  have same : (takeDigits s).1 = (takeDigits t).1 :=
    eq_of_sameLetters_of_isDigit letters (List.all_eq_true.mpr (takeDigits_fst s))
  rw [digits_apply, digits_apply]
  by_cases none : (takeDigits t).1 = []
  · rw [if_pos none, if_pos (same.trans none)]
    exact .here
  · have some : (takeDigits s).1 ≠ [] := same ▸ none
    rw [if_neg none, if_neg some]
    exact .ok same rest (leaves_of_takeDigits some) (leaves_of_takeDigits none)

theorem rowCount_agree : Agree n m 1 id rowCount rowCount := by
  constructor
  intro s t sBound tBound restyled
  have matched := (token_agree digits_agree).matched sBound tBound restyled
  unfold rowCount
  generalize token digits s = a at matched
  generalize token digits t = b at matched
  cases matched with
  | @ok found _ _ _ same restyled first second =>
      cases same
      by_cases small : digitsValue found ≤ maxRows
      · simp only [small, if_true]
        exact .ok rfl restyled first second
      · simp only [small, if_false]
        exact .here
  | miss first second => exact .miss first second
  | halt first second => exact .halt first second
  | torn first second => exact .torn first second

end TripleTables.Sql

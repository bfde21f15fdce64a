import TripleTables.Proofs.Sql.Lexeme

/-!
# Keywords

A keyword is compared with a text character by character, by small letters, but cut off
after as many bytes as it has.  For ASCII letters the two come to the same.  The kelvin
sign, which has three bytes, counts as a K; LIKE is the one keyword with a K, and its cut
falls inside the sign.  `isTorn` says at which texts that happens, and `wordText_apply`
that reading a keyword is comparing its letters everywhere else.
-/

namespace TripleTables.Sql

open Reader Lexer

/-! ## Letters -/

theorem isAlpha_eq_of_toLower_eq {c a : Char} (same : c.toLower = a.toLower) :
    c.isAlpha = a.isAlpha := by
  rw [← Char.isAlpha_toLower_eq_isAlpha c, same, Char.isAlpha_toLower_eq_isAlpha]

theorem isAlpha_of_isUpper {a : Char} (upper : a.isUpper = true) : a.isAlpha = true := by
  simp [Char.isAlpha, upper]

/-- What is no letter is no letter of a keyword in either case. -/
theorem toLower_ne_toLower {c a : Char} (noLetter : c.isAlpha = false) (upper : a.isUpper = true) :
    c.toLower ≠ a.toLower := by
  intro same
  have letter := isAlpha_of_isUpper upper
  rw [← isAlpha_eq_of_toLower_eq same, noLetter] at letter
  cases letter

theorem isAlpha_eq_false_of_isDigit {c : Char} (isDigit : c.isDigit = true) :
    c.isAlpha = false := by
  have low : c.val.toNat ≤ 57 := by
    simp only [Char.isDigit, Bool.and_eq_true, decide_eq_true_eq] at isDigit
    exact UInt32.le_iff_toNat_le.mp isDigit.2
  by_contra letter
  simp only [Char.isAlpha, Char.isUpper, Char.isLower, Bool.not_eq_false, Bool.or_eq_true,
    Bool.and_eq_true, decide_eq_true_eq] at letter
  rcases letter with ⟨upper, _⟩ | ⟨lower, _⟩
  · have : 65 ≤ c.val.toNat := UInt32.le_iff_toNat_le.mp upper
    omega
  · have : 97 ≤ c.val.toNat := UInt32.le_iff_toNat_le.mp lower
    omega

/-- A letter is one byte. -/
theorem utf8Size_of_isAlpha {c : Char} (letter : c.isAlpha = true) : c.utf8Size = 1 := by
  refine Char.utf8Size_eq_one_iff.mpr (UInt32.le_iff_toNat_le.mpr ?_)
  simp only [Char.isAlpha, Char.isUpper, Char.isLower, Bool.or_eq_true, Bool.and_eq_true,
    decide_eq_true_eq] at letter
  rcases letter with ⟨_, upper⟩ | ⟨_, lower⟩
  · exact (UInt32.le_iff_toNat_le.mp upper).trans (by decide)
  · exact (UInt32.le_iff_toNat_le.mp lower).trans (by decide)

theorem lowered_of_isAlpha {c : Char} (letter : c.isAlpha = true) : lowered c = c.toLower := by
  refine if_neg ?_
  rintro rfl
  exact absurd letter (by decide)

/-! ## Words -/

namespace Lexer

/-- The word is written in capital letters, none of which is a K unless the word is
LIKE. -/
def isKeyword (word : String) : Bool :=
  !word.toList.isEmpty && word.toList.all Char.isUpper &&
    (word == "LIKE" || !word.toList.contains 'K')

/-- The rest of a text after a word, compared letter by letter in any case. -/
def afterWord? : List Char → List Char → Option (List Char)
  | [], s => some s
  | _ :: _, [] => none
  | expected :: more, c :: rest =>
      if c.toLower == expected.toLower then afterWord? more rest else none

/-- The text starts like LIKE with the kelvin sign for its K, and ends there or goes on
with an E. -/
def isTorn : List Char → Bool
  | l :: i :: k :: rest =>
      l.toLower == 'l' && i.toLower == 'i' && k == kelvinSign &&
        rest.head?.all (fun e => e.toLower == 'e')
  | _ => false

/-- Two letters stand before the sign. -/
theorem exists_of_isTorn {s : List Char} (torn : isTorn s = true) :
    ∃ l i rest, s = l :: i :: kelvinSign :: rest ∧ l.toLower = 'l' ∧ i.toLower = 'i' ∧
      ∀ e ∈ rest.head?, e.toLower = 'e' := by
  unfold isTorn at torn
  split at torn
  · rename_i l i k rest
    simp only [Bool.and_eq_true, beq_iff_eq, Option.all_eq_true] at torn
    obtain ⟨⟨⟨isL, isI⟩, rfl⟩, goesOn⟩ := torn
    exact ⟨l, i, rest, rfl, isL, isI, goesOn⟩
  · contradiction

theorem isAlpha_of_toLower_eq {c a : Char} (letter : a.isAlpha = true) (same : c.toLower = a) :
    c.isAlpha = true := by
  rw [← Char.isAlpha_toLower_eq_isAlpha c, same, letter]

/-- The sign is the first character of such a text that no word can hold. -/
theorem head?_dropWhile_of_isTorn {s : List Char} (torn : isTorn s = true) :
    (s.dropWhile isWordChar).head? = some kelvinSign := by
  obtain ⟨l, i, rest, rfl, isL, isI, _⟩ := exists_of_isTorn torn
  have inside : ∀ c ∈ [l, i], isWordChar c = true := by
    simp [isWordChar, Char.isAlphanum, isAlpha_of_toLower_eq rfl isL,
      isAlpha_of_toLower_eq rfl isI]
  have outside : isWordChar kelvinSign = false := by decide
  have run : (l :: i :: kelvinSign :: rest).dropWhile isWordChar = kelvinSign :: rest :=
    dropWhile_run inside (by simpa using outside)
  rw [run, List.head?_cons]

/-- What a cut after a word leaves of a text: nothing is said of a text that starts
otherwise, and a cut inside a character leaves nothing. -/
def wordCut (letters s : List Char) : Option (Option (List Char)) :=
  if startsAlike letters s && decide (byteCount letters ≤ byteCount s) then
    some (afterBytes? (byteCount letters) s)
  else none

theorem wordText_eq_wordCut (word : String) (s : List Char) :
    wordText word s =
      match wordCut word.toList s with
      | none => .miss s
      | some none => .torn s
      | some (some rest) => .ok () rest := by
  rw [wordText, wordCut, Bool.cond_eq_ite]
  split
  · cases afterBytes? (byteCount word.toList) s <;> rfl
  · rfl

section Cuts

variable {letter c : Char} {letters s : List Char}

@[simp]
theorem byteCount_nil : byteCount [] = 0 :=
  rfl

@[simp]
theorem byteCount_cons (c : Char) (s : List Char) :
    byteCount (c :: s) = c.utf8Size + byteCount s :=
  rfl

@[simp]
theorem wordCut_nil (s : List Char) : wordCut [] s = some (some s) := by
  simp [wordCut, startsAlike, byteCount, afterBytes?]

@[simp]
theorem wordCut_end (letter : Char) (letters : List Char) :
    wordCut (letter :: letters) [] = none := by
  simp [wordCut, letter.utf8Size_pos.ne']

/-- Only the kelvin sign counts as a letter that it is not. -/
theorem lowered_beq_lowered (upper : letter.isUpper = true)
    (noSign : c = kelvinSign → letter ≠ 'K') :
    (lowered c == lowered letter) = (c.toLower == letter.toLower) := by
  rw [lowered_of_isAlpha (isAlpha_of_isUpper upper)]
  by_cases sign : c = kelvinSign
  · have noLetter : c.isAlpha = false := by
      rw [sign]
      decide
    have noK : 'k' ≠ letter.toLower := by
      intro same
      apply noSign sign
      calc
        letter = letter.toUpper :=
          (Char.toUpper_eq_of_not_isLower (Char.not_isLower_of_isUpper upper)).symm
        _ = letter.toLower.toUpper := (Char.toUpper_toLower_eq_toUpper letter).symm
        _ = 'K' := by rw [← same]; rfl
    rw [lowered, if_pos sign, beq_eq_false_iff_ne.mpr noK,
      beq_eq_false_iff_ne.mpr (toLower_ne_toLower noLetter upper)]
  · rw [lowered, if_neg sign]

/-- A letter in either case is cut off, as it is one byte.  Any other character decides
the matter, unless it is the kelvin sign for a K. -/
theorem wordCut_cons (upper : letter.isUpper = true) (noSign : c = kelvinSign → letter ≠ 'K') :
    wordCut (letter :: letters) (c :: s) =
      if c.toLower == letter.toLower then wordCut letters s else none := by
  rw [wordCut, startsAlike, lowered_beq_lowered upper noSign]
  by_cases same : c.toLower = letter.toLower
  · have isLetter := isAlpha_of_isUpper upper
    have isLetterToo : c.isAlpha = true := (isAlpha_eq_of_toLower_eq same).trans isLetter
    simp [wordCut, same, utf8Size_of_isAlpha isLetter, utf8Size_of_isAlpha isLetterToo,
      Nat.add_comm 1, afterBytes?]
  · simp [same]

/-- The letters of a word without a K are compared one by one. -/
theorem wordCut_eq_afterWord? (upper : ∀ letter ∈ letters, letter.isUpper = true)
    (noK : 'K' ∉ letters) (s : List Char) :
    wordCut letters s = (afterWord? letters s).map some := by
  induction letters generalizing s with
  | nil => simp [afterWord?]
  | cons letter letters ih =>
      obtain ⟨isUpper, upper⟩ := List.forall_mem_cons.mp upper
      obtain ⟨isOther, noK⟩ := not_or.mp (mt List.mem_cons.mpr noK)
      cases s with
      | nil => simp [afterWord?]
      | cons c s =>
          rw [wordCut_cons isUpper fun _ => Ne.symm isOther, afterWord?, ih upper noK]
          split <;> rfl

/-- The bytes of a word with a K end inside the kelvin sign. -/
theorem wordCut_kelvinSign (s : List Char) :
    wordCut ['K', 'E'] (kelvinSign :: s) =
      if s.head?.all (fun e => e.toLower == 'e') then some none else none := by
  have long : byteCount ['K', 'E'] ≤ byteCount (kelvinSign :: s) :=
    (by decide : byteCount ['K', 'E'] ≤ byteCount [kelvinSign]).trans
      (by simp)
  have inside : afterBytes? (byteCount ['K', 'E']) (kelvinSign :: s) = none := rfl
  have alike : startsAlike ['K', 'E'] (kelvinSign :: s) =
      s.head?.all (fun e => e.toLower == 'e') := by
    have sign : (lowered kelvinSign == lowered 'K') = true := by decide
    rw [startsAlike, sign, Bool.true_and]
    cases s with
    | nil => rfl
    | cons e s =>
        rw [startsAlike, lowered_beq_lowered rfl fun _ => by decide, startsAlike, Bool.and_true]
        rfl
  rw [wordCut, alike, decide_eq_true long, Bool.and_true, inside]

/-- A text that is torn does not start with the letters of LIKE. -/
theorem afterWord?_of_isTorn (torn : isTorn s = true) :
    afterWord? ['L', 'I', 'K', 'E'] s = none := by
  obtain ⟨l, i, rest, rfl, _⟩ := exists_of_isTorn torn
  have other : ¬ kelvinSign.toLower = 'k' := by decide
  simp [afterWord?, other]

/-- LIKE is compared letter by letter, unless the kelvin sign stands for its K. -/
theorem wordCut_like (s : List Char) :
    wordCut ['L', 'I', 'K', 'E'] s =
      if isTorn s = true then some none else (afterWord? ['L', 'I', 'K', 'E'] s).map some := by
  match s with
  | [] => simp [isTorn, afterWord?]
  | [c] => simp [wordCut_cons, isTorn, afterWord?]
  | [c, d] => simp [wordCut_cons, isTorn, afterWord?]
  | c :: d :: k :: s =>
      by_cases sign : k = kelvinSign
      · subst k
        have other : ¬ kelvinSign.toLower = 'k' := by decide
        by_cases isL : c.toLower = 'l' <;> by_cases isI : d.toLower = 'i' <;>
          simp [wordCut_cons, wordCut_kelvinSign, isTorn, afterWord?, isL, isI, other]
      · have tail : wordCut ['E'] s = (afterWord? ['E'] s).map some :=
          wordCut_eq_afterWord? (by simp) (by simp) s
        by_cases isL : c.toLower = 'l' <;> by_cases isI : d.toLower = 'i' <;>
          by_cases isK : k.toLower = 'k' <;>
            simp [wordCut_cons, isTorn, afterWord?, sign, isL, isI, isK, tail]

end Cuts

/-- Reading the text of a keyword is comparing its letters, except where the text is
torn. -/
theorem wordText_apply {word : String} (isKeyword : isKeyword word = true) (s : List Char) :
    wordText word s =
      match afterWord? word.toList s with
      | some rest => .ok () rest
      | none => if word = "LIKE" ∧ isTorn s = true then .torn s else .miss s := by
  simp only [Lexer.isKeyword, Bool.and_eq_true, Bool.or_eq_true, beq_iff_eq,
    List.all_eq_true] at isKeyword
  obtain ⟨⟨_, upper⟩, isLike | noK⟩ := isKeyword
  · subst word
    have letters : "LIKE".toList = ['L', 'I', 'K', 'E'] := rfl
    rw [wordText_eq_wordCut, letters, wordCut_like]
    by_cases torn : isTorn s = true
    · simp [torn, afterWord?_of_isTorn torn]
    · cases afterWord? ['L', 'I', 'K', 'E'] s <;> simp [torn]
  · rw [wordText_eq_wordCut, wordCut_eq_afterWord? upper (by simpa using noK)]
    have other : word ≠ "LIKE" := by
      rintro rfl
      exact absurd noK (by decide)
    cases afterWord? word.toList s with
    | none => simp [other]
    | some rest => rfl

/-- A keyword has to be followed by the end of a word. -/
theorem keyword_apply {word : String} (isKeyword : isKeyword word = true) (s : List Char) :
    keyword word s =
      match afterWord? word.toList (s.dropWhile isSpace) with
      | some rest =>
          if rest.head?.any isWordChar then .miss rest else .ok () (rest.dropWhile isSpace)
      | none =>
          if word = "LIKE" ∧ isTorn (s.dropWhile isSpace) = true then .torn (s.dropWhile isSpace)
          else .miss (s.dropWhile isSpace) := by
  rw [keyword, token_apply, bind_apply, wordText_apply isKeyword]
  cases afterWord? word.toList (s.dropWhile isSpace) with
  | none =>
      by_cases torn : word = "LIKE" ∧ isTorn (s.dropWhile isSpace) = true
      · simp only [if_pos torn]
      · simp only [if_neg torn]
  | some rest => by_cases goesOn : rest.head?.any isWordChar = true <;> simp [wordEnd, goesOn]

end Lexer

end TripleTables.Sql

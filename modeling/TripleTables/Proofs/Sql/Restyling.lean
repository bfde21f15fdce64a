import TripleTables.Proofs.Sql.Token

/-!
# Texts in another style

`Restyled s t` says that two texts differ in style only: what stands between
quotes is the same in both, and outside quotes letters may change their case and
a run of blanks may be another run of blanks, though not vanish.

`layout` writes a text in one style, with small letters and single spaces.  Two
texts differ in style only if and only if they have the same layout, so it can be
decided whether they do.

A property of characters that does not depend on the case of letters, and that
blanks and quotes lack, splits two such texts at places that correspond to each
other.  All that the lexer asks of a character outside quotes is of this kind.
-/

namespace TripleTables.Sql

open Lexer

/-! ## Characters -/

/-- The characters that texts are quoted by. -/
def isQuote (c : Char) : Bool :=
  c == '\'' || c == '"' || c == '`'

/-- The character is neither a blank nor a quote. -/
def isPlain (c : Char) : Bool :=
  !isSpace c && !isQuote c

theorem isAlpha_of_toLower_ne {c : Char} (changed : c.toLower ≠ c) : c.isAlpha = true := by
  by_contra noLetter
  apply changed
  apply Char.toLower_eq_of_not_isUpper
  intro upper
  exact noLetter (by simp [Char.isAlpha, upper])

/-- Two characters with the same small letter are equal unless both are letters. -/
theorem eq_or_isAlpha_of_toLower_eq {c d : Char} (same : c.toLower = d.toLower) :
    c = d ∨ c.isAlpha = true ∧ d.isAlpha = true := by
  have letters := isAlpha_eq_of_toLower_eq same
  by_cases letter : c.isAlpha = true
  · exact .inr ⟨letter, letters ▸ letter⟩
  · left
    have kept : c.toLower = c := not_not.mp (mt isAlpha_of_toLower_ne letter)
    have otherKept : d.toLower = d := not_not.mp (mt isAlpha_of_toLower_ne (letters ▸ letter))
    rw [← kept, same, otherKept]

/-- What is no letter has no other case. -/
theorem eq_of_toLower_eq {c d : Char} (same : c.toLower = d.toLower)
    (noLetter : c.isAlpha = false) : c = d := by
  rcases eq_or_isAlpha_of_toLower_eq same with equal | ⟨letter, _⟩
  · exact equal
  · rw [noLetter] at letter
    cases letter

/-- The blanks and the quotes. -/
def specialChars : List Char :=
  [' ', '\t', '\r', '\n', '\'', '"', '`']

theorem isPlain_iff {c : Char} : isPlain c = true ↔ c ∉ specialChars := by
  simp [isPlain, isSpace, isQuote, specialChars, and_assoc]

/-- A property that the blanks and the quotes lack. -/
theorem isPlain_of_lacking {p : Char → Bool} (lacking : specialChars.all (fun c => !p c) = true)
    {c : Char} (given : p c = true) : isPlain c = true := by
  rw [isPlain_iff]
  intro special
  have lacks := List.all_eq_true.mp lacking c special
  simp [given] at lacks

/-- A letter is neither a blank nor a quote. -/
theorem isPlain_of_isAlpha {c : Char} (letter : c.isAlpha = true) : isPlain c = true :=
  isPlain_of_lacking (by decide) letter

theorem isPlain_of_not {c : Char} (noSpace : ¬ isSpace c = true) (noQuote : ¬ isQuote c = true) :
    isPlain c = true := by
  simp [isPlain, noSpace, noQuote]

theorem isSpace_eq_false_of_isPlain {c : Char} (plain : isPlain c = true) : isSpace c = false := by
  simp only [isPlain, Bool.and_eq_true, Bool.not_eq_true'] at plain
  exact plain.1

theorem isQuote_eq_false_of_isPlain {c : Char} (plain : isPlain c = true) : isQuote c = false := by
  simp only [isPlain, Bool.and_eq_true, Bool.not_eq_true'] at plain
  exact plain.2

theorem isSpace_eq_false_of_isQuote {c : Char} (quote : isQuote c = true) : isSpace c = false := by
  simp only [isQuote, Bool.or_eq_true, beq_iff_eq] at quote
  rcases quote with (rfl | rfl) | rfl <;> decide

/-- The case of a letter does not matter to what is plain. -/
theorem isPlain_congr {c d : Char} (same : c.toLower = d.toLower) : isPlain c = isPlain d := by
  rcases eq_or_isAlpha_of_toLower_eq same with rfl | ⟨letter, other⟩
  · rfl
  · rw [isPlain_of_isAlpha letter, isPlain_of_isAlpha other]

theorem isPlain_toLower (c : Char) : isPlain c.toLower = isPlain c :=
  isPlain_congr (Char.toLower_toLower_eq_toLower c)

/-! ## Styles -/

/-- The texts differ in style only. -/
inductive Restyled : List Char → List Char → Prop
  | nil : Restyled [] []
  | plain {c d : Char} {s t : List Char} (isPlain : isPlain c = true)
      (same : c.toLower = d.toLower) (rest : Restyled s t) : Restyled (c :: s) (d :: t)
  /-- The blanks that follow belong to the same runs. -/
  | blanks {c d : Char} {s t : List Char} (first : isSpace c = true) (second : isSpace d = true)
      (rest : Restyled (s.dropWhile isSpace) (t.dropWhile isSpace)) : Restyled (c :: s) (d :: t)
  | quoted {quote : Char} {body s t : List Char} (isQuote : isQuote quote = true)
      (inside : quote ∉ body) (rest : Restyled s t) :
      Restyled (quote :: (body ++ quote :: s)) (quote :: (body ++ quote :: t))
  /-- A quote that nothing closes stands outside quotes. -/
  | unclosed {quote : Char} {s t : List Char} (isQuote : isQuote quote = true)
      (first : quote ∉ s) (second : quote ∉ t) (rest : Restyled s t) :
      Restyled (quote :: s) (quote :: t)

/-- A text is empty, or it starts with a plain character, with blanks, with a
quoted text or with a quote that nothing closes. -/
theorem text_induction {motive : List Char → Prop} (nil : motive [])
    (plain : ∀ c s, isPlain c = true → motive s → motive (c :: s))
    (blanks : ∀ c s, isSpace c = true → motive (s.dropWhile isSpace) → motive (c :: s))
    (quoted : ∀ quote body s, isQuote quote = true → quote ∉ body → motive s →
      motive (quote :: (body ++ quote :: s)))
    (unclosed : ∀ quote s, isQuote quote = true → quote ∉ s → motive s → motive (quote :: s))
    (s : List Char) : motive s := by
  induction length : s.length using Nat.strong_induction_on generalizing s with
  | h n ih =>
      subst length
      cases s with
      | nil => exact nil
      | cons c rest =>
          have shorter : motive rest := ih rest.length (by simp) rest rfl
          by_cases space : isSpace c = true
          · have skipped : (rest.dropWhile isSpace).length < (c :: rest).length :=
              Nat.lt_succ_of_le (List.length_dropWhile_le isSpace rest)
            exact blanks c rest space (ih _ skipped _ rfl)
          · by_cases quote : isQuote c = true
            · by_cases closed : c ∈ rest
              · obtain ⟨body, more, rfl, inside⟩ := List.eq_append_cons_of_mem closed
                exact quoted c body more quote inside (ih more.length (by simp; omega) more rfl)
              · exact unclosed c rest quote closed shorter
            · exact plain c rest (isPlain_of_not space quote) shorter

/-! ## The layout of a text -/

/-- The text with small letters and single spaces.  The first argument is the
quote that is to be closed. -/
def layoutFrom : Option Char → List Char → List Char
  | _, [] => []
  | some quote, c :: rest => c :: layoutFrom (if c = quote then none else some quote) rest
  | none, c :: rest =>
      if isSpace c then
        if rest.head?.any isSpace then layoutFrom none rest else ' ' :: layoutFrom none rest
      else if isQuote c then
        c :: layoutFrom (if c ∈ rest then some c else none) rest
      else c.toLower :: layoutFrom none rest

/-- The text with small letters and single spaces. -/
def layout (s : List Char) : List Char :=
  layoutFrom none s

theorem layout_plain {c : Char} {s : List Char} (plain : isPlain c = true) :
    layout (c :: s) = c.toLower :: layout s := by
  simp [layout, layoutFrom, isSpace_eq_false_of_isPlain plain, isQuote_eq_false_of_isPlain plain]

theorem layout_blanks {c : Char} {s : List Char} (space : isSpace c = true) :
    layout (c :: s) = ' ' :: layout (s.dropWhile isSpace) := by
  induction s generalizing c with
  | nil => simp [layout, layoutFrom, space]
  | cons d rest ih =>
      by_cases next : isSpace d = true
      · have skipped : layout (c :: d :: rest) = layout (d :: rest) := by
          simp [layout, layoutFrom, space, next]
        rw [skipped, ih next, List.dropWhile_cons_of_pos next]
      · rw [List.dropWhile_cons_of_neg next]
        simp [layout, layoutFrom, space, next]

theorem layoutFrom_quoted {quote : Char} {body s : List Char} (inside : quote ∉ body) :
    layoutFrom (some quote) (body ++ quote :: s) = body ++ quote :: layout s := by
  induction body with
  | nil => simp [layoutFrom, layout]
  | cons c body ih =>
      have different : c ≠ quote ∧ quote ∉ body := by
        simpa [eq_comm] using inside
      simp [layoutFrom, different.1, ih different.2]

theorem layout_quoted {quote : Char} {body s : List Char} (isQuote : isQuote quote = true)
    (inside : quote ∉ body) :
    layout (quote :: (body ++ quote :: s)) = quote :: (body ++ quote :: layout s) := by
  simp [layout, layoutFrom, isSpace_eq_false_of_isQuote isQuote, isQuote, layoutFrom_quoted inside]

theorem layout_unclosed {quote : Char} {s : List Char} (isQuote : isQuote quote = true)
    (unclosed : quote ∉ s) : layout (quote :: s) = quote :: layout s := by
  simp [layout, layoutFrom, isSpace_eq_false_of_isQuote isQuote, isQuote, unclosed]

theorem layout_eq_of_restyled {s t : List Char} (restyled : Restyled s t) :
    layout s = layout t := by
  induction restyled with
  | nil => rfl
  | plain isPlain same _ ih =>
      rw [layout_plain isPlain, layout_plain (isPlain_congr same ▸ isPlain), same, ih]
  | blanks first second _ ih => rw [layout_blanks first, layout_blanks second, ih]
  | quoted isQuote inside _ ih =>
      rw [layout_quoted isQuote inside, layout_quoted isQuote inside, ih]
  | unclosed isQuote first second _ ih =>
      rw [layout_unclosed isQuote first, layout_unclosed isQuote second, ih]

/-! ### From the layout to the text -/

/-- A layout starts with a character of the same kind as the text, and with the
same one if it is a quote. -/
theorem exists_layout_cons (c : Char) (s : List Char) :
    ∃ d rest, layout (c :: s) = d :: rest ∧ isSpace d = isSpace c ∧ isQuote d = isQuote c ∧
      (isQuote c = true → d = c) := by
  by_cases space : isSpace c = true
  · have noQuote : isQuote c = false := by
      by_contra quote
      rw [isSpace_eq_false_of_isQuote (Bool.not_eq_false _ ▸ quote)] at space
      cases space
    refine ⟨' ', _, layout_blanks space, ?_, ?_, ?_⟩
    · rw [space]
      decide
    · rw [noQuote]
      decide
    · simp [noQuote]
  · by_cases quote : isQuote c = true
    · have first : ∃ rest, layout (c :: s) = c :: rest := by simp [layout, layoutFrom, space, quote]
      obtain ⟨rest, first⟩ := first
      exact ⟨c, rest, first, rfl, rfl, fun _ => rfl⟩
    · have plain := isPlain_of_not space quote
      have small := (isPlain_toLower c).trans plain
      refine ⟨c.toLower, _, layout_plain plain, ?_, ?_, fun given => absurd given quote⟩
      · rw [isSpace_eq_false_of_isPlain plain, isSpace_eq_false_of_isPlain small]
      · rw [isQuote_eq_false_of_isPlain plain, isQuote_eq_false_of_isPlain small]

theorem layout_cons_ne_nil (c : Char) (s : List Char) : layout (c :: s) ≠ [] := by
  obtain ⟨d, rest, written, _⟩ := exists_layout_cons c s
  simp [written]

/-- Texts with the same layout start with characters of the same kind. -/
theorem same_kind_of_layout_eq {c d : Char} {s t : List Char}
    (same : layout (c :: s) = layout (d :: t)) :
    isSpace c = isSpace d ∧ isPlain c = isPlain d ∧ (isQuote c = true → d = c) := by
  obtain ⟨first, _, written, space, quote, equal⟩ := exists_layout_cons c s
  obtain ⟨second, _, otherWritten, otherSpace, otherQuote, otherEqual⟩ := exists_layout_cons d t
  rw [written, otherWritten] at same
  obtain rfl : first = second := (List.cons.inj same).1
  have spaces := space.symm.trans otherSpace
  have quotes := quote.symm.trans otherQuote
  refine ⟨spaces, by rw [isPlain, isPlain, spaces, quotes], fun given => ?_⟩
  rw [← equal given, otherEqual (quotes ▸ given)]

/-- A layout has no new quotes. -/
theorem mem_of_mem_layout {quote : Char} (isQuote : isQuote quote = true) {t : List Char}
    (written : quote ∈ layout t) : quote ∈ t := by
  induction t using text_induction with
  | nil => cases written
  | plain d t plain ih =>
      rw [layout_plain plain, List.mem_cons] at written
      rcases written with rfl | later
      · rw [← isPlain_toLower] at plain
        simp [isPlain, isQuote] at plain
      · exact List.mem_cons_of_mem d (ih later)
  | blanks d t space ih =>
      rw [layout_blanks space, List.mem_cons] at written
      rcases written with rfl | later
      · exact absurd isQuote (by decide)
      · exact List.mem_cons_of_mem d ((List.dropWhile_sublist isSpace).mem (ih later))
  | quoted other body t _ inside ih =>
      rw [layout_quoted (by assumption) inside] at written
      simp only [List.mem_cons, List.mem_append] at written ⊢
      exact written.imp_right (Or.imp_right (Or.imp_right ih))
  | unclosed other t _ unclosed ih =>
      rw [layout_unclosed (by assumption) unclosed] at written
      simp only [List.mem_cons] at written ⊢
      exact written.imp_right ih

/-- A text is cut at its first quote in one way. -/
theorem eq_of_append_quote_eq {quote : Char} {body other s t : List Char} (inside : quote ∉ body)
    (otherInside : quote ∉ other) (same : body ++ quote :: s = other ++ quote :: t) :
    body = other ∧ s = t := by
  have run : ∀ {text : List Char}, quote ∉ text → ∀ c ∈ text, (c != quote) = true := by
    intro text absent c member
    exact bne_iff_ne.mpr fun equal => absent (equal ▸ member)
  have stop : ∀ {rest : List Char}, ∀ c ∈ (quote :: rest).head?, (c != quote) = false := by simp
  have bodies := congrArg (List.takeWhile (· != quote)) same
  rw [takeWhile_run (run inside) stop, takeWhile_run (run otherInside) stop] at bodies
  subst bodies
  exact ⟨rfl, (List.cons.inj (List.append_cancel_left same)).2⟩

theorem restyled_of_layout_eq {s t : List Char} (same : layout s = layout t) : Restyled s t := by
  induction s using text_induction generalizing t with
  | nil =>
      cases t with
      | nil => exact .nil
      | cons d t => exact absurd same.symm (layout_cons_ne_nil d t)
  | plain c s plain ih =>
      cases t with
      | nil => exact absurd same (layout_cons_ne_nil c s)
      | cons d t =>
          have other : isPlain d = true := (same_kind_of_layout_eq same).2.1 ▸ plain
          rw [layout_plain plain, layout_plain other] at same
          obtain ⟨letter, rest⟩ := List.cons.inj same
          exact .plain plain letter (ih rest)
  | blanks c s space ih =>
      cases t with
      | nil => exact absurd same (layout_cons_ne_nil c s)
      | cons d t =>
          have other : isSpace d = true := (same_kind_of_layout_eq same).1 ▸ space
          rw [layout_blanks space, layout_blanks other] at same
          exact .blanks space other (ih (List.cons.inj same).2)
  | quoted quote body s isQuote inside ih =>
      cases t with
      | nil => exact absurd same (layout_cons_ne_nil quote _)
      | cons d t =>
          obtain rfl : d = quote := (same_kind_of_layout_eq same).2.2 isQuote
          rw [layout_quoted isQuote inside] at same
          by_cases closed : d ∈ t
          · obtain ⟨otherBody, left, rfl, otherInside⟩ := List.eq_append_cons_of_mem closed
            rw [layout_quoted isQuote otherInside] at same
            obtain ⟨rfl, rest⟩ :=
              eq_of_append_quote_eq inside otherInside (List.cons.inj same).2
            exact .quoted isQuote inside (ih rest)
          · rw [layout_unclosed isQuote closed] at same
            exact absurd (mem_of_mem_layout isQuote (by simp [← (List.cons.inj same).2])) closed
  | unclosed quote s isQuote unclosed ih =>
      cases t with
      | nil => exact absurd same (layout_cons_ne_nil quote s)
      | cons d t =>
          obtain rfl : d = quote := (same_kind_of_layout_eq same).2.2 isQuote
          rw [layout_unclosed isQuote unclosed] at same
          by_cases closed : d ∈ t
          · obtain ⟨body, left, rfl, inside⟩ := List.eq_append_cons_of_mem closed
            rw [layout_quoted isQuote inside] at same
            exact absurd (mem_of_mem_layout isQuote (by simp [(List.cons.inj same).2])) unclosed
          · rw [layout_unclosed isQuote closed] at same
            exact .unclosed isQuote unclosed closed (ih (List.cons.inj same).2)

/-- Two texts differ in style only if and only if they have the same layout. -/
theorem restyled_iff {s t : List Char} : Restyled s t ↔ layout s = layout t :=
  ⟨layout_eq_of_restyled, restyled_of_layout_eq⟩

instance (s t : List Char) : Decidable (Restyled s t) :=
  decidable_of_iff _ restyled_iff.symm

theorem Restyled.refl (s : List Char) : Restyled s s :=
  restyled_of_layout_eq rfl

theorem Restyled.symm {s t : List Char} (restyled : Restyled s t) : Restyled t s :=
  restyled_of_layout_eq (layout_eq_of_restyled restyled).symm

/-! ## Letters -/

namespace SameLetters

variable {c d : Char} {first second more other : List Char}

theorem cons (same : c.toLower = d.toLower) (rest : SameLetters first second) :
    SameLetters (c :: first) (d :: second) := by
  simpa [SameLetters, same] using rest

theorem append (same : SameLetters first second) (rest : SameLetters more other) :
    SameLetters (first ++ more) (second ++ other) := by
  rw [SameLetters, List.map_append, List.map_append, same, rest]

theorem eq_nil_iff (same : SameLetters first second) : first = [] ↔ second = [] := by
  have lengths : first.length = second.length := by simpa using congrArg List.length same
  rw [← List.length_eq_zero_iff, lengths, List.length_eq_zero_iff]

end SameLetters

/-! ## Corresponding places -/

/-- The property does not depend on the case of letters, and blanks and quotes
lack it. -/
structure CaseBlind (p : Char → Bool) : Prop where
  congr : ∀ {c d : Char}, c.toLower = d.toLower → p c = p d
  plain : ∀ {c : Char}, p c = true → isPlain c = true

/-- All letters are treated alike. -/
theorem caseBlind_of_letters {p : Char → Bool} (value : Bool)
    (letters : ∀ c : Char, c.isAlpha = true → p c = value)
    (lacking : specialChars.all (fun c => !p c) = true) : CaseBlind p where
  congr := by
    intro c d same
    rcases eq_or_isAlpha_of_toLower_eq same with rfl | ⟨letter, other⟩
    · rfl
    · rw [letters c letter, letters d other]
  plain := isPlain_of_lacking lacking

theorem caseBlind_isWordStart : CaseBlind isWordStart :=
  caseBlind_of_letters true (fun c letter => by simp [isWordStart, letter]) (by decide)

theorem caseBlind_isWordChar : CaseBlind isWordChar :=
  caseBlind_of_letters true (fun c letter => by simp [isWordChar, Char.isAlphanum, letter])
    (by decide)

theorem caseBlind_isDigit : CaseBlind Char.isDigit := by
  apply caseBlind_of_letters false _ (by decide)
  intro c letter
  by_contra isDigit
  rw [isAlpha_eq_false_of_isDigit (Bool.not_eq_false _ ▸ isDigit)] at letter
  cases letter

/-- The character is the same as one that is no letter. -/
theorem caseBlind_beq {expected : Char} (noLetter : expected.isAlpha = false)
    (plain : isPlain expected = true) : CaseBlind (· == expected) where
  congr := by
    intro c d same
    rw [Bool.eq_iff_iff, beq_iff_eq, beq_iff_eq]
    constructor
    · rintro rfl
      exact (eq_of_toLower_eq same noLetter).symm
    · rintro rfl
      exact (eq_of_toLower_eq same.symm noLetter).symm
  plain := by
    intro c equal
    rwa [beq_iff_eq.mp equal]

/-- The character is the same as another one but for its case. -/
theorem caseBlind_toLower_beq {expected : Char} (plain : isPlain expected = true) :
    CaseBlind fun c => c.toLower == expected.toLower where
  congr := by
    intro c d same
    rw [same]
  plain := by
    intro c equal
    rwa [isPlain_congr (beq_iff_eq.mp equal)]

section Absent

variable {p : Char → Bool} {s : List Char}

theorem absent_or_eq_cons (expected : Char) (s : List Char) :
    s.head?.any (· == expected) = false ∨ ∃ rest, s = expected :: rest := by
  cases s with
  | nil => exact .inl rfl
  | cons c rest =>
      by_cases same : c = expected
      · exact .inr ⟨rest, by rw [same]⟩
      · exact .inl (by simp [same])

theorem takeWhile_of_absent (absent : s.head?.any p = false) : s.takeWhile p = [] := by
  cases s with
  | nil => rfl
  | cons c s => exact List.takeWhile_cons_of_neg (by simpa using absent)

theorem dropWhile_of_absent (absent : s.head?.any p = false) : s.dropWhile p = s := by
  cases s with
  | nil => rfl
  | cons c s => exact List.dropWhile_cons_of_neg (by simpa using absent)

end Absent

namespace Restyled

variable {p : Char → Bool} {c : Char} {s t : List Char}

theorem eq_nil (restyled : Restyled [] t) : t = [] := by
  cases restyled
  rfl

/-- A plain character corresponds to the same one but for its case. -/
theorem exists_of_plain (plain : isPlain c = true) (restyled : Restyled (c :: s) t) :
    ∃ d rest, t = d :: rest ∧ c.toLower = d.toLower ∧ Restyled s rest := by
  cases restyled with
  | plain _ same rest => exact ⟨_, _, rfl, same, rest⟩
  | blanks space _ _ =>
      rw [isSpace_eq_false_of_isPlain plain] at space
      cases space
  | quoted quote _ _ =>
      rw [isQuote_eq_false_of_isPlain plain] at quote
      cases quote
  | unclosed quote _ _ _ =>
      rw [isQuote_eq_false_of_isPlain plain] at quote
      cases quote

/-- A quote corresponds to the same quote. -/
theorem exists_of_quote (isQuote : isQuote c = true) (restyled : Restyled (c :: s) t) :
    ∃ rest, t = c :: rest := by
  cases restyled with
  | plain plain _ _ =>
      rw [isQuote_eq_false_of_isPlain plain] at isQuote
      cases isQuote
  | blanks space _ _ =>
      rw [isSpace_eq_false_of_isQuote isQuote] at space
      cases space
  | quoted _ _ _ => exact ⟨_, rfl⟩
  | unclosed _ _ _ _ => exact ⟨_, rfl⟩

theorem head?_any (blind : CaseBlind p) (restyled : Restyled s t) :
    s.head?.any p = t.head?.any p := by
  have lacking : ∀ {c : Char}, isSpace c = true → p c = false := by
    intro c space
    by_contra given
    have plain := blind.plain (Bool.not_eq_false _ ▸ given)
    rw [isSpace_eq_false_of_isPlain plain] at space
    cases space
  cases restyled with
  | nil => rfl
  | plain _ same _ => exact blind.congr same
  | blanks first second _ => simp [lacking first, lacking second]
  | quoted _ _ _ => rfl
  | unclosed _ _ _ _ => rfl

/-- Both texts start with a character that has the property, or neither does. -/
theorem heads (blind : CaseBlind p) (restyled : Restyled s t) :
    (∃ c s' d t', s = c :: s' ∧ t = d :: t' ∧ p c = true ∧ p d = true ∧
        c.toLower = d.toLower ∧ Restyled s' t') ∨
      s.head?.any p = false ∧ t.head?.any p = false := by
  cases s with
  | nil =>
      rw [restyled.eq_nil]
      exact .inr ⟨rfl, rfl⟩
  | cons c s =>
      by_cases given : p c = true
      · obtain ⟨d, t, rfl, same, rest⟩ := restyled.exists_of_plain (blind.plain given)
        exact .inl ⟨c, s, d, t, rfl, rfl, given, blind.congr same ▸ given, same, rest⟩
      · have absent : (c :: s).head?.any p = false := by simpa using given
        exact .inr ⟨absent, restyled.head?_any blind ▸ absent⟩

/-- The runs at the front correspond to each other. -/
theorem run (blind : CaseBlind p) (restyled : Restyled s t) :
    SameLetters (s.takeWhile p) (t.takeWhile p) ∧ Restyled (s.dropWhile p) (t.dropWhile p) := by
  induction s generalizing t with
  | nil =>
      rw [restyled.eq_nil]
      exact ⟨rfl, .nil⟩
  | cons c s ih =>
      rcases restyled.heads blind with
        ⟨_, _, d, t, ⟨rfl, rfl⟩, rfl, given, other, same, rest⟩ | ⟨absent, otherAbsent⟩
      · obtain ⟨run, rest⟩ := ih rest
        rw [List.takeWhile_cons_of_pos given, List.takeWhile_cons_of_pos other,
          List.dropWhile_cons_of_pos given, List.dropWhile_cons_of_pos other]
        exact ⟨run.cons same, rest⟩
      · rw [takeWhile_of_absent absent, takeWhile_of_absent otherAbsent,
          dropWhile_of_absent absent, dropWhile_of_absent otherAbsent]
        exact ⟨rfl, restyled⟩

/-- The texts after the blanks at the front correspond to each other. -/
theorem dropWhile_isSpace (restyled : Restyled s t) :
    Restyled (s.dropWhile isSpace) (t.dropWhile isSpace) := by
  cases restyled with
  | nil => exact .nil
  | plain plain same rest =>
      have other := isPlain_congr same ▸ plain
      rw [List.dropWhile_cons_of_neg (by simp [isSpace_eq_false_of_isPlain plain]),
        List.dropWhile_cons_of_neg (by simp [isSpace_eq_false_of_isPlain other])]
      exact .plain plain same rest
  | blanks first second rest =>
      rwa [List.dropWhile_cons_of_pos first, List.dropWhile_cons_of_pos second]
  | @quoted quote _ _ _ isQuote inside rest =>
      have noSpace : ¬ isSpace quote = true := by simp [isSpace_eq_false_of_isQuote isQuote]
      rw [List.dropWhile_cons_of_neg noSpace, List.dropWhile_cons_of_neg noSpace]
      exact .quoted isQuote inside rest
  | @unclosed quote _ _ isQuote first second rest =>
      have noSpace : ¬ isSpace quote = true := by simp [isSpace_eq_false_of_isQuote isQuote]
      rw [List.dropWhile_cons_of_neg noSpace, List.dropWhile_cons_of_neg noSpace]
      exact .unclosed isQuote first second rest

end Restyled

end TripleTables.Sql

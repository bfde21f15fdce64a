import TripleTables.Proofs.Sql.Token

/-!
# Quoted texts and what they stand for

A quoted text is read exactly from the text that writes it: its quotes doubled,
between two quotes, up to where no other quote follows.  A run of quotes is thus
never ambiguous: pairs of them stand for quotes, and the odd one is the end.
-/

namespace TripleTables.Sql.Lexer

open Reader

theorem doubled_cons (quote c : Char) (value : List Char) :
    doubled quote (c :: value) =
      if c = quote then quote :: quote :: doubled quote value else c :: doubled quote value := by
  by_cases same : c = quote <;> simp [doubled, same]

/-- What is read up to a closing quote was written with its quotes doubled, and the
closing quote is not doubled itself. -/
theorem eq_doubled_of_unquote {quote : Char} {s : List Char} {found : List Char × List Char}
    (read : unquote quote s = some found) :
    s = doubled quote found.1 ++ quote :: found.2 ∧ found.2.head? ≠ some quote := by
  fun_induction unquote quote s generalizing found with
  | case1 => cases read
  | case2 =>
      cases read
      exact ⟨by simp [doubled], by simp⟩
  | case3 => cases read
  | case4 rest ih =>
      obtain ⟨inner, innerRead, rfl⟩ := Option.map_eq_some_iff.mp read
      obtain ⟨written, stop⟩ := ih innerRead
      refine ⟨?_, stop⟩
      rw [doubled_cons, if_pos rfl, written]
      rfl
  | case5 d rest alone =>
      cases read
      exact ⟨by simp [doubled], by simpa using alone⟩
  | case6 c d rest inside ih =>
      obtain ⟨inner, innerRead, rfl⟩ := Option.map_eq_some_iff.mp read
      obtain ⟨written, stop⟩ := ih innerRead
      refine ⟨?_, stop⟩
      rw [doubled_cons, if_neg inside, written]
      rfl

/-- A quoted text is read exactly from where it is written. -/
theorem quoted_eq_ok_iff {quote : Char} {s rest : List Char} {value : String} :
    quoted quote s = .ok value rest ↔
      s = inQuotes quote value ++ rest ∧ rest.head? ≠ some quote := by
  constructor
  · intro read
    cases s with
    | nil => cases read
    | cons c s =>
        simp only [quoted] at read
        split at read
        · rename_i opens
          split at read
          · rename_i found left body
            cases read
            obtain ⟨written, stop⟩ := eq_doubled_of_unquote body
            exact ⟨by simp [inQuotes, opens, written], stop⟩
          · cases read
        · cases read
  · rintro ⟨rfl, stop⟩
    exact quoted_inQuotes stop value

/-- A quoted text that cannot be read is left to others where it starts. -/
theorem quoted_eq_miss_of_ne_ok {quote : Char} {s : List Char}
    (unread : ∀ value rest, quoted quote s ≠ .ok value rest) : quoted quote s = .miss s := by
  cases s with
  | nil => rfl
  | cons c s =>
      simp only [quoted] at unread ⊢
      split
      · rename_i opens
        rw [if_pos opens] at unread
        cases body : unquote quote s with
        | none => rfl
        | some found => exact absurd (by rw [body]) (unread _ _)
      · rfl

/-- A quoted text may stand alone as a token. -/
theorem token_inQuotes {quote : Char} (noSpace : isSpace quote = false) {p : Lexer String}
    {value : String} (read : p (inQuotes quote value) = .ok value []) :
    token p (inQuotes quote value) = .ok value [] := by
  have starts : (inQuotes quote value).dropWhile isSpace = inQuotes quote value := by
    simp [inQuotes, noSpace]
  rw [token_apply, starts, read]
  rfl

/-- Nothing need follow a quoted text. -/
theorem quoted_inQuotes_alone (quote : Char) (value : String) :
    quoted quote (inQuotes quote value) = .ok value [] :=
  quoted_eq_ok_iff.mpr ⟨(List.append_nil _).symm, by simp⟩

theorem string_inQuotes (value : String) : Lexer.string (inQuotes '\'' value) = .ok value [] :=
  token_inQuotes (by decide) (quoted_inQuotes_alone '\'' value)

theorem identifier_inQuotes (value : String) :
    identifier (inQuotes '"' value) = .ok value [] ∧
      identifier (inQuotes '`' value) = .ok value [] := by
  constructor
  · apply token_inQuotes (by decide)
    exact (firstOf_of_misses (word_misses (by decide) _) _ _).trans
      (firstOf_of_ok (quoted_inQuotes_alone '"' value) _)
  · apply token_inQuotes (by decide)
    exact (firstOf_of_misses (word_misses (by decide) _) _ _).trans
      ((firstOf_of_misses (quoted_misses (by decide) _) _ _).trans
        (firstOf_of_ok (quoted_inQuotes_alone '`' value) _))

/-- Quoted texts are decoded exactly.  A value is read, up to some rest, from the text
that holds it between quotes with its own quotes doubled, provided that no further
quote follows; any other text is left to others where it starts.  So every value can be
written such that it is read back, as a string and as an identifier in either kind of
quotes, and no text writes two values. -/
theorem quoted_decodes (quote : Char) (s : List Char) :
    (∀ value rest, quoted quote s = .ok value rest ↔
      s = inQuotes quote value ++ rest ∧ rest.head? ≠ some quote) ∧
      (quoted quote s = .miss s ↔
        ∀ value rest, s = inQuotes quote value ++ rest → rest.head? = some quote) ∧
      (∀ value other rest left,
        s = inQuotes quote value ++ rest ∧ rest.head? ≠ some quote →
        s = inQuotes quote other ++ left ∧ left.head? ≠ some quote →
          value = other ∧ rest = left) ∧
      ∀ value, quoted quote (inQuotes quote value) = .ok value [] ∧
        Lexer.string (inQuotes '\'' value) = .ok value [] ∧
        identifier (inQuotes '"' value) = .ok value [] ∧
        identifier (inQuotes '`' value) = .ok value [] := by
  refine ⟨fun value rest => quoted_eq_ok_iff, ⟨?_, ?_⟩, ?_, ?_⟩
  · intro missed value rest written
    by_contra stop
    rw [quoted_eq_ok_iff.mpr ⟨written, stop⟩] at missed
    cases missed
  · intro unwritten
    apply quoted_eq_miss_of_ne_ok
    intro value rest read
    obtain ⟨written, stop⟩ := quoted_eq_ok_iff.mp read
    exact stop (unwritten value rest written)
  · intro value other rest left written otherWritten
    have same := (quoted_eq_ok_iff.mpr written).symm.trans (quoted_eq_ok_iff.mpr otherWritten)
    exact Reply.ok.inj same
  · intro value
    exact ⟨quoted_inQuotes_alone quote value, string_inQuotes value, identifier_inQuotes value⟩

end TripleTables.Sql.Lexer

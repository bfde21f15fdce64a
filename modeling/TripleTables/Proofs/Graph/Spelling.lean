import Mathlib.Data.List.Basic
import TripleTables.Graph.Term

/-!
# How variables are spelled

The variable for a text consists of words with middle dots between them: the
text is cut at its middle dots, and every word is cleaned on its own.  Cleaning
is lossy, so two texts share their variable exactly when they have the same
words; a text of plain words is its own spelling.
-/

namespace TripleTables.Graph.Variable

/-! ## Cleaning characters -/

@[simp]
theorem cleanChar_middleDot : cleanChar middleDot = middleDot := by
  decide

/-- No other character is cleaned to a middle dot. -/
@[simp]
theorem cleanChar_eq_middleDot_iff (c : Char) : cleanChar c = middleDot ↔ c = middleDot := by
  constructor
  · intro cleaned
    unfold cleanChar at cleaned
    split at cleaned
    · exact cleaned
    · exact absurd cleaned (by decide)
  · rintro rfl
    exact cleanChar_middleDot

theorem middleDot_mem_map_cleanChar_iff (word : List Char) :
    middleDot ∈ word.map cleanChar ↔ middleDot ∈ word := by
  simp

/-! ## Words -/

/-- The words of the variable for a text.  Only the first word can start with a
mark that is dropped, or come out empty. -/
def words (text : List Char) : List (List Char) :=
  match text.splitOn middleDot with
  | [] => []
  | first :: rest => clean first :: rest.map (List.map cleanChar)

/-- A word at the front is cleaned on its own. -/
theorem clean_append {word : List Char} (single : middleDot ∉ word) {rest : List Char}
    (cut : ∀ c ∈ rest.head?, c = middleDot) :
    clean (word ++ rest) = clean word ++ rest.map cleanChar := by
  have kept : rest.dropWhile (fun c => c == '?' || c == '$') = rest := by
    cases rest with
    | nil => rfl
    | cons c others =>
        have isDot : c = middleDot := cut c rfl
        subst isDot
        rfl
  have dropped : (word ++ rest).dropWhile (fun c => c == '?' || c == '$') =
      word.dropWhile (fun c => c == '?' || c == '$') ++ rest := by
    rw [List.dropWhile_append]
    split
    · rename_i nothing
      rw [kept, List.isEmpty_iff.mp nothing, List.nil_append]
    · rfl
  have inside : middleDot ∉ word.dropWhile (fun c => c == '?' || c == '$') :=
    fun member => single ((List.dropWhile_sublist _).subset member)
  unfold clean
  rw [dropped]
  cases left : word.dropWhile (fun c => c == '?' || c == '$') with
  | nil =>
      cases rest with
      | nil => rfl
      | cons c others =>
          have isDot : c = middleDot := cut c rfl
          subst isDot
          rfl
  | cons first others =>
      rw [left] at inside
      have notDot : cleanChar first ≠ middleDot := by
        rw [Ne, cleanChar_eq_middleDot_iff]
        rintro rfl
        exact inside (by simp)
      simp [notDot]

/-- A text that is cut at the middle dots has none left. -/
theorem middleDot_notMem_of_mem_splitOn {text word : List Char}
    (member : word ∈ text.splitOn middleDot) : middleDot ∉ word := by
  induction text generalizing word with
  | nil =>
      rw [List.splitOn_nil] at member
      simp [List.mem_singleton.mp member]
  | cons c rest ih =>
      rw [List.splitOn_cons_eq_if_modifyHead] at member
      split at member
      · rcases List.mem_cons.mp member with rfl | later
        · simp
        · exact ih later
      · rename_i notDot
        cases pieces : rest.splitOn middleDot with
        | nil => simp [pieces] at member
        | cons first others =>
            rw [pieces, List.modifyHead_cons] at member
            rcases List.mem_cons.mp member with rfl | later
            · have inside : middleDot ∉ first := ih (by simp [pieces])
              have apart : ¬ c = middleDot := by simpa using notDot
              simp [Ne.symm apart, inside]
            · exact ih (by simp [pieces, later])

theorem map_cleanChar_intercalate (pieces : List (List Char)) :
    ([middleDot].intercalate pieces).map cleanChar =
      [middleDot].intercalate (pieces.map (List.map cleanChar)) := by
  induction pieces with
  | nil => rfl
  | cons first rest ih =>
      cases rest with
      | nil => simp
      | cons second others => simpa using ih

/-- The variable for a text is spelled by its words. -/
theorem clean_eq_intercalate_words (text : List Char) :
    clean text = [middleDot].intercalate (words text) := by
  have joined : [middleDot].intercalate (text.splitOn middleDot) = text :=
    List.intercalate_splitOn middleDot
  have single : ∀ piece ∈ text.splitOn middleDot, middleDot ∉ piece :=
    fun _ member => middleDot_notMem_of_mem_splitOn member
  cases pieces : text.splitOn middleDot with
  | nil => exact absurd pieces (List.splitOn_ne_nil middleDot text)
  | cons first rest =>
      rw [pieces] at joined single
      simp only [words, pieces]
      cases rest with
      | nil =>
          rw [List.intercalate_singleton] at joined
          rw [← joined, List.map_nil, List.intercalate_singleton]
      | cons second others =>
          rw [List.intercalate_cons_cons] at joined
          rw [← joined, List.append_assoc, clean_append (single first (by simp)) (by simp),
            List.map_append, map_cleanChar_intercalate]
          simp [List.intercalate_cons_cons]

theorem middleDot_notMem_clean {word : List Char} (single : middleDot ∉ word) :
    middleDot ∉ clean word := by
  have inside : middleDot ∉ (word.dropWhile (fun c => c == '?' || c == '$')).map cleanChar := by
    rw [middleDot_mem_map_cleanChar_iff]
    exact fun member => single ((List.dropWhile_sublist _).subset member)
  unfold clean
  split
  · decide
  · rename_i first rest cleaned
    rw [cleaned] at inside
    split
    · rename_i isDot
      exact absurd (by simp [eq_of_beq isDot]) inside
    · exact inside

theorem middleDot_notMem_of_mem_words {text word : List Char} (member : word ∈ words text) :
    middleDot ∉ word := by
  cases pieces : text.splitOn middleDot with
  | nil => exact absurd pieces (List.splitOn_ne_nil middleDot text)
  | cons first rest =>
      have single : ∀ piece ∈ first :: rest, middleDot ∉ piece := by
        intro piece inside
        rw [← pieces] at inside
        exact middleDot_notMem_of_mem_splitOn inside
      rw [words, pieces] at member
      rcases List.mem_cons.mp member with rfl | later
      · exact middleDot_notMem_clean (single first (by simp))
      · obtain ⟨piece, inside, rfl⟩ := List.mem_map.mp later
        rw [middleDot_mem_map_cleanChar_iff]
        exact single piece (by simp [inside])

theorem words_ne_nil (text : List Char) : words text ≠ [] := by
  unfold words
  split
  · rename_i nothing
    exact absurd nothing (List.splitOn_ne_nil middleDot text)
  · simp

/-- The words can be read off the variable. -/
theorem splitOn_clean (text : List Char) : (clean text).splitOn middleDot = words text := by
  rw [clean_eq_intercalate_words]
  exact List.splitOn_intercalate middleDot
    (fun _ member => middleDot_notMem_of_mem_words member) (words_ne_nil text)

/-- Two texts share their variable exactly when they have the same words. -/
theorem ofText_eq_iff (first second : String) :
    ofText first = ofText second ↔ words first.toList = words second.toList := by
  simp only [ofText, Variable.mk.injEq, String.ofList_inj]
  constructor
  · intro same
    rw [← splitOn_clean, same, splitOn_clean]
  · intro same
    rw [clean_eq_intercalate_words, same, ← clean_eq_intercalate_words]

/-! ## Cleaning again -/

theorem isNameChar_cleanChar (c : Char) : isNameChar (cleanChar c) = true := by
  unfold cleanChar
  split
  · assumption
  · decide

/-- A cleaned text holds only characters that are allowed, and does not start
with a middle dot. -/
theorem exists_clean_eq_cons (text : List Char) :
    ∃ first rest, clean text = first :: rest ∧ first ≠ middleDot ∧
      ∀ c ∈ first :: rest, isNameChar c = true := by
  have allowed : ∀ c ∈ (text.dropWhile (fun c => c == '?' || c == '$')).map cleanChar,
      isNameChar c = true := by
    intro c member
    obtain ⟨original, _, rfl⟩ := List.mem_map.mp member
    exact isNameChar_cleanChar original
  unfold clean
  split
  · exact ⟨'_', [], rfl, by decide, List.forall_mem_singleton.mpr (by decide)⟩
  · rename_i first rest cleaned
    rw [cleaned] at allowed
    split
    · exact ⟨'_', first :: rest, rfl, by decide,
        List.forall_mem_cons.mpr ⟨by decide, allowed⟩⟩
    · rename_i notDot
      exact ⟨first, rest, rfl, by simpa using notDot, allowed⟩

theorem map_cleanChar_of_allowed {text : List Char} (allowed : ∀ c ∈ text, isNameChar c = true) :
    text.map cleanChar = text := by
  conv_rhs => rw [← List.map_id text]
  refine List.map_congr_left fun c member => ?_
  simp [cleanChar, allowed c member]

/-- A text is its own cleaning if it holds only characters that are allowed and
does not start with a middle dot. -/
theorem clean_of_allowed {first : Char} {rest : List Char} (notDot : first ≠ middleDot)
    (allowed : ∀ c ∈ first :: rest, isNameChar c = true) :
    clean (first :: rest) = first :: rest := by
  have noMark : (first == '?' || first == '$') = false := by
    have isAllowed := allowed first List.mem_cons_self
    rw [Bool.or_eq_false_iff]
    constructor <;>
    · rw [beq_eq_false_iff_ne]
      rintro rfl
      exact absurd isAllowed (by decide)
  rw [clean, List.dropWhile_cons_of_neg (by simp [noMark]), map_cleanChar_of_allowed allowed]
  simp [notDot]

/-- Cleaning a cleaned text changes nothing. -/
theorem clean_clean (text : List Char) : clean (clean text) = clean text := by
  obtain ⟨first, rest, cleaned, notDot, allowed⟩ := exists_clean_eq_cons text
  rw [cleaned]
  exact clean_of_allowed notDot allowed

/-- The name of the variable for a text stands for the same variable. -/
theorem ofText_name_ofText (text : String) : ofText (ofText text).name = ofText text := by
  simp only [ofText, String.toList_ofList, clean_clean]

/-! ## Plain words -/

/-- A word that is not empty and holds no character but ASCII letters, digits
and underscores. -/
def Plain (word : List Char) : Prop :=
  word ≠ [] ∧ ∀ c ∈ word, isNameChar c = true ∧ c ≠ middleDot

-- The characters of the word are tried, not all characters there are.
instance (word : List Char) : Decidable (Plain word) :=
  haveI := List.decidableBAll (fun c => isNameChar c = true ∧ c ≠ middleDot) word
  inferInstanceAs (Decidable (_ ∧ _))

theorem Plain.map_cleanChar {word : List Char} (plain : Plain word) :
    word.map cleanChar = word :=
  map_cleanChar_of_allowed fun c member => (plain.2 c member).1

theorem Plain.clean {word : List Char} (plain : Plain word) : clean word = word := by
  cases word with
  | nil => exact absurd rfl plain.1
  | cons c rest =>
      exact clean_of_allowed (plain.2 c List.mem_cons_self).2
        fun other member => (plain.2 other member).1

/-- Plain words with middle dots between them are their own spelling. -/
theorem words_intercalate {pieces : List (List Char)} (nonempty : pieces ≠ [])
    (plain : ∀ piece ∈ pieces, Plain piece) : words ([middleDot].intercalate pieces) = pieces := by
  have cut : ([middleDot].intercalate pieces).splitOn middleDot = pieces :=
    List.splitOn_intercalate middleDot
      (fun piece member dot => ((plain piece member).2 middleDot dot).2 rfl) nonempty
  cases pieces with
  | nil => exact absurd rfl nonempty
  | cons first rest =>
      have cleaned : rest.map (List.map cleanChar) = rest := by
        conv_rhs => rw [← List.map_id rest]
        refine List.map_congr_left fun piece member => ?_
        exact (plain piece (by simp [member])).map_cleanChar
      simp only [words, cut, cleaned, (plain first (by simp)).clean]

theorem Plain.words {word : List Char} (plain : Plain word) : words word = [word] := by
  have single := words_intercalate (List.cons_ne_nil word []) (List.forall_mem_singleton.mpr plain)
  rwa [List.intercalate_singleton] at single

end TripleTables.Graph.Variable

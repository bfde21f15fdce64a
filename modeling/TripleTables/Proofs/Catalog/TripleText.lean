import Mathlib.Data.List.DropRight
import TripleTables.Catalog.Template
import TripleTables.Proofs.Graph.Constituents
import TripleTables.Proofs.Run

/-!
# Triples as templates

The text of a triple is a template without holes.  If the triple comes from a
template whose holes are filled with variables, its text is read back to the very
same triple, whatever the holes are filled with then.

A template is cut into tokens by a machine with four modes.  A *solid* token takes
the machine from the plain mode to the plain mode and has no blank where the machine
would cut (`Solid`), so it is cut out of any text in which blanks stand around it.
The tokens of a template are solid, also the one from which a full stop has been
taken.  The text of a term is the token it was read from, except that a variable is
cleaned and the keyword `a` is written as an IRI; both are solid and read back to the
term (`Term.ReadsBack`).
-/

namespace TripleTables

open TripleTables.Graph

/-! ## Blanks at the ends -/

namespace Text

/-- A text that is trimmed does not start with a blank. -/
theorem isBlank_of_head?_trim {text : List Char} {c : Char}
    (first : (trim text).head? = some c) : isBlank c = false := by
  have part : trim text <+: trimStart text := List.rdropWhile_prefix isBlank _
  have same : (trimStart text).head? = some c := by
    obtain ⟨rest, whole⟩ := part
    rw [← whole, List.head?_append, first]
    rfl
  have notBlank := List.head?_dropWhile_not isBlank text
  rw [trimStart] at same
  rwa [same] at notBlank

/-- A text with no blank at either end is trimmed. -/
theorem trim_of_ends {first last : Char} {inner : List Char} (starts : isBlank first = false)
    (ends : isBlank last = false) : trim (first :: inner ++ [last]) = first :: inner ++ [last] := by
  have start : trimStart (first :: inner ++ [last]) = first :: inner ++ [last] := by
    simp [trimStart, starts]
  rw [trim, start, trimEnd, List.reverse_append, List.reverse_singleton, List.singleton_append,
    List.dropWhile_cons_of_neg (by simp [ends]), List.reverse_cons, List.reverse_reverse]

end Text

namespace Template

/-! ## Solid tokens -/

/-- The mode after a character that does not end the token. -/
def Mode.next : Mode → Char → Mode
  | .plain, c => if c = '<' then .iri else if c = '"' ∨ c = '\'' then .quoted c else .plain
  | .quoted mark, c => if c = '\\' then .escaped mark else if c = mark then .plain else .quoted mark
  | .escaped mark, _ => .quoted mark
  | .iri, c => if c = '>' then .plain else .iri

/-- The character belongs to the token: only a blank in plain text does not. -/
def Mode.Holds (mode : Mode) (c : Char) : Prop :=
  mode = .plain → Text.isBlank c = false

/-- The text takes the machine from one mode to another inside one token. -/
inductive Runs : Mode → List Char → Mode → Prop
  | nil (mode : Mode) : Runs mode [] mode
  | cons {mode last : Mode} {c : Char} {rest : List Char} (holds : mode.Holds c)
      (others : Runs (mode.next c) rest last) : Runs mode (c :: rest) last

/-- The text is one token wherever blanks stand around it. -/
structure Solid (token : List Char) : Prop where
  nonempty : token ≠ []
  runs : Runs .plain token .plain

variable {mode middle last : Mode} {c : Char} {current rest text token : List Char}
  {found : List (List Char)}

theorem Runs.append {first second : List Char} (before : Runs mode first middle)
    (after : Runs middle second last) : Runs mode (first ++ second) last := by
  induction before with
  | nil mode => exact after
  | cons holds _ ih => exact .cons holds (ih after)

theorem Runs.concat (before : Runs mode text middle) (holds : middle.Holds c) :
    Runs mode (text ++ [c]) (middle.next c) :=
  before.append (.cons holds (.nil _))

/-- Text without quotes, brackets and blanks is plain throughout. -/
theorem runs_plain (plain : ∀ c ∈ text, Mode.Holds .plain c ∧ Mode.next .plain c = .plain) :
    Runs .plain text .plain := by
  induction text with
  | nil => exact .nil _
  | cons c rest ih =>
      obtain ⟨⟨holds, stays⟩, others⟩ := List.forall_mem_cons.mp plain
      refine .cons holds ?_
      rw [stays]
      exact ih others

theorem splitFrom_cons (holds : mode.Holds c) :
    splitFrom mode current (c :: rest) = splitFrom (mode.next c) (c :: current) rest := by
  cases mode with
  | plain =>
      rw [splitFrom, if_neg (by simp [holds rfl]), Mode.next]
      split
      · rfl
      · split <;> rfl
  | quoted mark =>
      rw [splitFrom, Mode.next]
      split
      · rfl
      · split <;> rfl
  | escaped mark => rfl
  | iri =>
      rw [splitFrom, Mode.next]
      split <;> rfl

theorem splitFrom_blank (blank : Text.isBlank c = true) :
    splitFrom .plain current (c :: rest) =
      (flush current ++ ·) <$> splitFrom .plain [] rest := by
  rw [splitFrom, if_pos blank]

theorem flush_of_ne_nil (nonempty : current ≠ []) : flush current = [current.reverse] := by
  rw [flush, if_neg (by simpa using nonempty)]

theorem splitFrom_append (runs : Runs mode text last) :
    splitFrom mode current (text ++ rest) = splitFrom last (text.reverse ++ current) rest := by
  induction runs generalizing current with
  | nil mode => rfl
  | cons holds _ ih =>
      rw [List.cons_append, splitFrom_cons holds, ih, List.reverse_cons, List.append_assoc]
      rfl

/-- A solid token before a blank is cut out. -/
theorem Solid.splitFrom_append (solid : Solid token) (blank : Text.isBlank c = true) :
    splitFrom .plain [] (token ++ c :: rest) = (token :: ·) <$> splitFrom .plain [] rest := by
  rw [Template.splitFrom_append solid.runs, splitFrom_blank blank, List.append_nil,
    flush_of_ne_nil (by simpa using solid.nonempty), List.reverse_reverse]
  rfl

/-! ## The tokens of a template -/

theorem solid_of_mem_flush (runs : Runs .plain current.reverse .plain) :
    ∀ token ∈ flush current, Solid token := by
  intro token member
  unfold flush at member
  split at member
  · cases member
  · rename_i nonempty
    rw [List.mem_singleton.mp member]
    exact ⟨by simpa using nonempty, runs⟩

/-- A text ends in plain text, and with it the token that has been begun. -/
theorem splitFrom_nil_eq_ok (split : splitFrom mode current [] = .ok found) :
    mode = .plain ∧ found = flush current := by
  cases mode with
  | plain =>
      cases split
      exact ⟨rfl, rfl⟩
  | _ => cases split

/-- A character ends the token that has been begun or belongs to it. -/
theorem splitFrom_cons_eq_ok (split : splitFrom mode current (c :: rest) = .ok found) :
    (∃ later, mode = .plain ∧ found = flush current ++ later ∧
      splitFrom .plain [] rest = .ok later) ∨
      (mode.Holds c ∧ splitFrom (mode.next c) (c :: current) rest = .ok found) := by
  by_cases cut : mode = .plain ∧ Text.isBlank c = true
  · obtain ⟨rfl, blank⟩ := cut
    rw [splitFrom_blank blank] at split
    obtain ⟨later, others, same⟩ := Run.map_eq_ok_iff.mp split
    exact .inl ⟨later, rfl, same.symm, others⟩
  · have holds : mode.Holds c := fun plain => by simpa using fun blank => cut ⟨plain, blank⟩
    rw [splitFrom_cons holds] at split
    exact .inr ⟨holds, split⟩

/-- What has been collected is the start of a token, so all tokens are solid. -/
theorem solid_of_splitFrom (begun : Runs .plain current.reverse mode)
    (split : splitFrom mode current text = .ok found) : ∀ token ∈ found, Solid token := by
  induction text generalizing mode current found with
  | nil =>
      obtain ⟨rfl, rfl⟩ := splitFrom_nil_eq_ok split
      exact solid_of_mem_flush begun
  | cons c rest ih =>
      rcases splitFrom_cons_eq_ok split with ⟨later, rfl, rfl, others⟩ | ⟨holds, split⟩
      · exact List.forall_mem_append.mpr ⟨solid_of_mem_flush begun, ih (.nil _) others⟩
      · refine ih ?_ split
        rw [List.reverse_cons]
        exact begun.concat holds

theorem solid_of_tokens (split : tokens text = .ok found) : ∀ token ∈ found, Solid token :=
  solid_of_splitFrom (.nil _) split

/-- What has been collected is the start of the first token. -/
theorem exists_first_of_splitFrom (begun : current ≠ [])
    (split : splitFrom mode current text = .ok found) :
    ∃ first others, found = first :: others ∧ first.head? = current.reverse.head? := by
  induction text generalizing mode current found with
  | nil =>
      obtain ⟨_, rfl⟩ := splitFrom_nil_eq_ok split
      exact ⟨current.reverse, [], flush_of_ne_nil begun, rfl⟩
  | cons c rest ih =>
      rcases splitFrom_cons_eq_ok split with ⟨later, _, rfl, _⟩ | ⟨_, split⟩
      · rw [flush_of_ne_nil begun]
        exact ⟨current.reverse, later, rfl, rfl⟩
      · obtain ⟨first, others, rfl, same⟩ := ih (List.cons_ne_nil c current) split
        refine ⟨first, others, rfl, ?_⟩
        rw [same, List.reverse_cons, List.head?_append_of_ne_nil _ (by simpa using begun)]

/-- A text that does not start with a blank starts with its first token. -/
theorem head?_of_tokens {first : List Char} {others : List (List Char)}
    (notBlank : ∀ c, text.head? = some c → Text.isBlank c = false)
    (split : tokens text = .ok (first :: others)) : text.head? = first.head? := by
  cases text with
  | nil => cases split
  | cons c rest =>
      have holds : Mode.Holds .plain c := fun _ => notBlank c rfl
      rw [tokens, splitFrom_cons holds] at split
      obtain ⟨_, _, same, starts⟩ := exists_first_of_splitFrom (List.cons_ne_nil c []) split
      cases same
      exact starts.symm

/-! ## The full stop -/

/-- Quotes are the only marks that the machine remembers. -/
def Mode.Proper : Mode → Prop
  | .quoted mark | .escaped mark => mark = '"' ∨ mark = '\''
  | .plain | .iri => True

theorem Mode.Proper.next (proper : mode.Proper) (c : Char) : (mode.next c).Proper := by
  cases mode with
  | plain =>
      rw [Mode.next]
      split
      · trivial
      · split
        · assumption
        · trivial
  | quoted mark =>
      rw [Mode.next]
      split
      · exact proper
      · split
        · trivial
        · exact proper
  | escaped mark => exact proper
  | iri =>
      rw [Mode.next]
      split <;> trivial

/-- A full stop does not lead back into plain text. -/
theorem Mode.eq_plain_of_next_stop (proper : mode.Proper) (stops : mode.next '.' = .plain) :
    mode = .plain := by
  cases mode with
  | plain => rfl
  | quoted mark => rcases proper with rfl | rfl <;> simp [Mode.next] at stops
  | escaped mark => cases stops
  | iri => simp [Mode.next] at stops

theorem Runs.of_concat_stop (proper : mode.Proper) (runs : Runs mode (text ++ ['.']) .plain) :
    Runs mode text .plain := by
  induction text generalizing mode with
  | nil =>
      cases runs with
      | cons _ others =>
          generalize stops : mode.next '.' = after at others
          cases others
          rw [Mode.eq_plain_of_next_stop proper stops]
          exact .nil _
  | cons c rest ih =>
      cases runs with
      | cons holds others => exact .cons holds (ih (proper.next c) others)

theorem Solid.unglue (solid : Solid token) : Solid (unglue token) := by
  unfold Template.unglue
  split
  · rename_i glued
    obtain ⟨long, stops, _⟩ := glued
    have whole : token.dropLast ++ ['.'] = token := List.dropLast_append_getLast? _ stops
    have runs := solid.runs
    rw [← whole] at runs
    refine ⟨?_, runs.of_concat_stop trivial⟩
    intro empty
    rw [← whole, empty] at long
    exact absurd long (by decide)
  · exact solid

theorem dropStop_cons_cons (first second : List Char) (others : List (List Char)) :
    dropStop (first :: second :: others) = first :: dropStop (second :: others) :=
  rfl

theorem solid_of_dropStop (solid : ∀ token ∈ found, Solid token) :
    ∀ token ∈ dropStop found, Solid token := by
  induction found with
  | nil => exact solid
  | cons first rest ih =>
      obtain ⟨firstSolid, restSolid⟩ := List.forall_mem_cons.mp solid
      cases rest with
      | nil =>
          rw [dropStop]
          split
          · simp
          · exact List.forall_mem_singleton.mpr firstSolid.unglue
      | cons second others =>
          rw [dropStop_cons_cons]
          exact List.forall_mem_cons.mpr ⟨firstSolid, ih restSolid⟩

/-- Only the last token loses its full stop. -/
theorem exists_of_dropStop {first second : List Char} {others : List (List Char)}
    (dropped : dropStop found = first :: second :: others) : ∃ rest, found = first :: rest := by
  match found, dropped with
  | [], dropped => cases dropped
  | [last], dropped =>
      rw [dropStop] at dropped
      split at dropped <;> cases dropped
  | initial :: _ :: _, dropped =>
      rw [dropStop_cons_cons] at dropped
      exact ⟨_, congrArg (· :: _) (List.cons.inj dropped).1⟩

/-! ## Terms that are read back -/

/-- The text of the term is a token that stands for the term. -/
structure ReadsBack (term : Term) : Prop where
  solid : Solid term.text.toList
  slot : readSlot term.text.toList = .ok (.fixed term)

/-- A token that starts with a question mark is no hole and no keyword. -/
theorem readSlot_marked (name : List Char) :
    readSlot ('?' :: name) =
      .ok (.fixed (.variable (Variable.ofText (String.ofList name)))) := by
  have noHole : ∀ word : List Char, word.head? ≠ some '?' → '?' :: name ≠ word := by
    rintro _ starts rfl
    exact starts rfl
  rw [readSlot, if_neg (noHole _ (by decide)), if_neg (noHole _ (by decide)),
    if_neg (noHole _ (by decide)),
    if_neg (not_or.mpr ⟨noHole _ (by decide), noHole _ (by decide)⟩)]
  rfl

/-- A character of a variable is not blank. -/
theorem isBlank_of_isNameChar (allowed : Variable.isNameChar c = true) :
    Text.isBlank c = false := by
  have ranges : Variable.isNameChar c = (((decide (65 ≤ c.val ∧ c.val ≤ 90) ||
      (decide (97 ≤ c.val) && decide (c.val ≤ 122))) ||
      (decide (48 ≤ c.val) && decide (c.val ≤ 57))) || c == '_' || c == '·') := rfl
  have code : (48 ≤ c.toNat ∧ c.toNat ≤ 57) ∨ (65 ≤ c.toNat ∧ c.toNat ≤ 90) ∨
      (97 ≤ c.toNat ∧ c.toNat ≤ 122) ∨ c.toNat = 95 ∨ c.toNat = 183 := by
    simp only [ranges, Bool.or_eq_true, Bool.and_eq_true, decide_eq_true_eq, beq_iff_eq,
      UInt32.le_iff_toNat_le] at allowed
    rcases allowed with (((upper | lower) | digit) | rfl) | rfl
    · exact .inr (.inl upper)
    · exact .inr (.inr (.inl lower))
    · exact .inl digit
    · exact .inr (.inr (.inr (.inl rfl)))
    · exact .inr (.inr (.inr (.inr rfl)))
  simp only [Text.isBlank, Bool.or_eq_false_iff, Bool.and_eq_false_iff, decide_eq_false_iff_not,
    beq_eq_false_iff_ne]
  omega

theorem Mode.holds_of_isNameChar (allowed : Variable.isNameChar c = true) :
    Mode.Holds .plain c ∧ Mode.next .plain c = .plain := by
  refine ⟨fun _ => isBlank_of_isNameChar allowed, ?_⟩
  have other : ∀ mark, Variable.isNameChar mark = false → c ≠ mark := by
    rintro _ refused rfl
    rw [allowed] at refused
    cases refused
  rw [Mode.next, if_neg (other '<' (by decide)),
    if_neg (not_or.mpr ⟨other '"' (by decide), other '\'' (by decide)⟩)]

theorem readsBack_variable {v : Variable} (clean : v.IsClean) : ReadsBack (.variable v) := by
  have text : (Term.variable v).text.toList = '?' :: v.name.toList := by
    simp [Term.text, Variable.text]
  constructor
  · rw [text]
    refine ⟨List.cons_ne_nil _ _, .cons (fun _ => by decide) (runs_plain ?_)⟩
    exact fun c member => Mode.holds_of_isNameChar (clean.isNameChar c member)
  · obtain ⟨name, rfl⟩ := clean
    rw [text, readSlot_marked, String.ofList_toList, Variable.ofText_name_ofText]

/-- The text of a term that is no variable is the token it was read from. -/
theorem text_of_readTerm {term : Term} (read : readTerm token = .ok term) :
    (∃ v, term = .variable v ∧ v.IsClean) ∨ term.text.toList = token := by
  unfold readTerm at read
  split at read
  · rename_i inner
    split at read
    · rename_i closed
      cases read
      right
      have whole : inner.dropLast ++ ['>'] = inner := List.dropLast_append_getLast? _ closed
      simp [Term.text, whole]
    · cases read
  · cases read
    exact .inr (String.toList_ofList)
  · cases read
    exact .inr (String.toList_ofList)
  · cases read
    exact .inl ⟨_, rfl, _, rfl⟩
  · cases read
    exact .inl ⟨_, rfl, _, rfl⟩
  · cases read
    right
    simp [Term.text]
  · split at read
    · cases read
      exact .inr (String.toList_ofList)
    · split at read
      · cases read
        exact .inr (String.toList_ofList)
      · cases read

theorem readsBack_typeIri : ReadsBack (.iri typeIri) := by
  have alone : tokens (Term.iri typeIri).text.toList = .ok [(Term.iri typeIri).text.toList] := by
    decide +kernel
  exact ⟨solid_of_tokens alone _ (List.mem_singleton_self _), by decide +kernel⟩

/-- A token stands for a variable, is the keyword for the type, or is the text of the
term it stands for. -/
theorem text_of_readSlot {term : Term} (read : readSlot token = .ok (.fixed term)) :
    (∃ v, term = .variable v ∧ v.IsClean) ∨ term = .iri typeIri ∨ term.text.toList = token := by
  unfold readSlot at read
  split at read
  · cases read
  · split at read
    · cases read
    · split at read
      · cases read
        exact .inr (.inl rfl)
      · split at read
        · cases read
          exact .inr (.inr String.toList_ofList)
        · cases isTerm : readTerm token with
          | error fault => rw [isTerm] at read; cases read
          | ok other =>
              rw [isTerm] at read
              cases read
              exact (text_of_readTerm isTerm).imp_right .inr

/-- What fills the value hole of a template: nothing or a variable for some text. -/
def IsCleanValue (value : Option Term) : Prop :=
  ∀ term ∈ value, ∃ v, term = .variable v ∧ v.IsClean

/-- A term that comes from a token of a template is read back, and it starts like a
comment only if the token does. -/
theorem readsBack_of_fillSlot {slot : Slot} {subject : Variable} {value : Option Term}
    {term : Term} (solid : Solid token) (read : readSlot token = .ok slot)
    (subjectClean : subject.IsClean) (valueClean : IsCleanValue value)
    (filled : fillSlot subject value slot = .ok term) :
    ReadsBack term ∧ (term.text.toList.head? = some '#' → token.head? = some '#') := by
  have ofVariable : ∀ {v : Variable}, v.IsClean → ReadsBack (.variable v) ∧
      ((Term.variable v).text.toList.head? = some '#' → token.head? = some '#') := by
    intro v clean
    refine ⟨readsBack_variable clean, fun starts => ?_⟩
    simp [Term.text, Variable.text] at starts
  cases slot with
  | subject =>
      cases filled
      exact ofVariable subjectClean
  | object =>
      cases value with
      | none => cases filled
      | some given =>
          cases filled
          obtain ⟨v, rfl, clean⟩ := valueClean _ rfl
          exact ofVariable clean
  | fixed given =>
      cases filled
      rcases text_of_readSlot read with ⟨v, rfl, clean⟩ | rfl | same
      · exact ofVariable clean
      · exact ⟨readsBack_typeIri, fun starts => absurd starts (by decide +kernel)⟩
      · refine ⟨⟨?_, ?_⟩, fun starts => ?_⟩
        · rwa [same]
        · rwa [same]
        · rwa [same] at starts

/-! ## Whole templates -/

/-- A template that is no comment has three tokens, which are solid, and the first
does not start like a comment. -/
theorem exists_of_read {source : String} {template : Template}
    (read : Template.read source = .ok template) :
    template.body = .comment ∨
      ∃ first second third s p o, template.body = .triple s p o ∧
        (Solid first ∧ Solid second ∧ Solid third) ∧ first.head? ≠ some '#' ∧
        readSlot first = .ok s ∧ readSlot second = .ok p ∧ readSlot third = .ok o := by
  unfold Template.read at read
  dsimp only at read
  split at read
  · cases read
    exact .inl rfl
  · rename_i notComment
    right
    cases split : tokens (Text.trim source.toList) with
    | error fault => rw [split] at read; cases read
    | ok found =>
        simp only [split] at read
        cases body : readBody (dropStop found) with
        | error fault => rw [body] at read; cases read
        | ok result =>
            rw [body] at read
            cases read
            unfold readBody at body
            split at body
            · rename_i first second third three
              obtain ⟨rest, whole⟩ := exists_of_dropStop three
              have solid := solid_of_dropStop (solid_of_tokens split)
              rw [three] at solid
              simp only [List.forall_mem_cons] at solid
              rw [whole] at split
              have starts := head?_of_tokens
                (fun c isFirst => Text.isBlank_of_head?_trim isFirst) split
              obtain ⟨s, isS, body⟩ := Run.bind_eq_ok_iff_of_except.mp body
              obtain ⟨p, isP, body⟩ := Run.bind_eq_ok_iff_of_except.mp body
              obtain ⟨o, isO, body⟩ := Run.bind_eq_ok_iff_of_except.mp body
              cases body
              exact ⟨first, second, third, s, p, o, rfl, ⟨solid.1, solid.2.1, solid.2.2.1⟩,
                starts ▸ notComment, isS, isP, isO⟩
            · cases body

theorem Solid.exists_cons (solid : Solid token) :
    ∃ c rest, token = c :: rest ∧ Text.isBlank c = false := by
  obtain ⟨nonempty, runs⟩ := solid
  cases runs with
  | nil => exact absurd rfl nonempty
  | cons holds _ => exact ⟨_, _, rfl, holds rfl⟩

/-- The text of a triple is read as a template without holes. -/
theorem read_text {triple : Triple} (subject : ReadsBack triple.subject)
    (predicate : ReadsBack triple.predicate) (object : ReadsBack triple.object)
    (notComment : triple.subject.text.toList.head? ≠ some '#') :
    Template.read triple.text =
      .ok ⟨triple.text, .triple (.fixed triple.subject) (.fixed triple.predicate)
        (.fixed triple.object)⟩ := by
  have spaced : triple.text.toList = triple.subject.text.toList ++ ' ' ::
      (triple.predicate.text.toList ++ ' ' :: (triple.object.text.toList ++ ' ' :: ['.'])) := by
    simp [Triple.text]
  obtain ⟨c, inner, starts, notBlank⟩ := subject.solid.exists_cons
  have trimmed : Text.trim triple.text.toList = triple.text.toList := by
    have ends : triple.text.toList = c :: (inner ++ ' ' :: (triple.predicate.text.toList ++ ' ' ::
        (triple.object.text.toList ++ [' ']))) ++ ['.'] := by
      simp [spaced, starts]
    rw [ends, Text.trim_of_ends notBlank (by decide)]
  have cut : tokens triple.text.toList = .ok [triple.subject.text.toList,
      triple.predicate.text.toList, triple.object.text.toList, ['.']] := by
    rw [tokens, spaced, subject.solid.splitFrom_append (by decide),
      predicate.solid.splitFrom_append (by decide), object.solid.splitFrom_append (by decide)]
    rfl
  have plain : triple.text.toList.head? ≠ some '#' := by
    rw [spaced, List.head?_append_of_ne_nil _ subject.solid.nonempty]
    exact notComment
  have body : readBody (dropStop [triple.subject.text.toList, triple.predicate.text.toList,
      triple.object.text.toList, ['.']]) = .ok (.triple (.fixed triple.subject)
        (.fixed triple.predicate) (.fixed triple.object)) := by
    rw [dropStop_cons_cons, dropStop_cons_cons, dropStop_cons_cons, dropStop, if_pos rfl, readBody,
      subject.slot, predicate.slot, object.slot]
    rfl
  simp only [Template.read, trimmed, if_neg plain, cut, body]

theorem eq_of_checkTriple {triple checked : Triple} (passed : checkTriple triple = .ok checked) :
    checked = triple := by
  unfold checkTriple at passed
  split at passed <;> cases passed
  rfl

/-- What a template gives stands in its slots and passes the check. -/
theorem slots_of_instantiate {template : Template} {subject : Variable} {value : Option Term}
    {triple : Triple} {s p o : Slot} (body : template.body = .triple s p o)
    (filled : template.instantiate subject value = .ok (some triple)) :
    fillSlot subject value s = .ok triple.subject ∧
      fillSlot subject value p = .ok triple.predicate ∧
      fillSlot subject value o = .ok triple.object ∧ checkTriple triple = .ok triple := by
  rw [instantiate, body, Run.mapError_eq_ok_iff] at filled
  obtain ⟨first, isFirst, filled⟩ := Run.bind_eq_ok_iff_of_except.mp filled
  obtain ⟨second, isSecond, filled⟩ := Run.bind_eq_ok_iff_of_except.mp filled
  obtain ⟨third, isThird, filled⟩ := Run.bind_eq_ok_iff_of_except.mp filled
  obtain ⟨checked, passed, same⟩ := Run.map_eq_ok_iff.mp filled
  cases same
  have whole := eq_of_checkTriple passed
  subst whole
  exact ⟨isFirst, isSecond, isThird, passed⟩

/-- The text of a triple that comes from a template is a template without holes, which
gives the triple again for every row and every value. -/
theorem read_text_of_instantiate {source : String} {template : Template}
    (read : Template.read source = .ok template) {subject : String} {value : Option String}
    {triple : Triple}
    (filled : template.instantiate (Variable.ofText subject)
      (value.map fun name => .variable (Variable.ofText name)) = .ok (some triple)) :
    ∃ again, Template.read triple.text = .ok again ∧
      again.body =
        .triple (.fixed triple.subject) (.fixed triple.predicate) (.fixed triple.object) ∧
      ∀ (row : Variable) (other : Option Term),
        again.instantiate row other = .ok (some triple) := by
  have subjectClean : (Variable.ofText subject).IsClean := ⟨subject, rfl⟩
  have valueClean : IsCleanValue (value.map fun name => .variable (Variable.ofText name)) := by
    intro term given
    obtain ⟨name, _, rfl⟩ := Option.map_eq_some_iff.mp given
    exact ⟨_, rfl, name, rfl⟩
  rcases exists_of_read read with comment | ⟨first, second, third, s, p, o, body,
    ⟨firstSolid, secondSolid, thirdSolid⟩, notComment, isS, isP, isO⟩
  · simp [instantiate, comment, fillBody, Except.mapError] at filled
  · obtain ⟨isSubject, isPredicate, isObject, passed⟩ := slots_of_instantiate body filled
    obtain ⟨subjectBack, starts⟩ :=
      readsBack_of_fillSlot firstSolid isS subjectClean valueClean isSubject
    have predicateBack :=
      (readsBack_of_fillSlot secondSolid isP subjectClean valueClean isPredicate).1
    have objectBack := (readsBack_of_fillSlot thirdSolid isO subjectClean valueClean isObject).1
    refine ⟨_, read_text subjectBack predicateBack objectBack (mt starts notComment), rfl, ?_⟩
    intro row other
    simp only [instantiate, fillBody, fillSlot]
    rw [Run.mapError_eq_ok_iff]
    exact Run.map_eq_ok_iff.mpr ⟨triple, passed, rfl⟩

/-- A template with a variable that has to be cleaned and a literal that holds a blank,
an escaped quote, a full stop and an IRI, and has the full stop of the triple glued to
it. -/
def gluedTemplate : String :=
  "\x7bsubject\x7d $is-a \"a \\\" .\"^^<t u>."

theorem read_text_gluedTemplate :
    ∃ template triple again, Template.read gluedTemplate = .ok template ∧
      template.instantiate (Variable.ofText "s") none = .ok (some triple) ∧
      triple.text = "?s ?is_a \"a \\\" .\"^^<t u> ." ∧
      Template.read triple.text = .ok again ∧
      ∀ (row : Variable) (other : Option Term),
        again.instantiate row other = .ok (some triple) := by
  have given : ∃ template, Template.read gluedTemplate = .ok template ∧
      ∃ result, template.instantiate (Variable.ofText "s") none = .ok result ∧
        result = some ⟨.variable ⟨"s"⟩, .variable ⟨"is_a"⟩, .literal "\"a \\\" .\"^^<t u>"⟩ := by
    decide +kernel
  obtain ⟨template, read, _, filled, rfl⟩ := given
  obtain ⟨again, readAgain, _, same⟩ :=
    @read_text_of_instantiate gluedTemplate template read "s" none _ filled
  exact ⟨template, _, again, read, filled, by decide +kernel, readAgain, same⟩

end Template

end TripleTables

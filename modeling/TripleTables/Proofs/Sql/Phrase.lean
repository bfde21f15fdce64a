import TripleTables.Proofs.Sql.Print

/-!
# Reading phrases

A phrase is read back if its reader reads it from its tokens and stops there,
whatever follows that ends a construct of some rank.  This module says how the
ways to put readers together act on phrases.  A proof that a construct is read
back then follows the tokens of the construct from left to right: each part is
read or passed over, and what stands after it has to end it.
-/

namespace TripleTables.Sql

open Reader Lexer

variable {ε δ α β : Type}

/-- The value is read from the tokens, where what follows ends a construct of
the rank. -/
structure Reads (p : Reader ε α) (rank : Nat) (tokens : List Token) (value : α) : Prop where
  ok : ∀ rest, Stops rank rest → p (write (tokens ++ rest)) = .ok value (write rest)

/-- The reader misses on the tokens, where what follows ends a construct of the
rank. -/
structure Avoids (p : Reader ε α) (rank : Nat) (tokens : List Token) : Prop where
  misses : ∀ rest, Stops rank rest → Misses p (write (tokens ++ rest))

/-- The tokens end a construct of the first rank, where what follows them ends
one of the second. -/
structure Ends (rank low : Nat) (tokens : List Token) : Prop where
  stops : ∀ rest, Stops low rest → Stops rank (tokens ++ rest)

/-- The first of the tokens is of some kind. -/
def Begins (holds : Token → Prop) (tokens : List Token) : Prop :=
  ∃ token more, tokens = token :: more ∧ holds token

section Begins

variable {holds wider : Token → Prop} {first second tokens : List Token} {rank low : Nat}

theorem Begins.append (begins : Begins holds first) (second : List Token) :
    Begins holds (first ++ second) := by
  obtain ⟨token, more, rfl, isGood⟩ := begins
  exact ⟨token, more ++ second, rfl, isGood⟩

theorem Begins.mono (begins : Begins holds tokens) (included : ∀ token, holds token → wider token) :
    Begins wider tokens := by
  obtain ⟨token, more, rfl, isGood⟩ := begins
  exact ⟨token, more, rfl, included token isGood⟩

theorem Begins.avoids {p : Reader ε α} (begins : Begins holds tokens)
    (each : ∀ token, holds token → ∀ rest, Misses p (write (token :: rest))) :
    Avoids p rank tokens := by
  obtain ⟨token, more, rfl, isGood⟩ := begins
  exact ⟨fun rest _ => each token isGood (more ++ rest)⟩

theorem Begins.ends (begins : Begins holds tokens)
    (each : ∀ token, holds token → ∀ rest, Stops rank (token :: rest)) : Ends rank low tokens := by
  obtain ⟨token, more, rfl, isGood⟩ := begins
  exact ⟨fun rest _ => each token isGood (more ++ rest)⟩

end Begins

/-! ## What follows -/

section Ends

variable {rank middle low : Nat} {first second : List Token}

theorem Ends.nil (le : low ≤ rank) : Ends rank low [] :=
  ⟨fun _ stops => stops.mono le⟩

theorem Ends.append (firstEnds : Ends rank middle first) (secondEnds : Ends middle low second) :
    Ends rank low (first ++ second) := by
  constructor
  intro rest stops
  rw [List.append_assoc]
  exact firstEnds.stops _ (secondEnds.stops rest stops)

theorem Ends.mark {symbol : Mark} (lower : symbol.rank < rank) (tokens : List Token) :
    Ends rank low (.mark symbol :: tokens) :=
  ⟨fun rest _ => stops_cons.mpr ⟨flush_mark symbol (tokens ++ rest), lower⟩⟩

theorem Ends.keyword {word : Keyword} (lower : word.rank < rank) (tokens : List Token) :
    Ends rank low (.keyword word :: tokens) :=
  ⟨fun rest _ => stops_cons.mpr ⟨flush_keyword word (tokens ++ rest), lower⟩⟩

theorem Ends.led {word : Keyword} {words : List Keyword} (lower : word.rank < rank)
    (le : low ≤ rank) (tokens : Option (List Token)) :
    Ends rank low (led (word :: words) tokens) := by
  cases tokens with
  | none => exact .nil le
  | some tokens => exact .keyword lower _

theorem Ends.ledList {word : Keyword} {words : List Keyword} (lower : word.rank < rank)
    (le : low ≤ rank) (phrases : List (List Token)) :
    Ends rank low (ledList (word :: words) phrases) := by
  cases phrases with
  | nil => exact .nil le
  | cons first rest => exact .keyword lower _

theorem Ends.flagged {word : Keyword} {flag : Bool} (lower : word.rank < rank)
    (tokensEnd : Ends rank low second) : Ends rank low (flagged flag word ++ second) := by
  cases flag with
  | true => exact .keyword lower second
  | false => exact tokensEnd

end Ends

/-! ## Sequences and choices -/

section Sequences

variable {p q : Reader ε α} {f : α → Reader ε β} {value : α} {result : β}
variable {rank low : Nat} {tokens first second : List Token}

theorem Reads.mono (reads : Reads p rank tokens value) (le : low ≤ rank) :
    Reads p low tokens value :=
  ⟨fun rest stops => reads.ok rest (stops.mono le)⟩

theorem Avoids.mono (avoids : Avoids p rank tokens) (le : low ≤ rank) : Avoids p low tokens :=
  ⟨fun rest stops => avoids.misses rest (stops.mono le)⟩

theorem Reads.pure (value : α) : Reads (pure value : Reader ε α) rank [] value :=
  ⟨fun _ _ => rfl⟩

theorem Reads.bind_before
    (firstRead : ∀ rest, Stops low rest →
      p (write (first ++ (second ++ rest))) = .ok value (write (second ++ rest)))
    (nextReads : Reads (f value) low second result) :
    Reads (p >>= f) low (first ++ second) result := by
  constructor
  intro rest stops
  rw [List.append_assoc, bind_of_ok (firstRead rest stops)]
  exact nextReads.ok rest stops

theorem Reads.bind (firstReads : Reads p rank first value)
    (nextReads : Reads (f value) low second result) (ends : Ends rank low second) :
    Reads (p >>= f) low (first ++ second) result :=
  .bind_before (fun rest stops => firstReads.ok _ (ends.stops rest stops)) nextReads

/-- A value that is made of what was read last. -/
theorem Reads.map (reads : Reads p rank tokens value) (g : α → β) :
    Reads (do return g (← p)) rank tokens (g value) := by
  constructor
  intro rest stops
  rw [bind_of_ok (reads.ok rest stops)]
  rfl

/-- The last step of a reader reads nothing. -/
theorem Reads.bind_last (reads : Reads p rank tokens value)
    (last : ∀ s, f value s = .ok result s) : Reads (p >>= f) rank tokens result :=
  ⟨fun rest stops => (bind_of_ok (reads.ok rest stops)).trans (last _)⟩

theorem Avoids.bind (avoids : Avoids p rank tokens) (f : α → Reader ε β) :
    Avoids (p >>= f) rank tokens :=
  ⟨fun rest stops => (avoids.misses rest stops).bind f⟩

theorem Avoids.after (reads : Reads p rank first value) (avoids : Avoids (f value) low second)
    (ends : Ends rank low second) : Avoids (p >>= f) low (first ++ second) := by
  constructor
  intro rest stops
  rw [List.append_assoc]
  exact .after (reads.ok _ (ends.stops rest stops)) (avoids.misses rest stops)

theorem Reads.orElse_left (reads : Reads p rank tokens value) (q : Reader ε α) :
    Reads (orElse p q) rank tokens value :=
  ⟨fun rest stops => orElse_of_ok (reads.ok rest stops) q⟩

theorem Reads.orElse_right (avoids : Avoids p rank tokens) (reads : Reads q rank tokens value) :
    Reads (orElse p q) rank tokens value :=
  ⟨fun rest stops => (orElse_of_misses (avoids.misses rest stops) q).trans (reads.ok rest stops)⟩

theorem Reads.orAfterFailure_left (reads : Reads p rank tokens value) (q : Reader ε α) :
    Reads (orAfterFailure p q) rank tokens value :=
  ⟨fun rest stops => orAfterFailure_of_ok (reads.ok rest stops) q⟩

theorem Reads.orAfterFailure_right (avoids : Avoids p rank tokens)
    (reads : Reads q rank tokens value) : Reads (orAfterFailure p q) rank tokens value :=
  ⟨fun rest stops =>
    (orAfterFailure_of_misses (avoids.misses rest stops) q).trans (reads.ok rest stops)⟩

theorem Avoids.orAfterFailure (first : Avoids p rank tokens) (second : Avoids q rank tokens) :
    Avoids (Reader.orAfterFailure p q) rank tokens :=
  ⟨fun rest stops =>
    misses_orAfterFailure (first.misses rest stops) (second.misses rest stops)⟩

theorem Reads.firstOf_head (reads : Reads p rank tokens value) (others : List (Reader ε α)) :
    Reads (Reader.firstOf p others) rank tokens value :=
  ⟨fun rest stops => firstOf_of_ok (reads.ok rest stops) others⟩

theorem Avoids.firstOf {others : List (Reader ε α)}
    (avoids : ∀ choice ∈ p :: others, Avoids choice rank tokens) :
    Avoids (Reader.firstOf p others) rank tokens := by
  constructor
  intro rest stops
  apply misses_firstOf ((avoids p (by simp)).misses rest stops)
  intro other member
  exact (avoids other (by simp [member])).misses rest stops

theorem Reads.optional (reads : Reads p rank tokens value) :
    Reads (Reader.optional p) rank tokens (some value) :=
  ⟨fun rest stops => optional_of_ok (reads.ok rest stops)⟩

theorem Reads.absent (avoids : Avoids p rank []) : Reads (Reader.optional p) rank [] none :=
  ⟨fun rest stops => optional_of_misses (avoids.misses rest stops)⟩

/-- A part that reads nothing is passed over. -/
theorem Reads.pass
    (passes : ∀ rest, Stops low rest →
      p (write (tokens ++ rest)) = .ok value (write (tokens ++ rest)))
    (reads : Reads (f value) low tokens result) : Reads (p >>= f) low tokens result := by
  constructor
  intro rest stops
  rw [bind_of_ok (passes rest stops)]
  exact reads.ok rest stops

/-- A part that is absent is passed over. -/
theorem Reads.skip {f : Option α → Reader ε β} (avoids : Avoids p low tokens)
    (reads : Reads (f none) low tokens result) :
    Reads (Reader.optional p >>= f) low tokens result :=
  .pass (fun rest stops => optional_of_misses (avoids.misses rest stops)) reads

theorem Avoids.skip {f : Option α → Reader ε β} (avoids : Avoids p low tokens)
    (next : Avoids (f none) low tokens) : Avoids (Reader.optional p >>= f) low tokens :=
  ⟨fun rest stops => .after (optional_of_misses (avoids.misses rest stops))
    (next.misses rest stops)⟩

theorem Reads.mapErrors {onMiss onHalt : ε → Reply δ α} (reads : Reads p rank tokens value) :
    Reads (mapErrors p onMiss onHalt) rank tokens value :=
  ⟨fun rest stops => mapErrors_of_ok (reads.ok rest stops) onMiss onHalt⟩

end Sequences

/-! ## Words and marks -/

section Fixed

variable {f : Unit → Lexer β} {result : β} {low rank : Nat} {tokens : List Token}

theorem reads_keyword (word : Keyword) : Reads (keyword word.text) 25 [.keyword word] () :=
  ⟨fun _ stops => keyword_write word stops.1⟩

theorem Reads.keyword (word : Keyword) (reads : Reads (f ()) low tokens result)
    (ends : Ends 25 low tokens) :
    Reads (Lexer.keyword word.text >>= f) low (.keyword word :: tokens) result :=
  .bind (reads_keyword word) reads ends

theorem Avoids.keyword (word : Keyword) : Avoids (Lexer.keyword word.text) word.rank [] :=
  ⟨fun _ stops => keyword_misses_of_stops word stops⟩

theorem reads_symbol {symbol : Mark} {c : Char} (single : symbol.chars = [c]) :
    Reads (Lexer.symbol c) 25 [.mark symbol] () :=
  ⟨fun _ stops => symbol_write single stops.1⟩

theorem Reads.symbol {symbol : Mark} {c : Char} (single : symbol.chars = [c])
    (reads : Reads (f ()) low tokens result) (ends : Ends 25 low tokens) :
    Reads (Lexer.symbol c >>= f) low (.mark symbol :: tokens) result :=
  .bind (reads_symbol single) reads ends

theorem Avoids.keyword_of_ne (word : Keyword) {other : Keyword} (different : other ≠ word)
    (tokens : List Token) : Avoids (Lexer.keyword word.text) rank (.keyword other :: tokens) :=
  ⟨fun rest _ => keyword_misses_keyword different (tokens ++ rest)⟩

/-- A reader of what stands in brackets. -/
theorem Reads.inBrackets {p : Lexer α} {value : α} (reads : Reads p rank tokens value)
    (positive : 0 < rank) (flush : Ends 25 1 tokens) (g : α → β) :
    Reads (do Lexer.symbol '('; let value ← p; Lexer.symbol ')'; return g value) 25
      (inBrackets tokens) (g value) := by
  have closed : Reads (do Lexer.symbol ')'; return g value : Lexer β) 25 [.mark .closeBracket]
      (g value) :=
    .symbol rfl (.pure (g value)) (.nil (Nat.le_refl 25))
  exact .symbol rfl (.bind reads closed (.mark positive [])) (flush.append (.mark (by decide) []))

/-- Where a construct of the rank of a mark ends, no text starts with the mark. -/
theorem Stops.head?_ne {symbol : Mark} {c : Char} {rest : List Token}
    (stops : Stops symbol.rank rest)
    (alone : ∀ other : Mark, other.rank < symbol.rank → other.chars.head? ≠ some c)
    (noWord : isWordStart c = false) : (write rest).head? ≠ some c := by
  have bounded : symbol.rank ≤ 24 := by cases symbol <;> decide
  rcases stops.cases bounded with rfl | ⟨other, more, rfl, lower⟩ | ⟨word, more, rfl, lower⟩
  · simp
  · obtain ⟨first, last, chars, _⟩ := other.startsWith
    have apart := alone other lower
    rw [Token.chars] at chars
    simpa [write_cons, Token.chars, chars] using apart
  · obtain ⟨first, last, chars, start, _⟩ := word.isWord
    have different : first ≠ c := by
      rintro rfl
      simp [noWord] at start
    simpa [write_cons, Token.chars, chars] using different

end Fixed

/-! ## Repetition -/

theorem length_write_le_append (first rest : List Token) :
    (write rest).length ≤ (write (first ++ rest)).length := by
  induction first with
  | nil => exact Nat.le_refl _
  | cons token more ih =>
      rw [List.cons_append, write_cons, List.length_append]
      cases following : more ++ rest with
      | nil =>
          rw [following, write_nil, List.length_nil] at ih
          omega
      | cons next after =>
          rw [following] at ih
          rw [gap, List.length_cons]
          omega

/-- The token is a mark or a keyword that is bound less tightly than the rank. -/
def Token.Separates (rank : Nat) (token : Token) : Prop :=
  (∃ symbol, token = .mark symbol ∧ symbol.rank < rank) ∨
    ∃ word, token = .keyword word ∧ word.rank < rank

section Repetition

variable {rank low : Nat} {tokens : List Token}

theorem Token.separates_mark {symbol : Mark} (lower : symbol.rank < rank) :
    (Token.mark symbol).Separates rank :=
  .inl ⟨symbol, rfl, lower⟩

theorem Token.separates_keyword {word : Keyword} (lower : word.rank < rank) :
    (Token.keyword word).Separates rank :=
  .inr ⟨word, rfl, lower⟩

theorem Token.Separates.mono {token : Token} (separates : token.Separates low) (le : low ≤ rank) :
    token.Separates rank := by
  rcases separates with ⟨symbol, rfl, lower⟩ | ⟨word, rfl, lower⟩
  · exact Token.separates_mark (Nat.lt_of_lt_of_le lower le)
  · exact Token.separates_keyword (Nat.lt_of_lt_of_le lower le)

theorem Begins.ends_of_separates (begins : Begins (Token.Separates rank) tokens) :
    Ends rank low tokens := by
  apply begins.ends
  rintro token (⟨symbol, rfl, lower⟩ | ⟨word, rfl, lower⟩) rest
  · exact stops_cons.mpr ⟨flush_mark symbol rest, lower⟩
  · exact stops_cons.mpr ⟨flush_keyword word rest, lower⟩

theorem Begins.length_write_lt (begins : Begins (Token.Separates rank) tokens) (rest : List Token) :
    (write rest).length < (write (tokens ++ rest)).length := by
  obtain ⟨token, more, rfl, separates⟩ := begins
  have someChar : 1 ≤ token.chars.length := by
    rcases separates with ⟨symbol, rfl, _⟩ | ⟨word, rfl, _⟩
    · exact symbol.one_le_length
    · exact word.one_le_length
  have shorter := length_write_le_append more rest
  have gapped : (write (more ++ rest)).length ≤ (gap (more ++ rest)).length := by
    cases more ++ rest with
    | nil => exact Nat.le_refl _
    | cons next after => exact Nat.le_succ _
  rw [List.cons_append, write_cons, List.length_append]
  omega

variable {p : Reader ε α} {values : List α} {phrase : α → List Token}

/-- What follows a phrase among others ends it. -/
theorem stops_flatMap (begins : ∀ value ∈ values, Begins (Token.Separates rank) (phrase value))
    {rest : List Token} (stops : Stops rank rest) : Stops rank (values.flatMap phrase ++ rest) := by
  cases values with
  | nil => exact stops
  | cons next after =>
      have nextEnds : Ends rank rank ((next :: after).flatMap phrase) :=
        ((begins next (by simp)).append _).ends_of_separates
      exact nextEnds.stops rest stops

/-- Phrases one after another are read in turn. -/
theorem rounds_of_reads (each : ∀ value ∈ values, Reads p rank (phrase value) value)
    (begins : ∀ value ∈ values, Begins (Token.Separates rank) (phrase value))
    {rest : List Token} (stops : Stops rank rest) (found : List α) :
    Rounds (fun found => do return (← p) :: found) found (write (values.flatMap phrase ++ rest))
      (values.reverse ++ found) (write rest) := by
  induction values generalizing found with
  | nil => exact .none found _
  | cons value more ih =>
      have beginsMore : ∀ next ∈ more, Begins (Token.Separates rank) (phrase next) :=
        fun next member => begins next (by simp [member])
      have moreRounds :=
        ih (fun next member => each next (by simp [member])) beginsMore (value :: found)
      have first := ((each value (by simp)).map (· :: found)).ok _ (stops_flatMap beginsMore stops)
      have shorter := (begins value (by simp)).length_write_lt (more.flatMap phrase ++ rest)
      rw [List.flatMap_cons, List.append_assoc, List.reverse_cons, List.append_assoc]
      exact .next first shorter moreRounds

theorem many_write (each : ∀ value ∈ values, Reads p rank (phrase value) value)
    (begins : ∀ value ∈ values, Begins (Token.Separates rank) (phrase value))
    {rest : List Token} (stops : Stops rank rest) (missed : Misses p (write rest)) :
    Reader.many p (write (values.flatMap phrase ++ rest)) = .ok values (write rest) := by
  have rounds := rounds_of_reads each begins stops []
  have stop : Misses (do return (← p) :: (values.reverse ++ [])) (write rest) := missed.bind _
  unfold Reader.many
  rw [bind_of_ok (repeating_of_rounds rounds stop)]
  simp

theorem Reads.many (le : low ≤ rank) (each : ∀ value ∈ values, Reads p rank (phrase value) value)
    (begins : ∀ value ∈ values, Begins (Token.Separates rank) (phrase value))
    (avoids : Avoids p low []) : Reads (Reader.many p) low (values.flatMap phrase) values :=
  ⟨fun rest stops => many_write each begins (stops.mono le) (avoids.misses rest stops)⟩

theorem Reads.many1 (some : values ≠ []) (le : low ≤ rank)
    (each : ∀ value ∈ values, Reads p rank (phrase value) value)
    (begins : ∀ value ∈ values, Begins (Token.Separates rank) (phrase value))
    (avoids : Avoids p low []) : Reads (Reader.many1 p) low (values.flatMap phrase) values := by
  cases values with
  | nil => contradiction
  | cons value more =>
      have beginsMore : ∀ next ∈ more, Begins (Token.Separates rank) (phrase next) :=
        fun next member => begins next (by simp [member])
      have moreRead : Reads (Reader.many p) low (more.flatMap phrase) more :=
        .many le (fun next member => each next (by simp [member])) beginsMore avoids
      exact .bind (each value (by simp)) (moreRead.map (value :: ·))
        ⟨fun rest stops => stops_flatMap beginsMore (stops.mono le)⟩

variable {separator : Reader ε β} {symbol : Mark}

/-- A list is read up to a place where no separator with a value behind it
follows. -/
theorem separatedList1_write (some : values ≠ []) (lower : symbol.rank < rank)
    (each : ∀ value ∈ values, Reads p rank (phrase value) value)
    (next : ∀ value ∈ values,
      Reads (do let _ ← separator; p) rank (.mark symbol :: phrase value) value)
    {rest : List Token} (stops : Stops rank rest)
    (missed : Misses (do let _ ← separator; p) (write rest)) :
    Reader.separatedList1 separator p (write (listed (.mark symbol) (values.map phrase) ++ rest)) =
      .ok values (write rest) := by
  cases values with
  | nil => contradiction
  | cons value more =>
      have begins : ∀ value ∈ more, Begins (Token.Separates rank) (.mark symbol :: phrase value) :=
        fun value _ => ⟨.mark symbol, phrase value, rfl, .inl ⟨symbol, rfl, lower⟩⟩
      have moreRead := many_write (fun value member => next value (by simp [member])) begins stops
        missed
      have first := (each value (by simp)).ok _ (stops_flatMap begins stops)
      rw [List.map_cons, listed, List.flatMap_map, List.append_assoc]
      refine (bind_of_ok first).trans ?_
      exact bind_of_ok moreRead

end Repetition

/-- Phrases with commas between them. -/
theorem Reads.commaList {p : Lexer α} {rank : Nat} {values : List α} {phrase : α → List Token}
    (some : values ≠ []) (le : 9 ≤ rank)
    (each : ∀ value ∈ values, Reads p rank (phrase value) value)
    (flush : ∀ value ∈ values, Ends 25 rank (phrase value)) :
    Reads (Reader.separatedList1 (Lexer.symbol ',') p) 8
      (listed (.mark .comma) (values.map phrase)) values := by
  have alone : ∀ other : Mark, other.rank < Mark.comma.rank →
      other.chars.head? ≠ Option.some ',' := by
    intro other
    cases other <;> decide
  constructor
  intro rest stops
  have noComma : Misses (Lexer.symbol ',') (write rest) :=
    symbol_misses stops.1 (@Stops.head?_ne .comma ',' rest stops alone (by decide))
  apply separatedList1_write some le each
  · intro value member
    exact .symbol rfl (each value member) (flush value member)
  · exact stops.mono (by omega)
  · exact noComma.bind _

end TripleTables.Sql

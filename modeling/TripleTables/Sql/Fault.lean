import TripleTables.Sql.Lexeme

/-!
# Faults of a statement

Where a statement goes wrong and in which part of it.  A fault shows the first
characters of the text that was left.
-/

namespace TripleTables.Sql

/-- The part of a statement that goes wrong. -/
inductive Context where
  /-- No keyword that is expected. -/
  | unexpected
  | selectClause
  | fromClause
  | whereClause
  | groupByClause
  | havingClause
  | orderByClause
  | limitClause
  | offsetClause
  /-- More text than a statement. -/
  | leftover
  /-- The statement with more text after it. -/
  | trailing
deriving DecidableEq, Repr

/-- The part in words. -/
def Context.text : Context → String
  | .unexpected => "Unable to parse"
  | .selectClause => "Error in select clause"
  | .fromClause => "Error in from clause"
  | .whereClause => "Error in where clause"
  | .groupByClause => "Error in group by clause"
  | .havingClause => "Error in having clause"
  | .orderByClause => "Error in order by clause"
  | .limitClause => "Error in limit clause"
  | .offsetClause => "Error in offset clause"
  | .leftover => "unknown error"
  | .trailing => "Unexpected trailing input"

/-- One place where a statement goes wrong. -/
structure Fault where
  place : Position
  context : Context
deriving DecidableEq, Repr

/-- The number of characters that a message shows. -/
def Fault.shown : Nat := 40

/-- The fault in one line. -/
def Fault.line (fault : Fault) : List Char :=
  let snippet := fault.place.take shown
  fault.context.text.toList ++ ": ".toList ++
    (if snippet.isEmpty then "<end of input>".toList else snippet) ++ ['\n']

/-- Why a statement cannot be read. -/
structure ReadError where
  /-- The faults, the innermost first. -/
  faults : List Fault
deriving DecidableEq, Repr

namespace ReadError

/-- The error of one fault. -/
def single (place : Position) (context : Context) : ReadError :=
  ⟨[⟨place, context⟩]⟩

/-- The place of the innermost fault. -/
def place (error : ReadError) : Position :=
  match error.faults with
  | [] => []
  | fault :: _ => fault.place

/-- The faults in words, one a line, as characters. -/
def chars (error : ReadError) : List Char :=
  error.faults.flatMap Fault.line

/-- The faults in words, one a line. -/
def message (error : ReadError) : String :=
  String.ofList error.chars

end ReadError

/-- How the reading of a text ends without a query. -/
inductive ReadFailure where
  /-- The text is no statement. -/
  | unreadable (error : ReadError)
  /-- The text was to be cut inside a character, in what is left from `place` on.
  The program breaks down there and tells of no error. -/
  | torn (place : Position)
deriving DecidableEq, Repr

end TripleTables.Sql

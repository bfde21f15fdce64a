import TripleTables.Sql.Expression
import TripleTables.Sql.Fault

/-!
# Reading statements

The clauses of a SELECT statement.  A clause misses where its keyword is
absent; once the keyword has been read, the clause is committed and any error
in it is a halt that names the clause.

The grammar of nested parts is closed here.  Every nesting stands behind at
least one character, so the text that is read bounds how deep the parts can be
nested, and it serves as the clock of the recursion.
-/

namespace TripleTables.Sql

open Reader Lexer

/-- Readers of clauses. -/
abbrev ClauseReader := Reader ReadError

namespace Clause

variable {α : Type}

/-- Reads the opening of a clause: a miss stays a miss. -/
def opening (p : Lexer α) : ClauseReader α :=
  mapErrors p (fun place => .miss (.single place .unexpected))
    (fun place => .halt (.single place .unexpected))

/-- Reads the body of a clause that has been opened: every error is a halt. -/
def committed (context : Context) (p : Lexer α) : ClauseReader α :=
  mapErrors p (fun place => .halt (.single place context))
    (fun place => .halt (.single place context))

/-- Reads a clause: its opening keywords, then its body. -/
def clause (context : Context) (keywords : Lexer Unit) (body : Lexer α) : ClauseReader α := do
  opening keywords
  committed context body

/-- Reads a query where an expression is read: of an error only its kind and
its place remain. -/
def asPart (p : ClauseReader α) : Lexer α :=
  mapErrors p (fun error => .miss error.place) (fun error => .halt error.place)

section Parts

variable (nested : Nested)

/-- The expression reader for nested parts. -/
abbrev expression : Lexer Expr :=
  Expression.disjunction nested

/-! ## The select list -/

/-- Reads one item of a select list. -/
def selectItem : Lexer SelectItem :=
  firstOf (do symbol '*'; return .wildcard)
    [ do
        let name ← objectName
        symbol '.'
        symbol '*'
        return .qualifiedWildcard name
    , do
        let expr ← expression nested
        let name ← optional Lexer.asName
        return .expr expr name ]

/-- Reads the word that tells whether equal rows are kept. -/
def distinctness : Lexer Bool := do
  let flag ← optional (firstOf (do keyword "DISTINCT"; return true)
    [do keyword "ALL"; return false])
  return flag.getD false

/-- Reads the select clause. -/
def selectClause : ClauseReader (Bool × List SelectItem) := do
  opening (keyword "SELECT")
  let distinct ← opening distinctness
  let items ← committed .selectClause (separatedList1 (symbol ',') (selectItem nested))
  return (distinct, items)

/-! ## Sources -/

/-- Reads a table or a query that rows are drawn from. -/
def source : Lexer Source :=
  orElse
    (do
      let query ← Expression.bracketedQuery nested
      return .derived query (← optional Lexer.asName))
    (do
      let name ← objectName
      return .table name (← optional Lexer.asName))

/-- Reads a kind of join, of which the word OUTER may be left out. -/
def outerJoin (word : String) (kind : JoinKind) : Lexer JoinKind := do
  keyword word
  let _ ← optional (keyword "OUTER")
  return kind

/-- Reads the words before a joined source other than those of a cross join. -/
def joinKind : Lexer JoinKind := do
  let kind ← optional (firstOf (do keyword "INNER"; return .inner)
    [ outerJoin "LEFT" .leftOuter
    , outerJoin "RIGHT" .rightOuter
    , outerJoin "FULL" .fullOuter ])
  keyword "JOIN"
  return kind.getD .inner

/-- Reads the condition of a join. -/
def joinCondition : Lexer Expr := do
  keyword "ON"
  expression nested

/-- Reads a join. -/
def join : Lexer Join := do
  match ← optional (do keyword "CROSS"; keyword "JOIN") with
  | some _ => return ⟨← source nested, .cross⟩
  | none =>
      let kind ← joinKind
      let source ← source nested
      let condition ← optional (joinCondition nested)
      return ⟨source, .on kind condition⟩

/-- Reads a source with the joins that follow it. -/
def sourceWithJoins : Lexer SourceWithJoins := do
  let source ← source nested
  let joins ← many (join nested)
  return ⟨source, joins⟩

/-- Reads the from clause. -/
def fromClause : ClauseReader (List SourceWithJoins) :=
  clause .fromClause (keyword "FROM") (separatedList1 (symbol ',') (sourceWithJoins nested))

/-! ## Conditions and groups -/

/-- Reads the where clause. -/
def whereClause : ClauseReader Expr :=
  clause .whereClause (keyword "WHERE") (expression nested)

/-- Reads the group by clause. -/
def groupByClause : ClauseReader (List Expr) :=
  clause .groupByClause (do keyword "GROUP"; keyword "BY")
    (separatedList1 (symbol ',') (expression nested))

/-- Reads the having clause. -/
def havingClause : ClauseReader Expr :=
  clause .havingClause (keyword "HAVING") (expression nested)

/-! ## Order and page -/

/-- Reads one key of an order, which is ascending unless it says otherwise. -/
def orderItem : Lexer OrderItem := do
  let expr ← expression nested
  let ascending ← optional (firstOf (do keyword "ASC"; return true)
    [do keyword "DESC"; return false])
  return ⟨expr, ascending.getD true⟩

/-- Reads the order by clause. -/
def orderByClause : ClauseReader (List OrderItem) :=
  clause .orderByClause (do keyword "ORDER"; keyword "BY")
    (separatedList1 (symbol ',') (orderItem nested))

/-- Reads the limit clause. -/
def limitClause : ClauseReader Nat :=
  clause .limitClause (keyword "LIMIT") rowCount

/-- Reads the offset clause. -/
def offsetClause : ClauseReader Nat :=
  clause .offsetClause (keyword "OFFSET") rowCount

/-- Reads the limit and the offset, in either order. -/
def page : ClauseReader (Option Nat × Option Nat) := do
  match ← optional limitClause with
  | some limit => return (some limit, ← optional offsetClause)
  | none =>
      let offset ← optional offsetClause
      return (← optional limitClause, offset)

/-! ## Queries -/

/-- Reads a query. -/
def query : ClauseReader Query := do
  let (distinct, items) ← selectClause nested
  let sources ← optional (fromClause nested)
  let condition ← optional (whereClause nested)
  let groupBy ← optional (groupByClause nested)
  let having ← optional (havingClause nested)
  let orderBy ← optional (orderByClause nested)
  let (limit, offset) ← page
  return { distinct
           items
           sources := sources.getD []
           condition
           groupBy := groupBy.getD []
           having
           orderBy := orderBy.getD []
           limit
           offset }

end Parts

end Clause

/-! ## Closing the recursion -/

namespace Nested

mutual

/-- The reader for nested expressions with a clock. -/
def exprAt : List Char → Lexer Expr
  | [] => Lexer.fail
  | _ :: clock => fun s =>
      Expression.disjunction
        ⟨exprAt clock, negationAt clock, signedAt clock, queryAt clock⟩ s

/-- The reader for nested negations with a clock. -/
def negationAt : List Char → Lexer Expr
  | [] => Lexer.fail
  | _ :: clock => fun s =>
      Expression.negation
        ⟨exprAt clock, negationAt clock, signedAt clock, queryAt clock⟩ s

/-- The reader for nested signs with a clock. -/
def signedAt : List Char → Lexer Expr
  | [] => Lexer.fail
  | _ :: clock => fun s =>
      Expression.signed
        ⟨exprAt clock, negationAt clock, signedAt clock, queryAt clock⟩ s

/-- The reader for nested queries with a clock. -/
def queryAt : List Char → Lexer Query
  | [] => Lexer.fail
  | _ :: clock => fun s =>
      Clause.asPart
        (Clause.query ⟨exprAt clock, negationAt clock, signedAt clock, queryAt clock⟩) s

end

/-- The readers for nested parts of a text, with the text as the clock. -/
def within (clock : List Char) : Nested :=
  ⟨exprAt clock, negationAt clock, signedAt clock, queryAt clock⟩

end Nested

/-- Reads an expression. -/
def readExpr : Lexer Expr :=
  fun s => Expression.disjunction (Nested.within s) s

/-- Reads a query. -/
def readQuery : ClauseReader Query :=
  fun s => Clause.query (Nested.within s) s

/-- Nothing may be left. -/
def endOfText : ClauseReader Unit
  | [] => .ok () []
  | s => .halt ⟨[⟨s, .leftover⟩, ⟨s, .trailing⟩]⟩

/-- Reads a statement: a query and perhaps a semicolon, with nothing after
them. -/
def readStatement : ClauseReader Query := do
  Clause.opening spaces
  let query ← readQuery
  let _ ← optional (Clause.opening (symbol ';'))
  endOfText
  return query

/-- The query of a text. -/
def parse (text : String) : Except ReadFailure Query :=
  match readStatement text.toList with
  | .ok query _ => .ok query
  | .miss error => .error (.unreadable error)
  | .halt error => .error (.unreadable error)
  | .torn place => .error (.torn place)

end TripleTables.Sql

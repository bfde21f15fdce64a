import TripleTables.Proofs.Builder.Capture
import TripleTables.Proofs.Builder.Layout
import TripleTables.Proofs.Compile.WellScoped
import TripleTables.Proofs.Graph.Renaming
import TripleTables.Query.View

/-!
# Columns of a view

A view renames the variables of a query: a column keeps its own segment and takes
the schema and the table from the name of the view.  Which binding a column came
from is forgotten, so the columns of two bindings fall together exactly when they
are called alike.  A variable stands for the first column that has it, and only this
one counts (`Query.entryOf?`).  Conditions go through the same renaming, variable by variable:
one that compares two columns of one name compares a variable with itself in the
view.
-/

namespace TripleTables

open TripleTables.Graph

/-! ## Names in a view -/

namespace Graph.Variable

theorem intercalate_concat (first : List Char) (rest : List (List Char)) (word : List Char) :
    [middleDot].intercalate (first :: rest ++ [word]) =
      [middleDot].intercalate (first :: rest) ++ middleDot :: word := by
  induction rest generalizing first with
  | nil => simp
  | cons second others ih => simpa using ih second

/-- A plain word at the end stays the last word. -/
theorem words_append_plain (front : List Char) {word : List Char}
    (plain : Plain word) : words (front ++ middleDot :: word) = words front ++ [word] := by
  have single : word.splitOn middleDot = [word] :=
    List.splitOn_eq_singleton fun dot => (plain.2 _ dot).2 rfl
  have cut : (front ++ middleDot :: word).splitOn middleDot =
      front.splitOn middleDot ++ [word] := by
    rw [List.splitOn_append_cons_self, single]
  unfold words
  rw [cut]
  cases pieces : front.splitOn middleDot with
  | nil => exact absurd pieces (List.splitOn_ne_nil _ _)
  | cons first rest => simp [plain.map_cleanChar]

end Graph.Variable

namespace Name

/-- The schema, the table and the column are present and plain. -/
def PlainColumn (name : Name) : Prop :=
  PlainSegment name.schema ∧ PlainSegment name.table ∧ PlainSegment name.column

instance : DecidablePred PlainColumn := fun name =>
  inferInstanceAs (Decidable (PlainSegment name.schema ∧ PlainSegment name.table ∧
    PlainSegment name.column))

/-- Plain names with the same words have the same column. -/
theorem PlainColumn.column_eq {first second : Name} (plainFirst : first.PlainColumn)
    (plainSecond : second.PlainColumn) (same : first.words = second.words) :
    first.column = second.column := by
  have words : ∀ {name : Name}, name.PlainColumn → ∃ schema table column,
      name.column = some column ∧ name.words = [schema, table, column.toList] := by
    intro name plain
    obtain ⟨schema, isSchema, plainSchema⟩ := plain.1.exists_eq_some
    obtain ⟨table, isTable, plainTable⟩ := plain.2.1.exists_eq_some
    obtain ⟨column, isColumn, plainText⟩ := plain.2.2.exists_eq_some
    have present : name.present = [schema, table, column] := by
      simp [Name.present, isSchema, isTable, isColumn]
    refine ⟨schema.toList, table.toList, column, isColumn, ?_⟩
    rw [words_of_plain (by simp [present]) (by simp [present, plainSchema, plainTable, plainText]),
      present]
    rfl
  obtain ⟨_, _, column, isColumn, firstWords⟩ := words plainFirst
  obtain ⟨_, _, other, isOther, secondWords⟩ := words plainSecond
  rw [firstWords, secondWords] at same
  have sameText : column = other := by
    simp only [List.cons.injEq, String.toList_inj] at same
    exact same.2.2.1
  rw [isColumn, isOther, sameText]

end Name

namespace View

/-- The name of a column in a view. -/
def outerName (view column : Name) : Name :=
  Name.ofSegments view.catalog view.schema view.table column.column

/-- The words of a plain column in a view end with the column, behind words that
the view alone decides. -/
theorem exists_words_outerName (view : Name) :
    ∃ front, ∀ {column : Name} {text : String}, column.column = some text →
      Variable.Plain text.toList → (outerName view column).words = front ++ [text.toList] := by
  have spelling : ∀ {column : Name} {text : String}, column.column = some text →
      Variable.Plain text.toList → (outerName view column).spelled.toList =
        [Variable.middleDot].intercalate
          (([Name.segment view.schema, Name.segment view.table].filterMap
          id ++ [text]).map String.toList) := by
    intro column text isText plain
    have nonempty : text ≠ "" := by
      rintro rfl
      exact plain.1 rfl
    have present : [(outerName view column).schema, (outerName view column).table,
        (outerName view column).column].filterMap id =
          [Name.segment view.schema, Name.segment view.table].filterMap id ++ [text] := by
      simp only [outerName, Name.ofSegments, isText, Name.segment_some_of_ne_empty nonempty]
      cases Name.segment view.schema <;> cases Name.segment view.table <;> rfl
    rw [Name.spelled, Name.joinedBy, present]
    exact String.toList_intercalate
  generalize [Name.segment view.schema, Name.segment view.table].filterMap id = segments at spelling
  cases segments with
  | nil =>
      refine ⟨[], ?_⟩
      intro column text isText plain
      rw [Name.words, spelling isText plain]
      simpa using plain.words
  | cons first rest =>
      refine ⟨Variable.words
        ([Variable.middleDot].intercalate ((first :: rest).map String.toList)), ?_⟩
      intro column text isText plain
      rw [Name.words, spelling isText plain, ← Variable.words_append_plain _ plain,
        List.map_append, List.map_cons, List.map_singleton, Variable.intercalate_concat]

end View

/-! ## Variables in a view -/

namespace Query

variable {query : Query} {mentioned : MentionedColumn}

/-- The mentioned column that a variable stands for: the first that has it. -/
def entryOf? (query : Query) (v : Variable) : Option MentionedColumn :=
  query.columns.find? fun column => column.var = v

theorem exists_entryOf? (member : mentioned ∈ query.columns) :
    ∃ entry ∈ query.columns, query.entryOf? mentioned.var = some entry ∧
      entry.var = mentioned.var := by
  have found : (query.entryOf? mentioned.var).isSome := by
    rw [entryOf?, List.find?_isSome]
    exact ⟨mentioned, member, by simp⟩
  obtain ⟨entry, isFound⟩ := Option.isSome_iff_exists.mp found
  exact ⟨entry, List.mem_of_find?_eq_some isFound, isFound, by simpa using List.find?_some isFound⟩

/-- Where no two columns have one variable, it stands for its own column. -/
theorem entryOf?_of_nodup (distinct : (query.columns.map MentionedColumn.var).Nodup)
    (member : mentioned ∈ query.columns) : query.entryOf? mentioned.var = some mentioned := by
  obtain ⟨entry, isEntry, found, same⟩ := exists_entryOf? member
  rw [found, List.inj_on_of_nodup_map distinct isEntry member same]

end Query

namespace View

variable {name : Name} {query : Query}

/-- A column of the query is renamed to the view, whatever binding it is of: its
own binding has an alias, and all aliases lead to the view. -/
theorem mapColumn?_of_mem {mentioned : MentionedColumn} (member : mentioned ∈ query.columns) :
    (ofQuery name query).outerNames.mapColumn? mentioned.name =
      some (outerName name mentioned.name) := by
  have own : mentioned.name.withoutColumn ∈ bindingNames query := by
    rw [bindingNames, List.mem_eraseDups]
    exact List.mem_map_of_mem member
  have covers : mentioned.name.withoutColumn.covers mentioned.name = true := by
    simp [Name.covers, Name.withoutColumn]
  have found : ((ofQuery name query).outerNames.aliases.find?
      fun entry => entry.1.covers mentioned.name).isSome := by
    rw [List.find?_isSome]
    exact ⟨_, List.mem_map_of_mem own, covers⟩
  obtain ⟨entry, isFound⟩ := Option.isSome_iff_exists.mp found
  obtain ⟨inner, _, rfl⟩ := List.mem_map.mp (List.mem_of_find?_eq_some isFound)
  rw [Renaming.mapColumn?, isFound]
  rfl

/-- The outer variable is that of the name, in the view, of the column that the
variable stands for. -/
theorem outerVariable_of_entryOf? {v : Variable} {entry : MentionedColumn}
    (found : query.entryOf? v = some entry) :
    (ofQuery name query).outerVariable v = Variable.ofName (outerName name entry.name) := by
  have mapped : ((ofQuery name query).query.columnOf v).bind
      (ofQuery name query).outerNames.mapColumn? = some (outerName name entry.name) := by
    change ((query.entryOf? v).map MentionedColumn.name).bind _ = _
    rw [found, Option.map_some, Option.bind_some,
      mapColumn?_of_mem (List.mem_of_find?_eq_some found)]
  rw [outerVariable, Renaming.mapVariable, mapped]

/-- Variables fall together in a view exactly when the columns that they stand for
have names in the view with the same words. -/
theorem outerVariable_eq_iff {first second : Variable} {entry other : MentionedColumn}
    (found : query.entryOf? first = some entry) (foundOther : query.entryOf? second = some other) :
    (ofQuery name query).outerVariable first = (ofQuery name query).outerVariable second ↔
      (outerName name entry.name).words = (outerName name other.name).words := by
  rw [outerVariable_of_entryOf? found, outerVariable_of_entryOf? foundOther, Name.ofName_eq_iff]

/-- Columns that are all plain fall together in a view exactly when they have the
same column segment. -/
theorem words_outerName_eq_iff {view first second : Name} (plainFirst : first.PlainColumn)
    (plainSecond : second.PlainColumn) :
    (outerName view first).words = (outerName view second).words ↔
      first.column = second.column := by
  obtain ⟨front, words⟩ := exists_words_outerName view
  obtain ⟨text, isText, plainText⟩ := plainFirst.2.2.exists_eq_some
  obtain ⟨other, isOther, plainOther⟩ := plainSecond.2.2.exists_eq_some
  rw [words isText plainText, words isOther plainOther, isText, isOther,
    List.append_cancel_left_eq, List.cons.injEq, String.toList_inj, Option.some.injEq]
  exact and_iff_left rfl

end View

/-- The variable of every registered column is that of its name. -/
theorem Compiler.var_of_mem_columns {compiler : Compiler} {query : Sql.Query} {result : Query}
    (compiled : compiler.compile query = .ok result) {mentioned : MentionedColumn}
    (member : mentioned ∈ result.columns) : mentioned.var = Variable.ofName mentioned.name := by
  obtain ⟨builder, ran, built⟩ := compiler.exists_of_compile compiled
  obtain ⟨middle, binding, filling⟩ := Compile.phases_of_clauses ran
  have consistent : Builder.Consistent builder :=
    Run.kept_along (fun _ _ fills kept => kept.fill fills) filling
      (Builder.layered_of_binds binding).1
  obtain ⟨_, columns, _⟩ := Builder.parts_of_build built
  rw [columns, consistent.columns_eq] at member
  obtain ⟨registration, _, rfl⟩ := List.mem_map.mp member
  rfl

/-- The variable of a mentioned column stands for a column whose name has the same
words. -/
theorem Compiler.entryOf?_of_mem_columns {compiler : Compiler} {query : Sql.Query}
    {result : Query} (compiled : compiler.compile query = .ok result)
    {mentioned : MentionedColumn} (member : mentioned ∈ result.columns) :
    ∃ entry ∈ result.columns, result.entryOf? mentioned.var = some entry ∧
      entry.name.words = mentioned.name.words := by
  obtain ⟨entry, isEntry, found, sameVar⟩ := Query.exists_entryOf? member
  refine ⟨entry, isEntry, found, ?_⟩
  rw [← Name.ofName_eq_iff, ← compiler.var_of_mem_columns compiled isEntry,
    ← compiler.var_of_mem_columns compiled member, sameVar]

/-- Two columns of a compiled query have one variable in a view exactly when the names
in the view of the first columns with their variables have the same words, and where no
two columns have one variable, exactly when their own names in the view do.  Plain
columns have one exactly when they are called alike, of whatever bindings they are.
Expressions are renamed variable by variable. -/
theorem Compiler.outerVariable_eq_iff_of_compile {compiler : Compiler} {query : Sql.Query}
    {result : Query} (compiled : compiler.compile query = .ok result) (name : Name) :
    (∀ first ∈ result.columns, ∀ second ∈ result.columns, ∃ entry other,
      result.entryOf? first.var = some entry ∧ entry.name.words = first.name.words ∧
      result.entryOf? second.var = some other ∧ other.name.words = second.name.words ∧
      ((View.ofQuery name result).outerVariable first.var =
          (View.ofQuery name result).outerVariable second.var ↔
        (View.outerName name entry.name).words = (View.outerName name other.name).words)) ∧
    ((result.columns.map MentionedColumn.var).Nodup →
      ∀ first ∈ result.columns, ∀ second ∈ result.columns,
        ((View.ofQuery name result).outerVariable first.var =
            (View.ofQuery name result).outerVariable second.var ↔
          (View.outerName name first.name).words = (View.outerName name second.name).words)) ∧
    ((∀ column ∈ result.columns, column.name.PlainColumn) →
      ∀ first ∈ result.columns, ∀ second ∈ result.columns,
        ((View.ofQuery name result).outerVariable first.var =
            (View.ofQuery name result).outerVariable second.var ↔
          first.name.column = second.name.column)) ∧
    ∀ e, ((View.ofQuery name result).rename e).vars =
      e.vars.map (View.ofQuery name result).outerVariable := by
  refine ⟨?_, ?_, ?_, Expr.vars_mapVariables _⟩
  · intro first isFirst second isSecond
    obtain ⟨entry, _, found, sameWords⟩ := compiler.entryOf?_of_mem_columns compiled isFirst
    obtain ⟨other, _, foundOther, otherWords⟩ := compiler.entryOf?_of_mem_columns compiled isSecond
    exact ⟨entry, other, found, sameWords, foundOther, otherWords,
      View.outerVariable_eq_iff found foundOther⟩
  · intro distinct first isFirst second isSecond
    exact View.outerVariable_eq_iff (Query.entryOf?_of_nodup distinct isFirst)
      (Query.entryOf?_of_nodup distinct isSecond)
  · intro plain first isFirst second isSecond
    obtain ⟨entry, isEntry, found, sameWords⟩ := compiler.entryOf?_of_mem_columns compiled isFirst
    obtain ⟨other, isOther, foundOther, otherWords⟩ :=
      compiler.entryOf?_of_mem_columns compiled isSecond
    rw [View.outerVariable_eq_iff found foundOther,
      View.words_outerName_eq_iff (plain entry isEntry) (plain other isOther),
      (plain entry isEntry).column_eq (plain first isFirst) sameWords,
      (plain other isOther).column_eq (plain second isSecond) otherWords]

/-- The statement `SELECT * FROM foo, bar WHERE x <> y`. -/
def comparedTables : Sql.Query :=
  { distinct := false
    items := [.wildcard]
    sources := [⟨.table ["foo"] none, []⟩, ⟨.table ["bar"] none, []⟩]
    condition := some (.binary .notEqual (.column ["x"]) (.column ["y"]))
    groupBy := []
    having := none
    orderBy := []
    limit := none
    offset := none }

theorem outerVariable_comparedTables :
    ∃ catalog result, twoTables.assemble = .ok catalog ∧
      ({ catalog } : Compiler).compile comparedTables = .ok result ∧
      result.columns.length = 2 ∧ (result.columns.map MentionedColumn.var).Nodup ∧
      (∀ column ∈ result.columns, column.name.PlainColumn) ∧
      ∀ first ∈ result.columns, ∀ second ∈ result.columns,
        ((View.outerName ⟨none, none, some "v", none⟩ first.name).words =
            (View.outerName ⟨none, none, some "v", none⟩ second.name).words ↔
          first.name.column = second.name.column) := by
  have checked : ∃ catalog, twoTables.assemble = .ok catalog ∧
      ∃ result, ({ catalog } : Compiler).compile comparedTables = .ok result ∧
        result.columns.length = 2 ∧ (result.columns.map MentionedColumn.var).Nodup ∧
        ∀ column ∈ result.columns, column.name.PlainColumn := by
    decide +kernel
  obtain ⟨catalog, assembled, result, compiled, both, distinct, plain⟩ := checked
  obtain ⟨_, own, called, _⟩ := Compiler.outerVariable_eq_iff_of_compile compiled
    ⟨none, none, some "v", none⟩
  refine ⟨catalog, result, assembled, compiled, both, distinct, plain, ?_⟩
  intro first isFirst second isSecond
  exact (own distinct first isFirst second isSecond).symm.trans
    (called plain first isFirst second isSecond)

/-- The statement `SELECT a.x, b.x FROM foo AS a, foo AS b WHERE a.x <> b.x`. -/
def comparedWithItself : Sql.Query :=
  { distinct := false
    items := [.expr (.column ["a", "x"]) none, .expr (.column ["b", "x"]) none]
    sources := [⟨.table ["foo"] (some "a"), []⟩, ⟨.table ["foo"] (some "b"), []⟩]
    condition := some (.binary .notEqual (.column ["a", "x"]) (.column ["b", "x"]))
    groupBy := []
    having := none
    orderBy := []
    limit := none
    offset := none }

/-- The two rows that are compared fall together in the view, so the condition
compares a variable with itself. -/
theorem outerFilters_comparedWithItself :
    ∃ catalog result, twoTables.assemble = .ok catalog ∧
      ({ catalog } : Compiler).compile comparedWithItself = .ok result ∧
      (result.columns.map MentionedColumn.name).Nodup ∧
      ∃ v, (result.columns.map fun column =>
          (View.ofQuery ⟨none, some "s", some "v", none⟩ result).outerVariable column.var) =
            [v, v] ∧
        (View.ofQuery ⟨none, some "s", some "v", none⟩ result).outerFilters.map Expr.vars =
          [[v, v]] := by
  have checked : ∃ catalog, twoTables.assemble = .ok catalog ∧
      ∃ result, ({ catalog } : Compiler).compile comparedWithItself = .ok result ∧
        (result.columns.map MentionedColumn.name).Nodup ∧
        (result.columns.map fun column =>
          (View.ofQuery ⟨none, some "s", some "v", none⟩ result).outerVariable column.var) =
            [⟨"s·v·x"⟩, ⟨"s·v·x"⟩] ∧
        (View.ofQuery ⟨none, some "s", some "v", none⟩ result).outerFilters.map Expr.vars =
          [[⟨"s·v·x"⟩, ⟨"s·v·x"⟩]] := by
    decide +kernel
  obtain ⟨catalog, assembled, result, compiled, distinct, outer, filters⟩ := checked
  exact ⟨catalog, result, assembled, compiled, distinct, _, outer, filters⟩

end TripleTables

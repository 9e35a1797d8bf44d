import SchemaDesk.Proofs.Edit.Formed
import SchemaDesk.Proofs.Sql.Exportable
import SchemaDesk.Proofs.Sql.Spans

/-!
# Names that a text declares

The name of a table is read with the blanks at its ends taken away, so it can stand, and where
nothing is left there is no statement.  The name of a column is its first token as it is.  A bare
word can stand, too; but a name in quotes may be blank or begin or end with blanks, and such names
are kept.  `oddNames` lists them: they are the only names of columns that cannot stand
(`mem_oddNames`).

All that is read from a text is formed, if its columns are good (`parse_formed`).
-/

namespace SchemaDesk.Sql

open Minting
open Flags (hinted)

/-! ## First tokens -/

/-- A name that stands without quotes can stand. -/
theorem isName_of_word {text w : Text} {t : Token} (ht : t ∈ tokenize text)
    (hw : t.lexeme = .word w) : Value.IsName (.str w) := by
  obtain ⟨hne, hall⟩ := word_spelling ht hw
  exact ⟨w, rfl, (trimmed_word hne hall).trim, hne⟩

theorem with_name (c : ColumnClause) (attributes : List Attribute) :
    (attributes.foldl ColumnClause.with c).name = c.name := by
  induction attributes generalizing c with
  | nil => rfl
  | cons a attributes ih =>
      rw [List.foldl_cons, ih]
      cases a <;> rfl

/-- The clause of a key is no column. -/
theorem classifyKey_ne_column {text : Text} {name : Option Text} {tokens : List Token}
    {c : ColumnClause} : classifyKey text name tokens ≠ some (.column c) := by
  intro h
  have hchoice : ∀ {columns : List Text} {k : Clause},
      some (if columns.isEmpty then .unrecognized text else k) = some (.column c) →
        k ≠ .column c → False := by
    intro columns k hsome hk
    split at hsome
    · cases hsome
    · exact hk (Option.some.inj hsome)
  simp only [classifyKey] at h
  split at h
  · exact hchoice h (by simp)
  · split at h
    · split at h
      · exact hchoice h (by simp)
      · cases h
    · split at h
      · exact hchoice h (by simp)
      · cases h

/-- Only what is read as a column is one. -/
theorem classifyColumn_of_classify {item : Text} {c : ColumnClause}
    (h : classify item = .column c) :
    classifyColumn item (tokenize item) = .column c := by
  simp only [classify] at h
  split at h
  · next rest _ =>
      cases hkey : classifyKey item _ _ with
      | none =>
          rw [hkey] at h
          cases h
      | some clause =>
          rw [hkey] at h
          exact absurd (hkey.trans (congrArg some h)) classifyKey_ne_column
  · split at h
    · next clause hkey =>
        rw [h] at hkey
        exact absurd hkey classifyKey_ne_column
    · split at h
      · cases h
      · exact h

/-- A column has the name that its first token writes. -/
theorem name_of_classify {item : Text} {c : ColumnClause} (h : classify item = .column c) :
    ∃ t, (tokenize item).head? = some t ∧ t.name? = some c.name := by
  have hcolumn := classifyColumn_of_classify h
  unfold classifyColumn at hcolumn
  split at hcolumn
  · next n t rest htokens =>
      split at hcolumn
      · next name type hname _ =>
          cases hcolumn
          refine ⟨n, by rw [htokens]; rfl, ?_⟩
          rw [with_name, hname]
      · cases hcolumn
  · cases hcolumn

/-! ## Columns of a text -/

/-- The clauses of the columns that a statement declares. -/
def Statement.columns : Statement → List ColumnClause
  | .createTable _ body _ => ((splitItems body).map classify).filterMap Clause.column?
  | .alterTable .. => []

/-- A column that is made from a clause, up to its marks. -/
def MadeFrom (clause : ColumnClause) (c : Column) : Prop :=
  ∃ arguments id clauses, TypeArguments.IsWritable arguments ∧
    Flags.cleared c = keyed clauses (columnOf clause arguments id)

theorem MadeFrom.name {clause : ColumnClause} {c : Column} (h : MadeFrom clause c) :
    c.name = .str clause.name := by
  obtain ⟨arguments, id, clauses, -, hcleared⟩ := h
  exact congrArg Column.name hcleared

theorem cleared_hinted (relations : List Relation) (t : Value) (c : Column) :
    Flags.cleared (hinted relations t c) = Flags.cleared c := by
  rw [hinted]
  cases Flags.lastFrom? relations t c.id <;> rfl

/-- The columns of a table are made one by one from the clauses of its statement. -/
theorem buildTable_made {ids ids' : IdSupply} {index : Nat} {name body : Text}
    {options : TableOptions} {t : Table}
    (h : (buildTable index name ((splitItems body).map classify) options).Gives ids t ids') :
    t.name = .str name ∧
      List.Forall₂ MadeFrom (Statement.createTable name body options).columns t.columns := by
  obtain ⟨columns, mid, hcolumns, rfl, -⟩ := buildTable_gives.1 h
  refine ⟨rfl, List.forall₂_map_right_iff.2 ?_⟩
  refine (buildColumns_drawn hcolumns).2.imp ?_
  rintro clause c ⟨arguments, id, harguments, rfl⟩
  exact ⟨arguments, id, _, typeArguments_isWritable harguments,
    (keyed_isDeclared (columnOf_isDeclared clause arguments id)).cleared_eq⟩

/-- Every statement that declares a column gives a table. -/
theorem exists_mem_buildAll {n : Nat} {found : List Statement} {built : List Built}
    {ids ids' : IdSupply} (h : (buildAll n found).Gives ids built ids') {name body : Text}
    {options : TableOptions} (hmem : .createTable name body options ∈ found)
    (hsome : (Statement.createTable name body options).columns ≠ []) :
    ∃ b ∈ built, List.Forall₂ MadeFrom (Statement.createTable name body options).columns
      b.table.columns := by
  obtain ⟨b, hb, hclauses, index, before, after, hbuild⟩ := exists_built h hmem hsome
  rw [hclauses] at hbuild
  exact ⟨b, hb, (buildTable_made hbuild).2⟩

theorem madeFrom_hinted {columns : List Column} {clauses : List ColumnClause}
    (h : List.Forall₂ MadeFrom clauses columns) (relations : List Relation) (t : Value) :
    List.Forall₂ MadeFrom clauses (columns.map (hinted relations t)) := by
  refine List.forall₂_map_right_iff.2 (h.imp ?_)
  rintro clause c ⟨arguments, id, keys, harguments, hcleared⟩
  exact ⟨arguments, id, keys, harguments, (cleared_hinted relations t c).trans hcleared⟩

section Parsed

variable {ids ids' : IdSupply} {sql : Text} {parsed : Parsed}

/-- Every table that is read has columns, one for each clause of a column in one of the
statements, and the name of that statement. -/
theorem mem_parse_tables (h : (parse sql).Gives ids parsed ids') {t : Table}
    (ht : t ∈ parsed.tables) :
    t.columns ≠ [] ∧ ∃ name body options, .createTable name body options ∈ statements sql ∧
      t.name = .str name ∧
      List.Forall₂ MadeFrom (Statement.createTable name body options).columns t.columns := by
  obtain ⟨built, mid, hbuilt, -, -, htables⟩ := parse_links h
  rw [htables] at ht
  obtain ⟨u, hu, rfl⟩ := List.mem_map.1 ht
  obtain ⟨b, hb, rfl⟩ := List.mem_map.1 hu
  obtain ⟨hne, name, body, options, index, before, after, hmem, hclauses, hbuild⟩ :=
    mem_buildAll hbuilt hb
  rw [hclauses] at hbuild
  obtain ⟨hname, hmade⟩ := buildTable_made hbuild
  exact ⟨fun hnil => hne (List.map_eq_nil_iff.1 hnil), name, body, options, hmem, hname,
    madeFrom_hinted hmade _ _⟩

/-- A text declares a column of a name exactly if one of its statements has a clause of it. -/
theorem exists_column_iff (h : (parse sql).Gives ids parsed ids') {n : Text} :
    (∃ t ∈ parsed.tables, ∃ c ∈ t.columns, c.name = .str n) ↔
      ∃ s ∈ statements sql, ∃ clause ∈ s.columns, clause.name = n := by
  constructor
  · rintro ⟨t, ht, c, hc, hname⟩
    obtain ⟨-, name, body, options, hmem, -, hmade⟩ := mem_parse_tables h ht
    obtain ⟨clause, hclause, hfrom⟩ := forall₂_mem_right hmade hc
    refine ⟨_, hmem, clause, hclause, ?_⟩
    exact Value.str.inj (hfrom.name.symm.trans hname)
  · rintro ⟨s, hs, clause, hclause, rfl⟩
    cases s with
    | alterTable name actions => cases hclause
    | createTable name body options =>
        obtain ⟨built, mid, hbuilt, -, -, htables⟩ := parse_links h
        obtain ⟨b, hb, hmade⟩ := exists_mem_buildAll hbuilt hs (List.ne_nil_of_mem hclause)
        have hmarked := madeFrom_hinted hmade parsed.relations b.table.id
        obtain ⟨c, hc, hfrom⟩ := forall₂_mem_right hmarked.flip hclause
        refine ⟨decorate (hinted parsed.relations) b.table, ?_, c, hc, MadeFrom.name hfrom⟩
        rw [htables]
        exact List.mem_map_of_mem (List.mem_map_of_mem hb)

end Parsed

/-! ## Odd names -/

/-- The name in quotes of an item that declares a column, if no edit would take it in. -/
def oddName? (item : Text) : Option Text :=
  match classify item, (tokenize item).head?.map Token.lexeme with
  | .column _, some (.quoted n) => if n.trim = n ∧ n ≠ [] then none else some n
  | _, _ => none

/-- The names of columns in a statement that no edit would take in. -/
def Statement.oddNames : Statement → List Text
  | .createTable _ body _ => (splitItems body).filterMap oddName?
  | .alterTable .. => []

/-- The names of columns in a text that no edit would take in. -/
def oddNames (sql : Text) : List Text :=
  (statements sql).flatMap Statement.oddNames

theorem oddName?_eq_some {item n : Text} :
    oddName? item = some n ↔
      ∃ c, classify item = .column c ∧ c.name = n ∧ ¬ Value.IsName (.str n) := by
  constructor
  · intro h
    rw [oddName?] at h
    split at h
    · next c m hclassify hquoted =>
        obtain ⟨t, hhead, hname⟩ := name_of_classify hclassify
        rw [hhead, Option.map_some, Option.some.injEq] at hquoted
        rw [Token.name?, hquoted, Option.some.injEq] at hname
        split at h
        · cases h
        · next hodd =>
            cases h
            exact ⟨c, hclassify, hname.symm, fun hlegal => hodd (Value.isName_str.1 hlegal)⟩
    · cases h
  · rintro ⟨c, hclassify, rfl, hodd⟩
    obtain ⟨t, hhead, hname⟩ := name_of_classify hclassify
    rw [oddName?, hclassify, hhead, Option.map_some]
    cases hlexeme : t.lexeme with
    | quoted n =>
        rw [Token.name?, hlexeme] at hname
        cases hname
        exact if_neg fun hlegal => hodd (Value.isName_str.2 hlegal)
    | word w =>
        rw [Token.name?, hlexeme] at hname
        cases hname
        exact absurd (isName_of_word (List.mem_of_head? hhead) hlexeme) hodd
    | _ =>
        rw [Token.name?, hlexeme] at hname
        cases hname

theorem mem_statement_oddNames {s : Statement} {n : Text} :
    n ∈ s.oddNames ↔ (∃ clause ∈ s.columns, clause.name = n) ∧ ¬ Value.IsName (.str n) := by
  cases s with
  | alterTable name actions => simp [Statement.oddNames, Statement.columns]
  | createTable name body options =>
      simp only [Statement.oddNames, Statement.columns, List.mem_filterMap, oddName?_eq_some]
      constructor
      · rintro ⟨item, hitem, c, hclassify, hname, hodd⟩
        exact ⟨⟨c, ⟨_, List.mem_map_of_mem hitem, by rw [hclassify]; rfl⟩, hname⟩, hodd⟩
      · rintro ⟨⟨c, ⟨clause, hclause, hcolumn⟩, hname⟩, hodd⟩
        obtain ⟨item, hitem, rfl⟩ := List.mem_map.1 hclause
        refine ⟨item, hitem, c, ?_, hname, hodd⟩
        cases hclassify : classify item with
        | column d =>
            rw [hclassify] at hcolumn
            cases hcolumn
            rfl
        | _ =>
            rw [hclassify] at hcolumn
            cases hcolumn

/-- Exactly the odd names of a text are names of columns that cannot stand. -/
theorem mem_oddNames {ids ids' : IdSupply} {sql : Text} {parsed : Parsed}
    (h : (parse sql).Gives ids parsed ids') {n : Text} :
    n ∈ oddNames sql ↔
      (∃ t ∈ parsed.tables, ∃ c ∈ t.columns, c.name = .str n) ∧ ¬ Value.IsName (.str n) := by
  rw [exists_column_iff h, oddNames, List.mem_flatMap]
  simp only [mem_statement_oddNames]
  constructor
  · rintro ⟨s, hs, hclause, hodd⟩
    exact ⟨⟨s, hs, hclause⟩, hodd⟩
  · rintro ⟨⟨s, hs, hclause⟩, hodd⟩
    exact ⟨s, hs, hclause, hodd⟩

/-! ## All that is read -/

/-- What is read from a text is formed, if every column that is made from a clause of it is good
and every relation that links two columns is proper. -/
theorem parse_formed {ids ids' : IdSupply} {sql : Text} {parsed : Parsed}
    (h : (parse sql).Gives ids parsed ids') {good : Column → Prop} {proper : Relation → Prop}
    (hgood : ∀ s ∈ statements sql, ∀ clause ∈ s.columns, ∀ c, MadeFrom clause c → good c)
    (hproper : ∀ (l : Link) id, proper (l.relation id)) :
    Formed good proper parsed.tables parsed.relations := by
  constructor
  · intro t ht
    obtain ⟨hne, name, body, options, hmem, hname, hmade⟩ := mem_parse_tables h ht
    refine ⟨?_, hne, fun c hc => ?_⟩
    · rw [hname]
      exact Value.isName_str.2 (createTable_name hmem)
    · obtain ⟨clause, hclause, hfrom⟩ := forall₂_mem_right hmade hc
      exact hgood _ hmem clause hclause c hfrom
  · obtain ⟨built, mid, -, hrelations, -, -⟩ := parse_links h
    rw [hrelations]
    intro r hr
    obtain ⟨i, hi, rfl⟩ := List.mem_mapIdx.1 hr
    exact hproper _ _

end SchemaDesk.Sql

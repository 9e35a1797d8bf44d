import SchemaDesk.Proofs.Sql.Again
import SchemaDesk.Proofs.Sql.Script
import SchemaDesk.Proofs.Sql.Unreadable

/-!
# The order of statements

Two texts with the same statements in different orders declare the same, as long as no two tables
share a name (`parse_reordered`).

The identifiers that are drawn and the places on the canvas depend on the order, and nothing else of
a table does.  So the tables are compared by what is planned for each statement alone: `positioned`
identifies a table by its name and its columns by their positions, and what the statements declare
is then a function of each (`buildAll_positioned`).  Foreign keys are resolved by names, so their
links are found among the planned tables as well, the same ones in any order (`links_perm`); and a
column is marked when a link starts at its position.
-/

namespace SchemaDesk

/-- A column without what depends on the order of statements: its identifier, and of the relation
that starts at it all but that there is one. -/
def Column.plain (c : Column) : Column :=
  { c with id := .null, referencesTableId := .null, referencesColumnId := .null }

/-- A table without what depends on the order of statements: the identifiers and its place. -/
def Table.plain (t : Table) : Table :=
  { t with id := .null, x := .null, y := .null, columns := t.columns.map Column.plain }

/-- What a relation says, by the names of the columns that it joins. -/
structure RelationNames where
  sourceTable : Value
  sourceColumn : Value
  targetTable : Value
  targetColumn : Value
  onDelete : Value
  onUpdate : Value
  name : Value

/-- What a relation between columns of some tables says, if it joins columns of these. -/
def Relation.names? (tables : List Table) (r : Relation) : Option RelationNames := do
  let source ← lastTable? tables r.sourceTableId
  let sourceColumn ← source.column? r.sourceColumnId
  let target ← lastTable? tables r.targetTableId
  let targetColumn ← target.column? r.targetColumnId
  some ⟨source.name, sourceColumn.name, target.name, targetColumn.name, r.onDelete, r.onUpdate,
    r.name⟩

/-- Two readings that declare the same in different orders, under different identifiers: the same
tables, the same tables without columns, and relations that say the same, each of which joins
columns of the declared tables. -/
structure Parsed.Reordered (first second : Parsed) : Prop where
  tables : (first.tables.map Table.plain).Perm (second.tables.map Table.plain)
  emptyTables : first.emptyTables.Perm second.emptyTables
  relations : ∃ names names' : List RelationNames,
    first.relations.map (Relation.names? first.tables) = names.map some ∧
      second.relations.map (Relation.names? second.tables) = names'.map some ∧ names.Perm names'

namespace Sql

open Minting
open Flags (hinted hinted_id)

variable {ids ids' : IdSupply}

/-- The name of the table that a statement declares, if it declares one. -/
def Statement.tableName? : Statement → Option Text
  | .createTable name _ _ => some name
  | .alterTable .. => none

/-! ## What is planned for a statement -/

/-- A column of a table, identified by its position. -/
def atPosition (t : Table) (c : Column) : Column :=
  { c with id := .int (t.columns.idxOf c) }

/-- A table identified by its name, and its columns by their positions. -/
def positioned (t : Table) : Table :=
  { t with id := t.name, x := .null, y := .null, columns := t.columns.map (atPosition t) }

/-- The column that a clause declares, without an identifier. -/
def plannedColumn (c : ColumnClause) : Column :=
  let arguments := (typeArguments (typeOf c.rawType) c.arguments).toOption.getD {}
  { columnOf c arguments [] with id := .null }

/-- The table that a statement declares, identified by its name and its columns by their
positions. -/
def plannedTable (name : Text) (clauses : List Clause) (options : TableOptions) : Table :=
  { tableOf 0 name clauses options
      ((clauses.filterMap Clause.column?).mapIdx fun i c =>
        { plannedColumn c with id := .int i }) name with
    x := .null, y := .null }

/-- What is planned for a statement: the table that it declares, if it declares one with columns. -/
def plan? : Statement → Option Built
  | .alterTable .. => none
  | .createTable name body options =>
      let clauses := (splitItems body).map classify
      if (clauses.filterMap Clause.column?).isEmpty then none
      else some ⟨plannedTable name clauses options, clauses⟩

/-- With different columns, `positioned` numbers them. -/
theorem positioned_columns {t : Table} (h : t.columns.Nodup) :
    (positioned t).columns = t.columns.mapIdx fun i c => { c with id := .int i } := by
  refine List.ext_getElem (by simp [positioned]) fun i hi hi' => ?_
  simp only [positioned, atPosition, List.getElem_map, List.getElem_mapIdx, h.idxOf_getElem]

theorem plannedColumn_eq {clause : ColumnClause} {arguments : TypeArguments} (id : Text)
    (h : typeArguments (typeOf clause.rawType) clause.arguments = .ok arguments) :
    plannedColumn clause = { columnOf clause arguments id with id := .null } := by
  rw [plannedColumn, h]
  rfl

/-- A table that is built is, up to identifiers and its place, what was planned. -/
theorem buildTable_positioned {index : Nat} {name : Text} {clauses : List Clause}
    {options : TableOptions} {t : Table}
    (h : (buildTable index name clauses options).Gives ids t ids') :
    positioned t = plannedTable name clauses options ∧
      t.columns.isEmpty = (clauses.filterMap Clause.column?).isEmpty := by
  -- the columns differ in their identifiers, so `idxOf` finds the position of each
  have hnodup : t.columns.Nodup := (List.nodup_cons.1 (buildTable_drawn h).1.nodup).2.of_map _
  obtain ⟨columns, mid, hcolumns, rfl, -⟩ := buildTable_gives.1 h
  have hbuilt := (buildColumns_drawn hcolumns).2
  have hlength := hbuilt.length_eq
  constructor
  · have hsame : (positioned (tableOf index name clauses options columns
        (identifier (mid.drawn + 1)))).columns = (plannedTable name clauses options).columns := by
      rw [positioned_columns hnodup]
      refine List.ext_getElem (by simp [tableOf, plannedTable, hlength]) fun i hi hi' => ?_
      simp only [tableOf, plannedTable, List.getElem_mapIdx, List.getElem_map]
      have hi₁ : i < columns.length := by simpa [tableOf] using hi
      obtain ⟨arguments, id, harguments, hcolumn⟩ := hbuilt.get (hlength ▸ hi₁) hi₁
      simp only [List.get_eq_getElem] at harguments hcolumn
      -- marking the keys of the table does not look at identifiers
      rw [plannedColumn_eq id harguments, hcolumn]
      rfl
    have hparts : ∀ t : Table, positioned t =
        { t with id := t.name, x := .null, y := .null, columns := (positioned t).columns } :=
      fun _ => rfl
    rw [hparts, hsame]
    rfl
  · rw [Bool.eq_iff_iff, List.isEmpty_iff_length_eq_zero, List.isEmpty_iff_length_eq_zero, hlength,
      tableOf, List.length_map]

/-- The tables that are built are those that are planned for the statements, in their order. -/
theorem buildAll_positioned {n : Nat} {found : List Statement} {built : List Built}
    (h : (buildAll n found).Gives ids built ids') :
    built.map (Built.map positioned) = found.filterMap plan? := by
  induction found generalizing n ids built with
  | nil =>
      obtain ⟨rfl, rfl⟩ := gives_pure.1 h
      rfl
  | cons statement found ih =>
      cases statement with
      | alterTable name actions => exact ih h
      | createTable name body options =>
          obtain ⟨t, mid, ht, hrest⟩ := buildAll_createTable_gives.1 h
          obtain ⟨hplanned, hempty⟩ := buildTable_positioned ht
          rw [List.filterMap_cons, plan?]
          rcases hrest with ⟨hcolumns, hrest⟩ | ⟨hcolumns, more, hmore, rfl⟩
          · rw [hempty] at hcolumns
            simp only [hcolumns, if_true]
            exact ih hrest
          · rw [hempty] at hcolumns
            simp only [hcolumns, Bool.false_eq_true, if_false, List.map_cons, Built.map, hplanned]
            rw [← ih hmore]

/-! ## Tables without columns -/

/-- The name of the table that a statement declares, if that has no columns. -/
def emptyTable? : Statement → Option Text
  | .alterTable .. => none
  | .createTable name body _ =>
      let clauses := (splitItems body).map classify
      if (clauses.filterMap Clause.column?).isEmpty then some name else none

theorem drafted_emptyTables {found : List Statement} {d d' : Draft}
    (h : (found.foldlM Draft.add d).Gives ids d' ids') :
    d'.emptyTables = d.emptyTables ++ found.filterMap emptyTable? := by
  induction found generalizing ids d with
  | nil =>
      obtain ⟨rfl, rfl⟩ := gives_pure.1 h
      rw [List.filterMap_nil, List.append_nil]
  | cons statement found ih =>
      rw [List.foldlM_cons] at h
      obtain ⟨d₁, mid, hadd, hrest⟩ := gives_bind.1 h
      rw [ih hrest, List.filterMap_cons]
      cases statement with
      | alterTable name actions =>
          obtain ⟨rfl, rfl⟩ := gives_pure.1 hadd
          rfl
      | createTable name body options =>
          obtain ⟨t, ht, rfl⟩ := Draft.add_createTable_gives.1 hadd
          have hempty := (buildTable_positioned ht).2
          rw [Draft.with, emptyTable?, ← hempty]
          cases t.columns.isEmpty <;> simp

theorem parse_emptyTables {sql : Text} {parsed : Parsed} (h : (parse sql).Gives ids parsed ids') :
    parsed.emptyTables = (statements sql).filterMap emptyTable? := by
  obtain ⟨draft, mid, hdraft, h⟩ := gives_bind.1 h
  obtain ⟨linked, last, -, h⟩ := gives_bind.1 h
  obtain ⟨rfl, rfl⟩ := gives_pure.1 h
  exact drafted_emptyTables hdraft

/-! ## Links in any order -/

/-- The names of some tables, up to letter case. -/
def foldedNames (tables : List Table) : List Text :=
  tables.map fun t => Text.fold t.name.text

/-- Of tables with different names, the one of a name does not depend on their order. -/
theorem tableNamed?_perm {tables tables' : List Table} (hperm : tables.Perm tables')
    (hdistinct : (foldedNames tables).Nodup) : tableNamed? tables = tableNamed? tables' := by
  funext name
  have hunique : ∀ {t u : Table}, t ∈ tables → u ∈ tables → t.name.isNamed name = true →
      u.name.isNamed name = true → t = u := by
    intro t u ht hu htn hun
    apply List.inj_on_of_nodup_map hdistinct ht hu
    rw [fold_text_of_isNamed htn, fold_text_of_isNamed hun]
  cases hfind : tableNamed? tables' name with
  | none =>
      rw [tableNamed?, List.find?_eq_none] at hfind ⊢
      exact fun t ht => hfind t (List.mem_reverse.2 (hperm.mem_iff.1 (List.mem_reverse.1 ht)))
  | some t =>
      have hmem := hperm.mem_iff.2 (List.mem_reverse.1 (List.mem_of_find?_eq_some hfind))
      have hnamed := List.find?_some (p := fun t : Table => t.name.isNamed name) hfind
      exact find?_eq_of_unique (List.mem_reverse.2 hmem) hnamed fun u hu hun =>
        hunique (List.mem_reverse.1 hu) hmem hun hnamed

/-- Tables of different names are linked alike in any order of tables and statements. -/
theorem links_perm {built built' : List Built} {found found' : List Statement}
    (hbuilt : built.Perm built') (hfound : found.Perm found')
    (hdistinct : (foldedNames (built.map Built.table)).Nodup) :
    (links built found).Perm (links built' found') := by
  have htables := tableNamed?_perm (hbuilt.map Built.table) hdistinct
  have halter : alterKeys (built.map Built.table) = alterKeys (built'.map Built.table) := by
    funext statement
    cases statement with
    | createTable name body options => rfl
    | alterTable name actions => rw [alterKeys, alterKeys, htables]
  have hlinks : linksOf (built.map Built.table) = linksOf (built'.map Built.table) := by
    funext key
    rw [linksOf, linksOf, htables]
  -- keys stand in the statements of tables and in those that change tables
  have hkeys : (deferredKeys built found).Perm (deferredKeys built' found') := by
    rw [deferredKeys, deferredKeys, halter]
    exact (hbuilt.flatMap_right _).append (hfound.flatMap_right _)
  rw [links, links, hlinks]
  exact hkeys.flatMap_right _

/-- The columns of a link are columns of tables that were built. -/
theorem mem_of_links {built : List Built} {found : List Statement} {l : Link}
    (h : l ∈ links built found) :
    (l.source ∈ built.map Built.table ∧ l.sourceColumn ∈ l.source.columns) ∧
      l.target ∈ built.map Built.table ∧ l.targetColumn ∈ l.target.columns := by
  obtain ⟨key, hkey, hl⟩ := List.mem_flatMap.1 h
  rw [linksOf] at hl
  cases htarget : tableNamed? (built.map Built.table) key.2.targetTable with
  | none => simp [htarget] at hl
  | some target =>
      simp only [htarget] at hl
      obtain ⟨names, -, hlink⟩ := List.mem_filterMap.1 hl
      rw [link?] at hlink
      cases hsc : columnNamed? key.1.columns names.1 with
      | none => simp [hsc] at hlink
      | some sc =>
          cases htc : columnNamed? target.columns names.2 with
          | none => simp [hsc, htc] at hlink
          | some tc =>
              simp only [hsc, htc, Option.some.injEq] at hlink
              subst hlink
              exact ⟨⟨mem_of_deferred hkey, List.mem_of_find?_eq_some hsc⟩,
                List.mem_reverse.1 (List.mem_of_find?_eq_some htarget),
                List.mem_of_find?_eq_some htc⟩

/-! ## What comes of the links -/

/-- A link by names. -/
def Link.names (l : Link) : RelationNames :=
  ⟨l.source.name, l.sourceColumn.name, l.target.name, l.targetColumn.name,
    .str l.key.onDelete.name, .str l.key.onUpdate.name, .ofText? l.key.name⟩

/-- Positions make no difference to the look-ups. -/
theorem spares_positioned : Spares positioned atPosition :=
  ⟨fun _ => rfl, fun _ => rfl, fun _ _ => rfl, fun _ _ => rfl⟩

/-- A planned column of a table of some name in its final form: it is marked if a link starts at
it. -/
def linkedColumnAt (ls : List Link) (table : Value) (c : Column) : Column :=
  { c.plain with
    isForeignKey :=
      if ls.any fun l => l.source.id = table ∧ l.sourceColumn.id = c.id then true
      else c.isForeignKey }

/-- A planned table in its final form. -/
def linkedTable (ls : List Link) (t : Table) : Table :=
  { t.plain with columns := t.columns.map (linkedColumnAt ls t.id) }

theorem exists_startsAt {mid : IdSupply} {ls : List Link} {t c : Value} :
    (∃ r ∈ relationsOf mid ls, r.startsAt t c = true) ↔
      ∃ l ∈ ls, l.source.id.canon = t.canon ∧ l.sourceColumn.id.canon = c.canon := by
  constructor
  · rintro ⟨r, hr, hstarts⟩
    obtain ⟨i, hi, rfl⟩ := List.mem_mapIdx.1 hr
    exact ⟨ls[i], List.getElem_mem hi, Relation.startsAt_iff.1 hstarts⟩
  · rintro ⟨l, hl, hstarts⟩
    obtain ⟨i, hi, rfl⟩ := List.getElem_of_mem hl
    exact ⟨_, List.mem_mapIdx.2 ⟨i, hi, rfl⟩, Relation.startsAt_iff.2 hstarts⟩

/-- What is read from a text, by what is planned for its statements alone. -/
structure Planned (found : List Statement) (parsed : Parsed) : Prop where
  tables : parsed.tables.map Table.plain =
    (found.filterMap plan?).map fun b => linkedTable (links (found.filterMap plan?) found) b.table
  relations : parsed.relations.map (Relation.names? parsed.tables) =
    ((links (found.filterMap plan?) found).map Link.names).map some
  emptyTables : parsed.emptyTables = found.filterMap emptyTable?

/-- The names of the planned tables are among those of the statements. -/
theorem foldedNames_planned (found : List Statement) :
    List.Sublist (foldedNames ((found.filterMap plan?).map Built.table))
      ((found.filterMap Statement.tableName?).map Text.fold) := by
  induction found with
  | nil => exact .slnil
  | cons statement found ih =>
      cases statement with
      | alterTable name actions => exact ih
      | createTable name body options =>
          rw [List.filterMap_cons, plan?]
          cases (((splitItems body).map classify).filterMap Clause.column?).isEmpty with
          | true => exact ih.cons _
          | false => exact ih.cons_cons _

/-- A reading with the tables that were built for it, whose names are different. -/
structure Reading (found : List Statement) (built : List Built) (mid : IdSupply) (parsed : Parsed) :
    Prop where
  relations : parsed.relations = relationsOf mid (links built found)
  tables : parsed.tables = (built.map Built.table).map (decorate (hinted parsed.relations))
  declares : ∃ before after, Declares before after parsed.tables parsed.relations
  distinct : (foldedNames (built.map Built.table)).Nodup

namespace Reading

variable {found : List Statement} {built : List Built} {mid : IdSupply} {parsed : Parsed}
variable {l : Link} {t : Table} {c : Column}

theorem sound (h : Reading found built mid parsed) : Sound parsed.tables parsed.relations := by
  obtain ⟨_, _, hdeclares⟩ := h.declares
  exact hdeclares.sound

/-- The tables are sound before the marks, too. -/
theorem sound_built (h : Reading found built mid parsed) :
    Sound (built.map Built.table) parsed.relations := by
  refine h.sound.congr_shape ?_
  have hshape : ∀ t, (decorate (hinted parsed.relations) t).shape = t.shape := by
    intro t
    simp only [Table.shape, Table.columnIds, decorate, List.map_map, Function.comp_def, hinted_id]
  simp only [h.tables, List.map_map, Function.comp_def, hshape]

/-- A link starts at a column exactly when it starts at its position in the table of its name. -/
theorem starts_iff (h : Reading found built mid parsed) (hl : l ∈ links built found)
    (ht : t ∈ built.map Built.table) (hc : c ∈ t.columns) :
    l.source.id.canon = t.id.canon ∧ l.sourceColumn.id.canon = c.id.canon ↔
      l.source.name = t.name ∧ (atPosition l.source l.sourceColumn).id = (atPosition t c).id := by
  obtain ⟨⟨hsource, hcolumn⟩, -⟩ := mem_of_links hl
  constructor
  · rintro ⟨htable, hid⟩
    obtain rfl := table_unique h.sound_built.tableIds_nodup hsource ht htable
    rw [h.sound_built.column_unique ht hcolumn hc hid]
    exact ⟨rfl, rfl⟩
  · rintro ⟨hname, hposition⟩
    have hfold : Text.fold l.source.name.text = Text.fold t.name.text := by rw [hname]
    obtain rfl := List.inj_on_of_nodup_map h.distinct hsource ht hfold
    have hindex := Int.ofNat.inj (Value.int.inj hposition)
    rw [(List.idxOf_inj hcolumn).1 hindex]
    exact ⟨rfl, rfl⟩

/-- A column is marked where a link starts at its position. -/
theorem plain_hinted (h : Reading found built mid parsed) (ht : t ∈ built.map Built.table)
    (hc : c ∈ t.columns) :
    (hinted parsed.relations t.id c).plain =
      linkedColumnAt ((links built found).map (Link.map positioned atPosition)) t.name
        (atPosition t c) := by
  have hstarts : (Flags.lastFrom? parsed.relations t.id c.id).isSome =
      ((links built found).map (Link.map positioned atPosition)).any
        fun l => l.source.id = t.name ∧ l.sourceColumn.id = (atPosition t c).id := by
    rw [Flags.lastFrom?, List.isSome_find?, List.any_reverse, Bool.eq_iff_iff, List.any_eq_true,
      h.relations, exists_startsAt, List.any_map, List.any_eq_true]
    refine exists_congr fun l => and_congr_right fun hl => ?_
    rw [h.starts_iff hl ht hc]
    exact decide_eq_true_iff.symm
  rw [linkedColumnAt, ← hstarts, hinted]
  cases Flags.lastFrom? parsed.relations t.id c.id <;> rfl

theorem plain_eq (h : Reading found built mid parsed) (ht : t ∈ built.map Built.table) :
    (decorate (hinted parsed.relations) t).plain =
      linkedTable ((links built found).map (Link.map positioned atPosition)) (positioned t) := by
  have hcolumns := List.map_congr_left fun c hc => h.plain_hinted ht (c := c) hc
  rw [Table.plain, linkedTable]
  simp only [decorate, positioned, List.map_map, Function.comp_def] at hcolumns ⊢
  rw [hcolumns]
  rfl

/-- A column that was built is found under its identifiers, with its marks. -/
theorem placed (h : Reading found built mid parsed) (ht : t ∈ built.map Built.table)
    (hc : c ∈ t.columns) :
    Placed parsed.tables t.id c.id (decorate (hinted parsed.relations) t)
      (hinted parsed.relations t.id c) := by
  have ht' : decorate (hinted parsed.relations) t ∈ parsed.tables := by
    rw [h.tables]
    exact List.mem_map_of_mem ht
  have hc' : hinted parsed.relations t.id c ∈ (decorate (hinted parsed.relations) t).columns :=
    List.mem_map_of_mem hc
  obtain ⟨_, _, hdeclares⟩ := h.declares
  have hnan := Value.isNan_of_text (hdeclares.columnId ht' (List.mem_map_of_mem hc'))
  apply h.sound.placed ht' hc' hnan
  · exact Value.same_self t.id
  · rw [hinted_id]
    exact Value.same_self c.id

/-- The relation of a link joins the columns of the names of the link. -/
theorem names?_eq (h : Reading found built mid parsed) (hl : l ∈ links built found) (id : Text) :
    (l.relation id).names? parsed.tables = some l.names := by
  obtain ⟨⟨hsource, hsourceColumn⟩, htarget, htargetColumn⟩ := mem_of_links hl
  have hname := (spares_hinted parsed.relations).columnName
  have hs := h.placed hsource hsourceColumn
  have ht := h.placed htarget htargetColumn
  have hst := hs.table
  have hsc := hs.column
  have htt := ht.table
  have htc := ht.column
  simp only [Relation.names?, Link.relation, linkOf, Link.names, hst, hsc, htt, htc, hname,
    Option.bind_eq_bind, Option.bind_some]
  rfl

/-- The relations are those of the links. -/
theorem names_eq (h : Reading found built mid parsed) :
    parsed.relations.map (Relation.names? parsed.tables) =
      ((links built found).map Link.names).map some := by
  refine List.ext_getElem (by simp [h.relations, relationsOf]) fun i hi hi' => ?_
  simp only [h.relations, relationsOf, List.getElem_map, List.getElem_mapIdx]
  exact h.names?_eq (List.getElem_mem _) _

end Reading

/-! ## Two readings -/

section Planned

variable {sql : Text} {parsed : Parsed}

/-- Whatever identifiers are drawn, a text whose tables have different names is read as planned for
its statements. -/
theorem parse_planned (h : (parse sql).Gives ids parsed ids')
    (hnames : (((statements sql).filterMap Statement.tableName?).map Text.fold).Nodup) :
    Planned (statements sql) parsed := by
  obtain ⟨built, mid, hbuilt, hrelations, -, htables⟩ := parse_links h
  have hplanned := buildAll_positioned hbuilt
  have hdistinct : (foldedNames (built.map Built.table)).Nodup := by
    have hsub := hnames.sublist (foldedNames_planned (statements sql))
    rw [← hplanned, tables_map, foldedNames, List.map_map] at hsub
    exact hsub
  have hreading : Reading (statements sql) built mid parsed :=
    ⟨hrelations, htables, ⟨_, _, parse_declares h⟩, hdistinct⟩
  have hlinks := links_map spares_positioned built (statements sql)
  refine ⟨?_, ?_, parse_emptyTables h⟩
  · rw [← hplanned, hlinks, htables, List.map_map, List.map_map, List.map_map]
    exact List.map_congr_left fun b hb => hreading.plain_eq (List.mem_map_of_mem hb)
  · have hnames : ((links built (statements sql)).map (Link.map positioned atPosition)).map
        Link.names = (links built (statements sql)).map Link.names := by
      rw [List.map_map]
      rfl
    rw [hreading.names_eq, ← hplanned, hlinks, hnames]

/-- What is planned for statements does not depend on their order. -/
theorem Planned.reordered {found found' : List Statement} {first second : Parsed}
    (hfirst : Planned found first) (hsecond : Planned found' second) (hperm : found.Perm found')
    (hnames : ((found.filterMap Statement.tableName?).map Text.fold).Nodup) :
    first.Reordered second := by
  have hplans := hperm.filterMap plan?
  have hlinks := links_perm hplans hperm (hnames.sublist (foldedNames_planned found))
  -- a column is marked by any link that starts at it, whichever comes first
  have hlinked : linkedTable (links (found.filterMap plan?) found) =
      linkedTable (links (found'.filterMap plan?) found') := by
    funext t
    have hcolumn : linkedColumnAt (links (found.filterMap plan?) found) t.id =
        linkedColumnAt (links (found'.filterMap plan?) found') t.id := by
      funext c
      rw [linkedColumnAt, linkedColumnAt, hlinks.any_eq]
    rw [linkedTable, linkedTable, hcolumn]
  refine ⟨?_, ?_, _, _, hfirst.relations, hsecond.relations, hlinks.map Link.names⟩
  · rw [hfirst.tables, hsecond.tables, hlinked]
    exact hplans.map _
  · rw [hfirst.emptyTables, hsecond.emptyTables]
    exact hperm.filterMap emptyTable?

/-- Texts with the same statements in different orders, in which no two tables share a name, declare
the same. -/
theorem parse_reordered {sql sql' : Text} {a a' b b' : IdSupply} {first second : Parsed}
    (hfirst : (parse sql).Gives a first a') (hsecond : (parse sql').Gives b second b')
    (hperm : (statements sql).Perm (statements sql'))
    (hnames : (((statements sql).filterMap Statement.tableName?).map Text.fold).Nodup) :
    first.Reordered second := by
  have hnames' := ((hperm.filterMap Statement.tableName?).map Text.fold).nodup_iff.1 hnames
  exact (parse_planned hfirst hnames).reordered (parse_planned hsecond hnames') hperm hnames

/-- A text with a change of a table before it is declared, a key that refers to the primary key of a
later table, a table without columns and a table with two columns of one name. -/
def orderedText : Text :=
  "ALTER TABLE A ADD FOREIGN KEY (x) REFERENCES a(k); " ++
    "CREATE TABLE a (k INT, x INT, X INT, FOREIGN KEY (x, k) REFERENCES B); " ++
    "CREATE TABLE c (CHECK (1)); CREATE TABLE b (x INT, k INT, PRIMARY KEY (x, k));"

/-- The same statements, the other way round. -/
def reversedText : Text :=
  "CREATE TABLE b (x INT, k INT, PRIMARY KEY (x, k)); CREATE TABLE c (CHECK (1)); " ++
    "CREATE TABLE a (k INT, x INT, X INT, FOREIGN KEY (x, k) REFERENCES B); " ++
    "ALTER TABLE A ADD FOREIGN KEY (x) REFERENCES a(k);"

/-- Both orders declare three relations between the same columns. -/
theorem parse_reordered_reversed :
    ∃ first second later, (parse orderedText).Gives {} first ⟨11⟩ ∧
      (parse reversedText).Gives ⟨40⟩ second later ∧ first.relations.length = 3 ∧
      first.Reordered second := by
  have hcheck : ((parse orderedText).runFrom {}).1.toOption.any (fun first =>
      decide (first.relations.length = 3)) = true ∧
        ((parse orderedText).runFrom {}).2 = ⟨11⟩ := by
    rw [orderedText]
    repeat rw [Text.ofString_ofList]
    decide +kernel
  have hstatements : statements reversedText = (statements orderedText).reverse ∧
      (((statements orderedText).filterMap Statement.tableName?).map Text.fold).Nodup := by
    rw [orderedText, reversedText]
    repeat rw [Text.ofString_ofList]
    decide +kernel
  have hread : (numerals reversedText).findSome? unreadable? = none := by
    rw [reversedText]
    repeat rw [Text.ofString_ofList]
    decide +kernel
  obtain ⟨first, hfirst, hrelations⟩ := gives_of_any hcheck.1 hcheck.2
  have hfails := parse_failsWith reversedText
  rw [hread] at hfails
  obtain ⟨second, later, hsecond⟩ := hfails.gives ⟨40⟩
  have hperm : (statements orderedText).Perm (statements reversedText) := by
    rw [hstatements.1]
    exact (List.reverse_perm _).symm
  exact ⟨first, second, later, hfirst, hsecond, of_decide_eq_true hrelations,
    parse_reordered hfirst hsecond hperm hstatements.2⟩

end Planned

end Sql

end SchemaDesk

import SchemaDesk.Proofs.Sql.Declared
import SchemaDesk.Proofs.Sql.Script

/-!
# Reading back what was written

A project that can be exported is read back from its own text: the same tables in the same order,
with the same columns but for what a text does not keep, and the same relations between the same
columns (`parse_ddl`).  New identifiers stand for the old ones, so relations are compared by the
positions of the columns they join.

The tables are read in a first pass, so the second one starts from tables that correspond to those
of the project.  `Resolving` is what it keeps while it adds the relations one by one.
-/

namespace SchemaDesk

/-- Identifiers of a table and a column of it that stand at some positions. -/
def ColumnAt (tables : List Table) (tableId columnId : Value) (i j : Nat) : Prop :=
  ∃ t c, tables[i]? = some t ∧ t.columns[j]? = some c ∧ t.id.same tableId = true ∧
    c.id.same columnId = true

/-- A relation as it is read back: it joins the columns at the same positions, with the same
actions, and is named after its constraint. -/
structure Relation.ReadBack (before after : List Table) (r s : Relation) : Prop where
  ends : ∀ side, ∃ i j, ColumnAt before (r.tableId side) (r.columnId side) i j ∧
    ColumnAt after (s.tableId side) (s.columnId side) i j
  onDelete : s.onDelete = r.onDelete
  onUpdate : s.onUpdate = r.onUpdate
  name : ∃ k, Sql.constraintName r.id = .ok k ∧ s.name = .str k

/-- Positions depend on the shapes of the tables only. -/
theorem ColumnAt.congr_shape {tables tables' : List Table} {tableId columnId : Value} {i j : Nat}
    (hshape : tables'.map Table.shape = tables.map Table.shape)
    (h : ColumnAt tables tableId columnId i j) : ColumnAt tables' tableId columnId i j := by
  obtain ⟨t, c, ht, hc, htable, hcolumn⟩ := h
  have hat : (tables'.map Table.shape)[i]? = some t.shape := by
    rw [hshape, List.getElem?_map, ht]
    rfl
  rw [List.getElem?_map, Option.map_eq_some_iff] at hat
  obtain ⟨u, hu, hsame⟩ := hat
  have hid : u.id = t.id := congrArg Prod.fst hsame
  have hcolumns : u.columnIds = t.columnIds := congrArg Prod.snd hsame
  have hcat : u.columnIds[j]? = some c.id := by
    rw [hcolumns, Table.columnIds, List.getElem?_map, hc]
    rfl
  rw [Table.columnIds, List.getElem?_map, Option.map_eq_some_iff] at hcat
  obtain ⟨d, hd, hdid⟩ := hcat
  exact ⟨u, d, hu, hd, by rw [hid, htable], by rw [hdid, hcolumn]⟩

/-- The relations that are read back depend on the shapes of the tables only. -/
theorem Relation.ReadBack.congr_shape {before after after' : List Table} {r s : Relation}
    (hshape : after'.map Table.shape = after.map Table.shape) (h : r.ReadBack before after s) :
    r.ReadBack before after' s := by
  refine ⟨fun side => ?_, h.onDelete, h.onUpdate, h.name⟩
  obtain ⟨i, j, hbefore, hafter⟩ := h.ends side
  exact ⟨i, j, hbefore, hafter.congr_shape hshape⟩

namespace Sql

open Minting

/-! ## Columns that correspond -/

/-- A column of a table and the one that was read back for it, at the same positions. -/
structure Matched (before after : List Table) (t : Table) (c : Column) (u : Table) (d : Column)
    (i j : Nat) : Prop where
  table : before[i]? = some t
  column : t.columns[j]? = some c
  readTable : after[i]? = some u
  readColumn : u.columns[j]? = some d
  tables : t.ReadBack u
  columns : c.ReadBack d

section Matched

variable {p : Project} {after : List Table} {t u : Table} {c d : Column} {i j : Nat}

theorem exists_matched (hafter : List.Forall₂ Table.ReadBack p.tables after)
    (ht : p.tables[i]? = some t) (hc : c ∈ t.columns) :
    ∃ u d j, Matched p.tables after t c u d i j := by
  obtain ⟨j, hj⟩ := List.getElem?_of_mem hc
  obtain ⟨u, hu, hread⟩ := forall₂_getElem? hafter ht
  obtain ⟨d, hd, hcolumn⟩ := forall₂_getElem? hread.columns hj
  exact ⟨u, d, j, ht, hj, hu, hd, hread, hcolumn⟩

/-- The table that was read back is found by its name. -/
theorem tableNamed?_readBack (h : p.IsExportable)
    (hafter : List.Forall₂ Table.ReadBack p.tables after) (ht : t ∈ p.tables) (hu : u ∈ after)
    (hread : t.ReadBack u) : tableNamed? after t.name.text = some u := by
  have hdistinct := h.distinct
  rw [tableNames_readBack hafter] at hdistinct
  refine find?_eq_of_unique (List.mem_reverse.2 hu) ?_ fun v hv hnamed => ?_
  · rw [hread.name, (table_name h ht).1]
    exact isNamed_str _
  · refine List.inj_on_of_nodup_map hdistinct (List.mem_reverse.1 hv) hu ?_
    rw [fold_text_of_isNamed hnamed, hread.name]

/-- The column that was read back is found by its name. -/
theorem columnNamed?_readBack (ht : t.IsWritable) (hread : t.ReadBack u) (hc : c ∈ t.columns)
    (hd : d ∈ u.columns) (hcolumn : c.ReadBack d) :
    columnNamed? u.columns c.name.text = some d := by
  have hdistinct := ht.distinct
  rw [hread.columnNames] at hdistinct
  refine find?_eq_of_unique hd ?_ fun e he hnamed => ?_
  · rw [hcolumn.name, name_eq_text (ht.columns c hc).name]
    exact isNamed_str _
  · refine List.inj_on_of_nodup_map hdistinct he hd ?_
    rw [fold_text_of_isNamed hnamed, hcolumn.name]

theorem Matched.found (h : p.IsExportable) (hafter : List.Forall₂ Table.ReadBack p.tables after)
    (hm : Matched p.tables after t c u d i j) :
    tableNamed? after t.name.text = some u ∧ columnNamed? u.columns c.name.text = some d := by
  have ht := List.mem_of_getElem? hm.table
  exact ⟨tableNamed?_readBack h hafter ht (List.mem_of_getElem? hm.readTable) hm.tables,
    columnNamed?_readBack (h.tables t ht) hm.tables (List.mem_of_getElem? hm.column)
      (List.mem_of_getElem? hm.readColumn) hm.columns⟩

theorem Matched.columnAt (hm : Matched p.tables after t c u d i j) {tableId columnId : Value}
    (hplaced : Placed p.tables tableId columnId t c) :
    ColumnAt p.tables tableId columnId i j ∧ ColumnAt after u.id d.id i j :=
  ⟨⟨t, c, hm.table, hm.column, hplaced.same⟩,
    ⟨u, d, hm.readTable, hm.readColumn, Value.same_iff.2 rfl, Value.same_iff.2 rfl⟩⟩

end Matched

/-- Marking where a relation starts changes nothing else of the tables that were read back. -/
theorem readBack_linked {before after : List Table} (tableId columnId : Value) (target : Table)
    (tc : Column) (h : List.Forall₂ Table.ReadBack before after) :
    List.Forall₂ Table.ReadBack before
      (changeColumnIn after tableId columnId (linkedColumn target tc)) := by
  rw [changeColumnIn_linked, Flags.mapColumns, List.forall₂_map_right_iff]
  refine h.imp fun t u hread => ⟨hread.name, ?_⟩
  rw [List.forall₂_map_right_iff]
  refine hread.columns.imp fun c d hcolumn => ?_
  rw [linkedAt]
  split
  · rw [Column.ReadBack] at hcolumn ⊢
    rw [hcolumn]
    rfl
  · exact hcolumn

/-! ## The second pass -/

/-- A state of the second pass in which some relations of the project have been resolved. -/
structure Resolving (p : Project) (before ids : IdSupply) (start : List Table)
    (done : List Relation) (s : Linking) : Prop where
  linked : Linked before ids start s
  tables : List.Forall₂ Table.ReadBack p.tables s.tables
  relations : List.Forall₂ (Relation.ReadBack p.tables start) done s.relations

section Resolving

variable {p : Project} {before ids : IdSupply} {start : List Table} {done : List Relation}
variable {s : Linking} {r : Relation} {source target : Table} {sc tc : Column} {k : Text}
variable {onDelete onUpdate : ReferentialAction}

/-- The statement of a relation adds one key to the table that was read back for its source. -/
theorem laterKeys_join (h : p.IsExportable)
    (hstart : List.Forall₂ Table.ReadBack p.tables start)
    (hj : Joins p r source sc target tc k onDelete onUpdate) (database : Value) :
    ∃ (i : Nat) (u : Table), p.tables[i]? = some source ∧ start[i]? = some u ∧
      laterKeys start (joinSentence database source sc target tc k onDelete onUpdate).statement =
        [(u.id, foreignKeyOf k sc.name.text target.name.text tc.name.text onDelete onUpdate)] := by
  have hsource := hj.source.mem.1
  obtain ⟨i, hi⟩ := List.getElem?_of_mem hsource
  obtain ⟨u, hu, hread⟩ := forall₂_getElem? hstart hi
  obtain ⟨-, htrim, hne⟩ := table_name h hj.target.mem.1
  have hfound := tableNamed?_readBack h hstart hsource (List.mem_of_getElem? hu) hread
  have hkeys : addedKeys (textOf (actionPieces (nameQuote database) k sc.name.text
      target.name.text tc.name.text onDelete onUpdate)) =
        [foreignKeyOf k sc.name.text target.name.text tc.name.text onDelete onUpdate] :=
    addedKeys_actions (nameQuote_cases database) hj.named htrim hne
  refine ⟨i, u, hi, hu, ?_⟩
  show laterKeys start (.alterTable source.name.text _) = _
  rw [laterKeys, hfound]
  show (addedKeys _).map (u.id, ·) = _
  rw [hkeys]
  rfl

/-- Resolving the key of a relation adds that relation. -/
theorem Resolving.resolve (h : p.IsExportable) (hs : Resolving p before ids start done s)
    (hj : Joins p r source sc target tc k onDelete onUpdate) {i : Nat} {u : Table}
    (hi : p.tables[i]? = some source) (hu : start[i]? = some u) :
    ∃ s', (s.resolve (u.id, foreignKeyOf k sc.name.text target.name.text tc.name.text onDelete
        onUpdate)).Gives ids s' ⟨ids.drawn + 1⟩ ∧
      Resolving p before ⟨ids.drawn + 1⟩ start (done ++ [r]) s' := by
  obtain ⟨v, d, a, hsource⟩ := exists_matched hs.tables hi hj.source.mem.2
  obtain ⟨j, hjt⟩ := List.getElem?_of_mem hj.target.mem.1
  obtain ⟨w, e, b, htarget⟩ := exists_matched hs.tables hjt hj.target.mem.2
  -- the tables have kept their identifiers since the first pass
  have hid : v.id = u.id := by
    have hshapes := congrArg (·[i]?) hs.linked.shapes
    simp only [List.getElem?_map, hsource.readTable, hu, Option.map_some, Option.some.injEq]
      at hshapes
    exact congrArg Prod.fst hshapes
  have hvmem := List.mem_of_getElem? hsource.readTable
  have hfind : s.tables.find? (·.id.equals u.id) = some v := by
    obtain ⟨i, hi⟩ := hs.linked.declares.tableId hvmem
    refine find?_eq_of_unique hvmem ?_ fun x hx hequals => ?_
    · rw [← hid, Value.equals_iff, hi]
      exact ⟨rfl, rfl⟩
    · refine table_unique hs.linked.declares.sound.tableIds_nodup hx hvmem ?_
      rw [hid]
      exact Value.canon_of_equals hequals
  obtain ⟨-, hcolumn⟩ := hsource.found h hs.tables
  obtain ⟨htable, htargetColumn⟩ := htarget.found h hs.tables
  set key := foreignKeyOf k sc.name.text target.name.text tc.name.text onDelete onUpdate with hkey
  have hgives : (s.resolve (u.id, key)).Gives ids
      { tables := changeColumnIn s.tables v.id d.id (linkedColumn w e)
        relations := s.relations ++ [linkOf key v d w e (identifier (ids.drawn + 1))] }
      ⟨ids.drawn + 1⟩ := by
    refine Linking.resolve_gives.2 (.inl ⟨v, w, hfind, htable, ?_⟩)
    show ([(sc.name.text, tc.name.text)].foldlM (Linking.link key v w) s).Gives ids _ _
    rw [List.foldlM_cons]
    refine gives_bind.2 ⟨_, _, Linking.link_gives.2 (.inl ⟨d, e, hcolumn, htargetColumn, rfl,
      rfl⟩), gives_pure.2 ⟨rfl, rfl⟩⟩
  refine ⟨_, hgives, Linking.resolve_linked hgives hs.linked,
    readBack_linked v.id d.id w e hs.tables, ?_⟩
  refine List.rel_append hs.relations (.cons ?_ .nil)
  refine Relation.ReadBack.congr_shape hs.linked.shapes.symm ⟨fun side => ?_, ?_, ?_, ?_⟩
  · cases side with
    | source => exact ⟨i, a, hsource.columnAt hj.source⟩
    | target => exact ⟨j, b, htarget.columnAt hj.target⟩
  · exact hj.onDelete.symm
  · exact hj.onUpdate.symm
  · exact ⟨k, hj.constraint, rfl⟩

/-- The statements of several relations add these relations, in order. -/
theorem Resolving.resolve_all (h : p.IsExportable)
    (hstart : List.Forall₂ Table.ReadBack p.tables start) {rs : List Relation}
    {ss : List Sentence}
    (hjoins : List.Forall₂ (IsJoined p) rs ss)
    (hs : Resolving p before ids start done s) :
    ∃ s' ids', (((ss.map Sentence.statement).flatMap (laterKeys start)).foldlM Linking.resolve
        s).Gives ids s' ids' ∧ Resolving p before ids' start (done ++ rs) s' := by
  induction hjoins generalizing done s ids with
  | nil =>
      refine ⟨s, ids, gives_pure.2 ⟨rfl, rfl⟩, ?_⟩
      rwa [List.append_nil]
  | cons hjoin _ ih =>
      obtain ⟨source, sc, target, tc, k, onDelete, onUpdate, hj, rfl⟩ := hjoin
      obtain ⟨i, u, hi, hu, hkeys⟩ := laterKeys_join h hstart hj p.database
      obtain ⟨s', hs', hresolved⟩ := hs.resolve h hj hi hu
      obtain ⟨s'', ids'', hs'', hall⟩ := ih hresolved
      refine ⟨s'', ids'', ?_, by rwa [List.append_assoc] at hall⟩
      rw [List.map_cons, List.flatMap_cons, hkeys, List.singleton_append, List.foldlM_cons]
      exact gives_bind.2 ⟨s', _, hs', hs''⟩

end Resolving

/-! ## The whole script -/

/-- The point in time in the head of a script stands on one line. -/
theorem newline_notMem_stamp (time : Timestamp) : .char '\n' ∉ Text.ofString time.text := by
  intro h
  obtain ⟨c, hc, hnewline⟩ := List.mem_map.1 h
  cases hnewline
  exact time.newline_notMem_text hc

/-- The statements of relations have to wait for the second pass. -/
theorem foldlM_add_joined {p : Project} {rs : List Relation} {ss : List Sentence}
    (hjoins : List.Forall₂ (IsJoined p) rs ss) (d : Draft) (ids : IdSupply) :
    ((ss.map Sentence.statement).foldlM Draft.add d).Gives ids d ids := by
  induction hjoins with
  | nil => exact gives_pure.2 ⟨rfl, rfl⟩
  | cons hjoin _ ih =>
      obtain ⟨_, _, _, _, _, _, _, -, rfl⟩ := hjoin
      rw [List.map_cons, List.foldlM_cons]
      exact gives_bind.2 ⟨d, ids, gives_pure.2 ⟨rfl, rfl⟩, ih⟩

/-- Reading the statements of a project gives its tables and its relations. -/
theorem parse_statements {p : Project} (h : p.IsExportable) {sql : Text}
    {creates alters : List Sentence}
    (hsql : statements sql = (creates ++ alters).map Sentence.statement)
    (hkeys : ∀ tables, (creates.map Sentence.statement).flatMap (laterKeys tables) = [])
    (hcreates : ∀ (d : Draft) (ids : IdSupply), ∃ us ids',
      ((creates.map Sentence.statement).foldlM Draft.add d).Gives ids
        { d with tables := d.tables ++ us } ids' ∧ List.Forall₂ Table.ReadBack p.tables us)
    (hjoins : List.Forall₂ (IsJoined p) p.relations alters) (ids : IdSupply) :
    ∃ parsed ids', (parse sql).Gives ids parsed ids' ∧ parsed.emptyTables = [] ∧
      parsed.skippedClauses = [] ∧ List.Forall₂ Table.ReadBack p.tables parsed.tables ∧
      List.Forall₂ (Relation.ReadBack p.tables parsed.tables) p.relations parsed.relations := by
  rw [List.map_append] at hsql
  set found := statements sql
  obtain ⟨start, mid, hstart, htables⟩ := hcreates {} ids
  rw [List.nil_append] at hstart
  obtain ⟨linked, last, hlinked, hresolved⟩ :=
    Resolving.resolve_all (s := { tables := start }) h htables hjoins
      ⟨⟨drafted_declares hstart, rfl⟩, htables, .nil⟩
  rw [List.nil_append] at hresolved
  refine ⟨{ tables := linked.tables, relations := linked.relations }, last, ?_, rfl, rfl,
    hresolved.tables, ?_⟩
  · have hadded : (found.foldlM Draft.add {}).Gives ids { tables := start } mid := by
      rw [hsql, List.foldlM_append]
      exact gives_bind.2 ⟨_, mid, hstart, foldlM_add_joined hjoins _ mid⟩
    have hlater : found.flatMap (laterKeys start) =
        (alters.map Sentence.statement).flatMap (laterKeys start) := by
      rw [hsql, List.flatMap_append, hkeys, List.nil_append]
    rw [← hlater] at hlinked
    exact gives_bind.2 ⟨_, mid, hadded, gives_bind.2 ⟨linked, last, hlinked,
      gives_pure.2 ⟨rfl, rfl⟩⟩⟩
  · exact hresolved.relations.imp fun r s hread => hread.congr_shape hresolved.linked.shapes

/-- A project that can be exported is written as a text from which, whatever identifiers are drawn,
its tables and relations are read back. -/
theorem exported_reads {p : Project} (h : p.IsExportable) (time : Timestamp) :
    ∃ text, ddl p (.ofString time.text) = .ok text ∧ ∀ ids, ∃ parsed ids',
      (parse text).Gives ids parsed ids' ∧ parsed.emptyTables = [] ∧ parsed.skippedClauses = [] ∧
        List.Forall₂ Table.ReadBack p.tables parsed.tables ∧
        List.Forall₂ (Relation.ReadBack p.tables parsed.tables) p.relations parsed.relations := by
  obtain ⟨creates, htexts, hwells, hkeys, hcreates⟩ := createTables_read h.tables p.database
  obtain ⟨alters, hlines, hfits, hjoins⟩ := alterTables_eq h fun r hr => hr
  have hrows : ∀ r ∈ scriptRows p.name.text (.ofString time.text) creates alters, r.WellFormed :=
    mem_scriptRows h.name (newline_notMem_stamp time) hwells hfits
  have hsql := statements_rows (nameQuote_cases p.database) hrows
  rw [filterMap_scriptRows] at hsql
  exact ⟨_, ddl_eq h _ htexts hlines, parse_statements h hsql hkeys hcreates hjoins⟩

end Sql

end SchemaDesk

import SchemaDesk.Proofs.Session.Again
import SchemaDesk.Proofs.Sql.RoundTrip

/-!
# Applying a project's own text

The text that a project is written as can be applied to the project itself, as happens when it is
copied into the live editor.  The merge goes by names: every table that the text declares finds the
table it was written for (`OwnText.counterpart`), and every column finds its column, so that the
declared identifiers are all renamed to those of the project (`OwnText.end_eq`).  Thus the declared
relations join what the project's relations join already, and none is added; the shapes of the
tables stay, so none is lost.

What a text does not keep of a column is lost by the merge.  `Column.Kept` says what stays.
-/

namespace SchemaDesk

/-- A column of which the merge of its own text keeps identifier, name and type, and those flags
that a text says or the relations dictate, as plain truth values. -/
structure Column.Kept (c d : Column) : Prop where
  id : d.id = c.id
  name : d.name = c.name
  type : d.type = c.type
  isNullable : d.isNullable = .bool c.isNullable.isTruthy
  isPrimaryKey : d.isPrimaryKey = .bool c.isPrimaryKey.isTruthy
  isForeignKey : d.isForeignKey = .bool c.isForeignKey.isTruthy

/-- A table of which everything is kept but what its columns lose. -/
structure Table.Kept (t u : Table) : Prop where
  rest : u = { t with columns := u.columns }
  columns : List.Forall₂ Column.Kept t.columns u.columns

/-! ## Names that tell parts apart -/

section Names

variable {tables : List Table}

/-- A table of a name that no other has is the last of its name. -/
theorem lastNamed?_of_nodup (hnames : ∀ t ∈ tables, ∃ s, t.name = .str s)
    (hdistinct : (tables.map fun t => Text.fold t.name.text).Nodup) {t : Table} (ht : t ∈ tables) :
    lastNamed? tables t.name = some t := by
  refine find?_eq_of_unique (List.mem_reverse.2 ht) (Value.sameName_self (hnames t ht))
    fun u hu hsame => ?_
  obtain ⟨s, s', hs, hs', hfold⟩ := Value.sameName_iff.1 hsame
  apply List.inj_on_of_nodup_map hdistinct (List.mem_reverse.1 hu) ht
  rw [hs, hs']
  exact hfold

end Names

theorem Column.ReadBack.cleared_eq {c d : Column} (h : c.ReadBack d) :
    Flags.cleared d = c.written true d.id := by
  rw [h]
  rfl

namespace Edit.Merge

/-- What a project that can be exported, with exact flags, is read back as. -/
structure OwnText (p : Project) (declared : List Table) (relations : List Relation) : Prop where
  exportable : p.IsExportable
  flags : FlagsExact p.tables p.relations
  tablesBack : List.Forall₂ Table.ReadBack p.tables declared
  relationsBack : List.Forall₂ (Relation.ReadBack p.tables declared) p.relations relations
  sound : Sound declared relations
  typed : ∀ d ∈ declared, d.IsTyped
  settled : ∀ d ∈ declared, ∀ c ∈ d.columns, c.IsSettled

namespace OwnText

variable {p : Project} {declared : List Table} {relations : List Relation} {t u : Table} {i : Nat}

/-! ## The two sides -/

theorem isSound (h : OwnText p declared relations) : Sound p.tables p.relations :=
  checkIntegrity_eq_ok_iff.1 h.exportable.sound

theorem named (h : OwnText p declared relations) : Named p.tables := by
  refine ⟨List.Nodup.of_map _ h.isSound.tableIds_nodup, fun t ht => ?_⟩
  obtain ⟨s, hs, -⟩ := (h.exportable.tables t ht).name
  exact ⟨s, hs⟩

theorem separate (h : OwnText p declared relations) : Separate declared :=
  ⟨.of_isTyped h.typed h.sound.tableIds_nodup, h.sound.tableIds_nodup, h.sound.columns⟩

/-- Tables at the same place find each other by their names. -/
theorem counterpart (h : OwnText p declared relations) (ht : p.tables[i]? = some t) :
    ∃ u, declared[i]? = some u ∧ t.ReadBack u ∧ lastNamed? declared t.name = some u ∧
      lastNamed? p.tables u.name = some t := by
  obtain ⟨u, hu, hread⟩ := Sql.forall₂_getElem? h.tablesBack ht
  have hdistinct := h.exportable.distinct
  have hlast := lastNamed?_of_nodup h.named.names hdistinct (List.mem_of_getElem? ht)
  rw [tableNames_readBack h.tablesBack] at hdistinct
  have hlast' := lastNamed?_of_nodup h.separate.named.names hdistinct (List.mem_of_getElem? hu)
  refine ⟨u, hu, hread, ?_, ?_⟩
  · rw [← hread.name]
    exact hlast'
  · rw [hread.name]
    exact hlast

/-- Every declared column takes over the identifier of the column it was written for. -/
theorem takenColumns_ids (h : OwnText p declared relations) (ht : t ∈ p.tables) (hu : u ∈ declared)
    (hread : t.ReadBack u) :
    (takenColumns t.columns u.columns).map Column.id = t.columns.map Column.id := by
  have hnames : t.columns.map Column.name = u.columns.map Column.name :=
    Sql.forall₂_map_eq hread.columns fun c d hcolumn => hcolumn.name.symm
  apply Merge.takenColumns_ids hnames
  · exact fun c hc => ((h.typed u hu).columns c hc).name
  · -- the names of the declared columns are those of the table, which are all different
    refine (Value.pairwise_sameName_iff fun c hc => ((h.typed u hu).columns c hc).name).2 ?_
    have hdistinct := (h.exportable.tables t ht).distinct
    have hfold := congrArg (List.map fun v : Value => Text.fold v.text) hnames
    rw [List.map_map, List.map_map] at hfold
    exact hfold ▸ hdistinct

/-! ## The merged tables -/

theorem mergedTable_eq (h : OwnText p declared relations) (ht : p.tables[i]? = some t)
    (hlast : lastNamed? declared t.name = some u) :
    mergedTable p.tables declared t =
      { t with columns := takenColumns t.columns u.columns } := by
  have hself := lastNamed?_of_nodup h.named.names h.exportable.distinct (List.mem_of_getElem? ht)
  rw [mergedTable_of_last hself, hlast, Option.map_some, Option.getD_some, join_eq]

/-- No declaration is new. -/
theorem joinedTables_eq (h : OwnText p declared relations) :
    joinedTables p declared = p.tables.map (mergedTable p.tables declared) := by
  -- the table that a declaration was written for is found under its name
  have hnone : newDeclarations p.tables declared = [] := by
    refine List.filter_eq_nil_iff.2 fun u hu hnew => ?_
    obtain ⟨i, hi⟩ := List.getElem?_of_mem hu
    obtain ⟨t, ht, -⟩ := Sql.forall₂_getElem? h.tablesBack.flip hi
    obtain ⟨u', hu', -, -, hpartner⟩ := h.counterpart ht
    cases hu'.symm.trans hi
    rw [(of_decide_eq_true hnew).2] at hpartner
    cases hpartner
  rw [Merge.joinedTables_eq h.named h.separate.named, hnone, List.append_nil]

/-- The merge leaves the shapes of the tables as they are. -/
theorem shape_eq (h : OwnText p declared relations) :
    (merged p declared relations).tables.map Table.shape = p.tables.map Table.shape := by
  rw [merged_shape, h.joinedTables_eq, List.map_map]
  refine List.map_congr_left fun t ht => ?_
  obtain ⟨i, hi⟩ := List.getElem?_of_mem ht
  obtain ⟨u, hu, hread, hlast, -⟩ := h.counterpart hi
  rw [Function.comp_apply, h.mergedTable_eq hi hlast, Table.shape, Table.shape, Table.columnIds,
    Table.columnIds, h.takenColumns_ids ht (List.mem_of_getElem? hu) hread]

/-! ## The relations -/

/-- A declared end is renamed to the end of the relation that it was written for. -/
theorem end_eq (h : OwnText p declared relations) {r s : Relation}
    (hread : r.ReadBack p.tables declared s) (side : Side) :
    (renamed (tableMoves p declared) (s.tableId side)).canon = (r.tableId side).canon ∧
      (renamed (columnMoves p declared) (s.columnId side)).canon = (r.columnId side).canon := by
  obtain ⟨i, j, ⟨t, c, ht, hc, htable, hcolumn⟩, u, d, hu, hd, hutable, hucolumn⟩ :=
    hread.ends side
  obtain ⟨u', hu', hback, hlast, hpartner⟩ := h.counterpart ht
  cases hu'.symm.trans hu
  have humem := List.mem_of_getElem? hu
  have htyped := h.typed u humem
  -- the declared identifiers are text, so the ends are these and not just the same
  have hend := Value.eq_of_canon htyped.id (Value.same_iff.1 hutable)
  have hcolumnEnd := Value.eq_of_canon (htyped.columns d (List.mem_of_getElem? hd)).id
    (Value.same_iff.1 hucolumn)
  rw [← hback.name] at hlast
  have htables := h.separate.tableMoves_placed (p := p) hlast
  have hcolumns := h.separate.columnMoves_placed (p := p) hlast
  rw [placed, hpartner] at htables hcolumns
  have hids := hcolumns.trans (h.takenColumns_ids (List.mem_of_getElem? ht) humem hback)
  have hat := congrArg (·[j]?) hids
  simp only [Table.columnIds, List.getElem?_map, hd, hc, Option.map_some, Option.some.injEq] at hat
  rw [← hend, ← hcolumnEnd, htables, hat]
  exact ⟨Value.same_iff.1 htable, Value.same_iff.1 hcolumn⟩

/-- The merge keeps the relations and adds none. -/
theorem relations_eq (h : OwnText p declared relations) :
    (merged p declared relations).relations = p.relations := by
  have hresolves : ∀ r : Relation,
      r.resolvesIn (merged p declared relations).tables = r.resolvesIn p.tables :=
    Relation.resolvesIn_congr_shape h.shape_eq
  have hkept : p.relations.filter (·.resolvesIn p.tables) = p.relations :=
    List.filter_eq_self.2 fun r hr => h.isSound.resolvesIn hr
  rw [merged_relations_eq]
  simp only [hresolves]
  rw [hkept, newEnds_eq_nil, List.append_nil]
  -- each declared relation is renamed to one with the ends of the relation it was written for
  intro s' hs'
  obtain ⟨s, hs, rfl⟩ := List.mem_map.1 (List.mem_filter.1 hs').1
  obtain ⟨r, hr, hread⟩ := Sql.forall₂_mem_right h.relationsBack hs
  obtain ⟨hsourceTable, hsourceColumn⟩ := h.end_eq hread .source
  obtain ⟨htargetTable, htargetColumn⟩ := h.end_eq hread .target
  refine List.any_eq_true.2 ⟨r, hr, ?_⟩
  rw [Relation.sameEnds, Bool.and_eq_true, Relation.startsAt_iff, Relation.endsAt_iff]
  exact ⟨⟨hsourceTable.symm, hsourceColumn.symm⟩, htargetTable.symm, htargetColumn.symm⟩

/-! ## The columns -/

/-- A column that takes over the identifier of the column it was written for, once it is marked. -/
theorem kept_finished (h : OwnText p declared relations) (ht : t ∈ p.tables) {c d : Column}
    (hc : c ∈ t.columns) (hread : c.ReadBack d) (hsettled : d.IsSettled) :
    c.Kept (finished p declared relations t.id { d with id := c.id }) := by
  have hcleared : Flags.cleared (finished p declared relations t.id { d with id := c.id }) =
      c.written true c.id := by
    rw [cleared_finished]
    exact congrArg (fun d : Column => { d with id := c.id }) hread.cleared_eq
  -- the flag is that of the relations, which are those of the project
  have hflag : (Flags.lastFrom? p.relations t.id c.id).isSome = c.isForeignKey.isTruthy := by
    rw [Bool.eq_iff_iff, h.flags t ht c hc, Flags.lastFrom?, List.isSome_find?, List.any_reverse,
      List.any_eq_true]
  have hname := congrArg Column.name hcleared
  have htype := congrArg Column.type hcleared
  have hnull := congrArg Column.isNullable hcleared
  have hkey := congrArg Column.isPrimaryKey hcleared
  refine ⟨finished_id .., hname, htype, hnull, hkey.trans ?_, ?_⟩
  · simp only [Column.written, Bool.and_true]
  · rw [finished, Flags.synced_isForeignKey (renameReference_isSettled h.typed
      (isSettled_withId hsettled c.id)), h.relations_eq, ← hflag]
    rfl

/-- The merged tables are those of the project, with what is kept of their columns. -/
theorem kept (h : OwnText p declared relations) :
    List.Forall₂ Table.Kept p.tables (merged p declared relations).tables := by
  rw [merged_tables, h.joinedTables_eq, List.map_map, List.forall₂_map_right_iff,
    List.forall₂_same]
  intro t ht
  obtain ⟨i, hi⟩ := List.getElem?_of_mem ht
  obtain ⟨u, hu, hread, hlast, -⟩ := h.counterpart hi
  have humem := List.mem_of_getElem? hu
  have hids := h.takenColumns_ids ht humem hread
  rw [Function.comp_apply, h.mergedTable_eq hi hlast]
  refine ⟨rfl, ?_⟩
  show List.Forall₂ Column.Kept t.columns
    ((takenColumns t.columns u.columns).map (finished p declared relations t.id))
  rw [List.forall₂_map_right_iff, List.forall₂_iff_get]
  have hlength : t.columns.length = (takenColumns t.columns u.columns).length := by
    have hlengths := congrArg List.length hids
    rw [List.length_map, List.length_map] at hlengths
    exact hlengths.symm
  refine ⟨hlength, fun j hj hj' => ?_⟩
  have hju : j < u.columns.length := hread.columns.length_eq ▸ hj
  -- the column that is taken over is the declared one, but for its identifier
  have hid : (takenColumns t.columns u.columns)[j].id = t.columns[j].id := by
    have hat := List.getElem_of_eq hids (i := j) (by simpa using hj')
    rwa [List.getElem_map, List.getElem_map] at hat
  have htaken : (takenColumns t.columns u.columns)[j] =
      { u.columns[j] with id := t.columns[j].id } := by
    rw [← hid]
    simp only [takenColumns, List.getElem_mapIdx]
  show t.columns[j].Kept (finished p declared relations t.id (takenColumns t.columns u.columns)[j])
  rw [htaken]
  exact h.kept_finished ht (List.getElem_mem hj) (hread.columns.get hj hju)
    (h.settled u humem _ (List.getElem_mem hju))

/-! ## The merge -/

theorem check_eq_ok (h : OwnText p declared relations) : check p declared relations = .ok () := by
  apply check_of_parts _ _ _ h.isSound h.sound
  · intro t ht
    rcases List.mem_append.1 ht with ht | ht
    · exact h.separate.named.names t ht
    · exact h.named.names t ht
  · intro d hd
    refine checkJoin_eq_ok (fun t ht c hc => ?_) (h.typed d (mem_lastDeclarations hd))
    exact ((h.exportable.tables t ht).columns c hc).name
  · -- all columns of the joined tables were declared, with references that are text or nothing
    intro id hid
    rw [h.joinedTables_eq] at hid
    obtain ⟨v, hv, hid⟩ := List.mem_flatMap.1 hid
    obtain ⟨t, ht, rfl⟩ := List.mem_map.1 hv
    obtain ⟨i, hi⟩ := List.getElem?_of_mem ht
    obtain ⟨u, hu, -, hlast, -⟩ := h.counterpart hi
    rw [h.mergedTable_eq hi hlast] at hid
    obtain ⟨e, he, hid⟩ := List.mem_flatMap.1 hid
    obtain ⟨j, hj, rfl⟩ := List.mem_mapIdx.1 he
    have htyped := (h.typed u (List.mem_of_getElem? hu)).columns _ (List.getElem_mem hj)
    rcases List.mem_cons.1 hid with rfl | hid
    · exact htyped.referencesTableId.isKey
    · rw [List.mem_singleton.1 hid]
      exact htyped.referencesColumnId.isKey

theorem gives (h : OwnText p declared relations) (later : IdSupply) :
    (merge declared relations p).Gives later ((), some (merged p declared relations)) later := by
  refine merge_gives.2 ⟨h.check_eq_ok, ?_, rfl, rfl⟩
  rw [h.relations_eq]
  exact h.isSound.congr_shape h.shape_eq

end OwnText

end Edit.Merge

/-! ## Applying the text -/

open Edit.Merge

end SchemaDesk

import SchemaDesk.Proofs.Sql.Built

/-!
# What a text declares is sound

The tables and relations that `Sql.parse` gives hold together whatever the text: their identifiers
are drawn during the reading and all different, every relation joins columns that exist, and a
column is flagged as a foreign key exactly when a relation starts at it.

The proof follows the two passes of the reading: `Declares` is kept by every statement of the first
pass, and `Linked` by every foreign key of the second, which leaves the shapes of the tables alone.
-/

namespace SchemaDesk.Sql

open Minting

/-- What holds of all that a text declares. -/
structure Declares (before after : IdSupply) (tables : List Table) (relations : List Relation) :
    Prop where
  ids : DrawnBetween before after
    (tables.flatMap (fun t => t.id :: t.columnIds) ++ relations.map Relation.id)
  tableNames : ∀ t ∈ tables, ∃ s, t.name = .str s
  columnNames : ∀ t ∈ tables, ∀ c ∈ t.columns, ∃ s, c.name = .str s
  hints : ∀ t ∈ tables, ∀ c ∈ t.columns,
    (c.referencesTableId = .null ∨ ∃ s, c.referencesTableId = .str s) ∧
      (c.referencesColumnId = .null ∨ ∃ s, c.referencesColumnId = .str s)
  ends : ∀ r ∈ relations, ∀ side, HasColumn tables (r.tableId side) (r.columnId side)
  flags : FlagsExact tables relations

section Declares

variable {before after : IdSupply} {tables : List Table} {relations : List Relation}

/-- The identifiers of tables, each followed by those of its columns, in another order. -/
theorem ids_perm (tables : List Table) :
    (tables.flatMap fun t => t.id :: t.columnIds).Perm
      (tables.map Table.id ++ tables.flatMap Table.columnIds) := by
  induction tables with
  | nil => exact List.Perm.refl _
  | cons t tables ih =>
      simp only [List.flatMap_cons, List.map_cons, List.cons_append]
      refine List.Perm.cons _ ((ih.append_left _).trans ?_)
      rw [← List.append_assoc, ← List.append_assoc]
      exact List.perm_append_comm.append_right _

theorem Declares.allIds (h : Declares before after tables relations) :
    DrawnBetween before after
      (tables.map Table.id ++ tables.flatMap Table.columnIds ++ relations.map Relation.id) :=
  h.ids.perm ((ids_perm tables).symm.append_right _)

/-- Before the first statement nothing is declared. -/
theorem Declares.nil : Declares before before [] [] :=
  ⟨.nil (Nat.le_refl _), by simp, by simp, by simp, by simp, FlagsExact.nil⟩

/-- What a text declares is sound by itself. -/
theorem Declares.sound (h : Declares before after tables relations) : Sound tables relations := by
  have hids := h.allIds
  refine ⟨?_, ?_, ?_, h.ends⟩
  · intro id hid
    obtain ⟨s, rfl⟩ := hids.isText hid
    rfl
  · have hsub : (tables.map Table.id ++ relations.map Relation.id).Sublist
        (tables.map Table.id ++ tables.flatMap Table.columnIds ++ relations.map Relation.id) :=
      (List.sublist_append_left _ _).append (List.Sublist.refl _)
    rw [(hids.sublist hsub).map_canon]
    exact (hids.sublist hsub).nodup
  · have hsub : (tables.flatMap Table.columnIds).Sublist
        (tables.map Table.id ++ tables.flatMap Table.columnIds ++ relations.map Relation.id) :=
      (List.sublist_append_right _ _).trans (List.sublist_append_left _ _)
    rw [(hids.sublist hsub).map_canon]
    exact (hids.sublist hsub).nodup

theorem Declares.tableId (h : Declares before after tables relations) {t : Table}
    (ht : t ∈ tables) : ∃ s, t.id = .str s :=
  h.allIds.isText (List.mem_append_left _ (List.mem_append_left _ (List.mem_map_of_mem ht)))

theorem Declares.columnId (h : Declares before after tables relations) {t : Table}
    (ht : t ∈ tables) {id : Value} (hid : id ∈ t.columnIds) : ∃ s, id = .str s :=
  h.allIds.isText (List.mem_append_left _ (List.mem_append_right _
    (List.mem_flatMap.2 ⟨t, ht, hid⟩)))

theorem Declares.widen {later : IdSupply} (h : Declares before after tables relations)
    (hle : after.drawn ≤ later.drawn) : Declares before later tables relations :=
  ⟨h.ids.widen hle, h.tableNames, h.columnNames, h.hints, h.ends, h.flags⟩

/-- One more table, which is no foreign key yet, and whose identifiers are drawn afterwards. -/
theorem Declares.add_table {later : IdSupply} (h : Declares before after tables []) {t : Table}
    (hids : DrawnBetween after later (t.id :: t.columnIds)) (hname : ∃ s, t.name = .str s)
    (hcolumns : ∀ c ∈ t.columns, IsDeclared c) : Declares before later (tables ++ [t]) [] := by
  have hold := h.ids
  rw [List.map_nil, List.append_nil] at hold
  refine ⟨?_, ?_, ?_, ?_, fun r hr => absurd hr List.not_mem_nil, ?_⟩
  · simpa using hold.append hids
  · intro u hu
    rcases List.mem_append.1 hu with hu | hu
    · exact h.tableNames u hu
    · rw [List.mem_singleton.1 hu]
      exact hname
  · intro u hu c hc
    rcases List.mem_append.1 hu with hu | hu
    · exact h.columnNames u hu c hc
    · rw [List.mem_singleton.1 hu] at hc
      exact (hcolumns c hc).name
  · intro u hu c hc
    rcases List.mem_append.1 hu with hu | hu
    · exact h.hints u hu c hc
    · rw [List.mem_singleton.1 hu] at hc
      exact ⟨.inl (hcolumns c hc).table, .inl (hcolumns c hc).column⟩
  · intro u hu c hc
    rcases List.mem_append.1 hu with hu | hu
    · exact h.flags u hu c hc
    · rw [List.mem_singleton.1 hu] at hc
      rw [(hcolumns c hc).flag]
      simp [Value.isTruthy]

/-- Linking two columns keeps the flags exact: the column that is marked is the one at which the new
relation starts. -/
theorem Declares.link_flags {k : ForeignKey} {source target : Table} {sc tc : Column} {s u : Text}
    (h : Declares before after tables relations) (hs : source.id = .str s) (hu : sc.id = .str u)
    (id : Text) :
    FlagsExact (changeColumnIn tables source.id sc.id (linkedColumn target tc))
      (relations ++ [linkOf k source sc target tc id]) := by
  rw [changeColumnIn_linked, Flags.flagsExact_mapColumns (linkedAt_id _ _ _ _)]
  intro t ht c hc
  have hstarts : (t.id.equals source.id && c.id.equals sc.id) = true ↔
      (linkOf k source sc target tc id).startsAt t.id c.id = true := by
    obtain ⟨i, hi⟩ := h.tableId ht
    obtain ⟨j, hj⟩ := h.columnId ht (List.mem_map_of_mem hc)
    rw [Relation.startsAt_iff, linkOf, hi, hj, hs, hu, Bool.and_eq_true, Value.equals_iff,
      Value.equals_iff]
    simp [Value.isNan, eq_comm]
  rw [exists_mem_append, ← h.flags t ht c hc]
  simp only [List.mem_singleton, exists_eq_left]
  rw [← hstarts, linkedAt]
  split
  · next hmatch => simp [hmatch, linkedColumn, Value.isTruthy]
  · next hmatch => simp [hmatch]

/-- One more relation between columns that exist, with its source column marked. -/
theorem Declares.link {k : ForeignKey} {source target : Table} {sc tc : Column}
    (h : Declares before after tables relations)
    (hsource : HasColumn tables source.id sc.id) (htarget : HasColumn tables target.id tc.id)
    (hids : (∃ s, source.id = .str s) ∧ (∃ s, sc.id = .str s) ∧ (∃ s, target.id = .str s) ∧
      ∃ s, tc.id = .str s) :
    Declares before ⟨after.drawn + 1⟩
      (changeColumnIn tables source.id sc.id (linkedColumn target tc))
      (relations ++ [linkOf k source sc target tc (identifier (after.drawn + 1))]) := by
  obtain ⟨⟨s, hs⟩, ⟨s', hs'⟩, ⟨u, hu⟩, ⟨u', hu'⟩⟩ := hids
  -- marking a column keeps the shape of the tables, on which identifiers and ends depend alone
  have hshape := shape_linked source.id sc.id target tc tables
  refine ⟨?_, ?_, ?_, ?_, ?_, h.link_flags hs hs' _⟩
  · have hsame := congrArg (List.flatMap fun s : Value × List Value => s.1 :: s.2) hshape
    simp only [List.flatMap_map, Table.shape] at hsame
    rw [hsame, List.map_append, ← List.append_assoc]
    exact h.ids.append .one
  · intro t ht
    rw [changeColumnIn_linked] at ht
    obtain ⟨v, hv, rfl⟩ := Flags.mem_mapColumns.1 ht
    exact h.tableNames v hv
  · intro t ht c hc
    rw [changeColumnIn_linked] at ht
    obtain ⟨v, hv, rfl⟩ := Flags.mem_mapColumns.1 ht
    obtain ⟨d, hd, rfl⟩ := List.mem_map.1 hc
    rw [linkedAt_name]
    exact h.columnNames v hv d hd
  · intro t ht c hc
    rw [changeColumnIn_linked] at ht
    obtain ⟨v, hv, rfl⟩ := Flags.mem_mapColumns.1 ht
    obtain ⟨d, hd, rfl⟩ := List.mem_map.1 hc
    rw [linkedAt]
    split
    · exact ⟨.inr ⟨u, hu⟩, .inr ⟨u', hu'⟩⟩
    · exact h.hints v hv d hd
  · intro r hr side
    rw [hasColumn_iff_shape, hshape, ← hasColumn_iff_shape]
    rcases List.mem_append.1 hr with hr | hr
    · exact h.ends r hr side
    · rw [List.mem_singleton.1 hr]
      cases side with
      | source => exact hsource
      | target => exact htarget

end Declares

variable {before ids ids' : IdSupply}

/-! ## The first pass -/

/-- A table is built from identifiers that are drawn for it. -/
theorem buildTable_drawn {index : Nat} {name : Text} {clauses : List Clause}
    {options : TableOptions} {t : Table}
    (h : (buildTable index name clauses options).Gives ids t ids') :
    DrawnBetween ids ids' (t.id :: t.columnIds) ∧ t.name = .str name ∧
      ∀ c ∈ t.columns, IsDeclared c := by
  obtain ⟨columns, mid, hcolumns, rfl, rfl⟩ := buildTable_gives.1 h
  obtain ⟨hdrawn, hbuilt⟩ := buildColumns_drawn hcolumns
  refine ⟨?_, rfl, fun c hc => ?_⟩
  · have hids : (tableOf index name clauses options columns
        (identifier (mid.drawn + 1))).columnIds = columns.map Column.id := by
      simp only [Table.columnIds, tableOf, List.map_map]
      rfl
    rw [hids]
    exact (hdrawn.append .one).perm (List.perm_append_singleton _ _).symm
  · obtain ⟨d, hd, rfl⟩ := List.mem_map.1 hc
    obtain ⟨clause, -, arguments, id, -, rfl⟩ := forall₂_mem_right hbuilt hd
    exact keyed_isDeclared (columnOf_isDeclared clause arguments id)

/-- Every statement of the first pass keeps the tables sound. -/
theorem Draft.add_declares {d d' : Draft} {s : Statement} (h : (d.add s).Gives ids d' ids')
    (hd : Declares before ids d.tables []) : Declares before ids' d'.tables [] := by
  cases s with
  | alterTable name actions =>
      obtain ⟨rfl, rfl⟩ := gives_pure.1 h
      exact hd
  | createTable name body options =>
      obtain ⟨t, ht, rfl⟩ := Draft.add_createTable_gives.1 h
      obtain ⟨hids, hname, hcolumns⟩ := buildTable_drawn ht
      rw [Draft.with]
      split
      · exact hd.widen hids.le
      · exact hd.add_table hids ⟨name, hname⟩ hcolumns

/-- The tables that the first pass ends with are sound. -/
theorem drafted_declares {found : List Statement} {d : Draft}
    (h : (found.foldlM Draft.add {}).Gives ids d ids') : Declares ids ids' d.tables [] :=
  foldlM_keeps (fun d later => Declares ids later d.tables []) h .nil
    fun _ _ _ _ _ _ hd hadd => Draft.add_declares hadd hd

/-! ## The second pass -/

/-- A state of the second pass: what it has linked so far is sound, and the tables have the shapes
that they had at first. -/
structure Linked (before ids : IdSupply) (start : List Table) (s : Linking) : Prop where
  declares : Declares before ids s.tables s.relations
  shapes : s.tables.map Table.shape = start.map Table.shape

/-- A column of a table of some shape is there, under identifiers that are text. -/
theorem Linked.column {start : List Table} {s : Linking} (h : Linked before ids start s) {t : Table}
    (ht : t.shape ∈ start.map Table.shape) {c : Column} (hc : c ∈ t.columns) :
    HasColumn s.tables t.id c.id ∧ (∃ i, t.id = .str i) ∧ ∃ i, c.id = .str i := by
  rw [← h.shapes] at ht
  obtain ⟨u, hu, hshape⟩ := List.mem_map.1 ht
  have hid : u.id = t.id := congrArg Prod.fst hshape
  have hcolumns : u.columnIds = t.columnIds := congrArg Prod.snd hshape
  have hmem : c.id ∈ u.columnIds := by
    rw [hcolumns]
    exact List.mem_map_of_mem hc
  refine ⟨⟨u, hu, by rw [hid], List.mem_map_of_mem hmem⟩, ?_, h.declares.columnId hu hmem⟩
  rw [← hid]
  exact h.declares.tableId hu

/-- Linking one pair of columns keeps the tables sound; the source and the target of the key have
shapes of the start. -/
theorem Linking.link_linked {start : List Table} {k : ForeignKey} {source target : Table}
    {s s' : Linking} {names : Text × Text} (hsource : source.shape ∈ start.map Table.shape)
    (htarget : target.shape ∈ start.map Table.shape)
    (h : (Linking.link k source target s names).Gives ids s' ids')
    (hs : Linked before ids start s) : Linked before ids' start s' := by
  rcases Linking.link_gives.1 h with ⟨sc, tc, hsc, htc, rfl, rfl⟩ | ⟨-, rfl, rfl⟩
  · obtain ⟨hsourceColumn, hsourceId, hscId⟩ := hs.column hsource (List.mem_of_find?_eq_some hsc)
    obtain ⟨htargetColumn, htargetId, htcId⟩ := hs.column htarget (List.mem_of_find?_eq_some htc)
    refine ⟨hs.declares.link hsourceColumn htargetColumn
      ⟨hsourceId, hscId, htargetId, htcId⟩, ?_⟩
    rw [shape_linked, hs.shapes]
  · exact hs

theorem Linking.resolve_linked {start : List Table} {s s' : Linking} {key : Value × ForeignKey}
    (h : (s.resolve key).Gives ids s' ids') (hs : Linked before ids start s) :
    Linked before ids' start s' := by
  rcases Linking.resolve_gives.1 h with ⟨source, target, hsource, htarget, hfold⟩ | ⟨-, rfl, rfl⟩
  · have hshape : ∀ t ∈ s.tables, t.shape ∈ start.map Table.shape := by
      intro t ht
      rw [← hs.shapes]
      exact List.mem_map_of_mem ht
    have hsource := hshape source (List.mem_of_find?_eq_some hsource)
    have htarget := hshape target (List.mem_reverse.1 (List.mem_of_find?_eq_some htarget))
    exact foldlM_keeps (fun s ids => Linked before ids start s) hfold hs
      fun _ _ _ _ _ _ hstate hlink => Linking.link_linked hsource htarget hlink hstate
  · exact hs

/-! ## The whole reading -/

/-- What a text declares is sound, under identifiers drawn while it is read. -/
theorem parse_declares {sql : Text} {parsed : Parsed} (h : (parse sql).Gives ids parsed ids') :
    Declares ids ids' parsed.tables parsed.relations := by
  obtain ⟨draft, mid, hdraft, h⟩ := gives_bind.1 h
  obtain ⟨linked, last, hlinked, h⟩ := gives_bind.1 h
  obtain ⟨rfl, rfl⟩ := gives_pure.1 h
  have hsecond : Linked ids last draft.tables linked :=
    foldlM_keeps (fun s later => Linked ids later draft.tables s) hlinked
      ⟨drafted_declares hdraft, rfl⟩
      fun _ _ _ _ _ _ hs hresolve => Linking.resolve_linked hresolve hs
  exact hsecond.declares

end SchemaDesk.Sql

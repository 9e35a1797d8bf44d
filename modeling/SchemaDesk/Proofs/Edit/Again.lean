import SchemaDesk.Proofs.Edit.Marks
import SchemaDesk.Proofs.Sql.Again

/-!
# Merging the same text again

After a merge the tables of the declared names have the declared columns, so declaring the same
again finds every table and every column by its name.  `Repeats` says what two readings of a text
have in common that matters for this.  Then the second merge takes every declared column to the
identifier that the first one gave it, so its relations join what is joined already
(`Repeats.relations_eq`), and as the marks go by the relations, they stay as they are too
(`Repeats.tables_eq`).

A column's name has to lead back to the column, so no name may be declared twice in a table.
-/

namespace SchemaDesk

/-! ## Columns but for their identifiers -/

/-- What a declaration says of a column: everything but its identifier and its marks. -/
def Column.core (c : Column) : Column :=
  Flags.cleared (c.under fun _ => .null)

theorem map_core_of_cleared {cs ds : List Column}
    (h : cs.map Flags.cleared = ds.map Flags.cleared) :
    cs.map Column.core = ds.map Column.core := by
  have hcore := congrArg (List.map (Column.under fun _ => .null)) h
  rw [List.map_map, List.map_map] at hcore
  exact hcore

theorem map_name_of_core {cs ds : List Column} (h : cs.map Column.core = ds.map Column.core) :
    cs.map Column.name = ds.map Column.name := by
  have hname := congrArg (List.map Column.name) h
  rw [List.map_map, List.map_map] at hname
  exact hname

/-- Columns that say the same under the same identifiers differ in their marks only. -/
theorem map_cleared_of_core {cs ds : List Column} (hcore : cs.map Column.core = ds.map Column.core)
    (hids : cs.map Column.id = ds.map Column.id) :
    cs.map Flags.cleared = ds.map Flags.cleared := by
  have hsplit : ∀ cs : List Column, cs.map Flags.cleared =
      List.zipWith (fun c id => { c with id := id }) (cs.map Column.core) (cs.map Column.id) := by
    intro cs
    rw [List.zipWith_map, List.zipWith_self]
    rfl
  rw [hsplit, hcore, hids, ← hsplit]

namespace Edit.Merge

theorem takenColumns_core (existing declared : List Column) :
    (takenColumns existing declared).map Column.core = declared.map Column.core := by
  rw [takenColumns, map_mapIdx]
  exact List.ext_getElem (by simp) fun i _ _ => by simp [Column.core, Column.under]

/-- Declared columns of different names take over the identifiers of existing columns of the same
names, one by one. -/
theorem takenColumns_ids {existing declared : List Column}
    (hnames : existing.map Column.name = declared.map Column.name)
    (htext : ∀ c ∈ declared, ∃ s, c.name = .str s)
    (hdistinct : declared.Pairwise fun c d => c.name.sameName d.name = false) :
    (takenColumns existing declared).map Column.id = existing.map Column.id := by
  have hlength : existing.length = declared.length := by
    have hlengths := congrArg List.length hnames
    rwa [List.length_map, List.length_map] at hlengths
  have hname : ∀ i (hi : i < existing.length) (hd : i < declared.length),
      existing[i].name = declared[i].name := by
    intro i hi hd
    have hat := List.getElem_of_eq hnames (i := i) (by simpa using hi)
    rwa [List.getElem_map, List.getElem_map] at hat
  have hapart := List.pairwise_iff_getElem.1 hdistinct
  refine List.ext_getElem (by simp [takenColumns, hlength]) fun i hi hi' => ?_
  rw [List.length_map] at hi'
  have hd : i < declared.length := hlength ▸ hi'
  -- no column before the one at `i` has its name, and it is the existing one at `i` that has it
  have hearlier : (declared.take i).any (·.name.sameName declared[i].name) = false := by
    rw [List.any_eq_false]
    intro c hc
    obtain ⟨j, hj, rfl⟩ := List.mem_iff_getElem.1 hc
    rw [List.length_take] at hj
    rw [List.getElem_take, hapart j i (by omega) hd (by omega)]
    exact Bool.false_ne_true
  have hfind : existing.reverse.find? (·.name.sameName declared[i].name) = some existing[i] := by
    refine find?_eq_of_unique (List.mem_reverse.2 (List.getElem_mem hi')) ?_ fun c hc hsame => ?_
    · rw [hname i hi' hd]
      exact Value.sameName_self (htext _ (List.getElem_mem hd))
    · obtain ⟨j, hj, rfl⟩ := List.mem_iff_getElem.1 (List.mem_reverse.1 hc)
      have hj' : j < declared.length := hlength ▸ hj
      rw [hname j hj hj'] at hsame
      rcases Nat.lt_trichotomy j i with hlt | rfl | hgt
      · rw [hapart j i hj' hd hlt] at hsame
        contradiction
      · rfl
      · rw [Value.sameName_comm, hapart i j hd hj' hgt] at hsame
        contradiction
  simp only [takenColumns, List.getElem_map, List.getElem_mapIdx, takenId, prior?, hearlier, hfind,
    Bool.false_eq_true, if_false, Option.map_some, Option.getD_some]

theorem renameEnds_tableId (tableIds columnIds : Renaming) (r : Relation) (side : Side) :
    (renameEnds tableIds columnIds r).tableId side = renamed tableIds (r.tableId side) := by
  cases side <;> rfl

theorem renameEnds_columnId (tableIds columnIds : Renaming) (r : Relation) (side : Side) :
    (renameEnds tableIds columnIds r).columnId side = renamed columnIds (r.columnId side) := by
  cases side <;> rfl

/-! ## Two merges of one text -/

/-- What a text declares in two readings, of which the first is merged into a project, and the
second into what came of that.  The readings differ in their identifiers, and those of the second
are used nowhere. -/
structure Repeats (p : Project) (declared : List Table) (relations : List Relation) (q : Project)
    (ρ : Value → Value) (declared' : List Table) (relations' : List Relation) : Prop where
  result : merged p declared relations = q
  first : Mergeable p declared relations
  second : Mergeable q declared' relations'
  tables : declared'.map Table.bare = (declared.map (Table.under ρ)).map Table.bare
  ends : ∀ r' ∈ relations', ∃ r ∈ relations, ∀ side,
    r'.tableId side = ρ (r.tableId side) ∧ r'.columnId side = ρ (r.columnId side)
  declaredEnds : ∀ r ∈ relations, ∀ side, ∃ t ∈ declared, ∃ c ∈ t.columns,
    r.tableId side = t.id ∧ r.columnId side = c.id
  settled : ∀ t ∈ declared, ∀ c ∈ t.columns, c.IsSettled
  settled' : ∀ t ∈ declared', ∀ c ∈ t.columns, c.IsSettled
  distinct : ∀ d ∈ declared, lastNamed? declared d.name = some d →
    d.columns.Pairwise fun a b => a.name.sameName b.name = false
  unused : ∀ id ∈ references q.tables, ∀ d ∈ declared', d.id ≠ id ∧ id ∉ d.columnIds

/-- What tables have in common that are declared in the same place of a text. -/
structure Alike (ρ : Value → Value) (d e : Table) : Prop where
  id : e.id = ρ d.id
  name : e.name = d.name
  columnIds : e.columnIds = d.columnIds.map ρ
  columns : e.columns.map Column.core = d.columns.map Column.core

theorem Alike.of_bare {ρ : Value → Value} {d e : Table} (h : e.bare = (d.under ρ).bare) :
    Alike ρ d e := by
  have hid := congrArg Table.id h
  have hname := congrArg Table.name h
  have hcolumns := congrArg Table.columns h
  have hids := congrArg (List.map Column.id) hcolumns
  simp only [Table.bare, Table.under, List.map_map] at hcolumns hids
  refine ⟨hid, hname, ?_, ?_⟩
  · rw [Table.columnIds, Table.columnIds, List.map_map]
    exact hids
  · have hcore := congrArg (List.map (Column.under fun _ => .null)) hcolumns
    rw [List.map_map, List.map_map] at hcore
    exact hcore

namespace Repeats

variable {p q : Project} {declared declared' : List Table} {relations relations' : List Relation}
  {ρ : Value → Value} {d e t v : Table} {name : Value}

/-! ### Declarations of both readings -/

theorem exists_alike (h : Repeats p declared relations q ρ declared' relations')
    (hd : d ∈ declared) : ∃ e ∈ declared', Alike ρ d e := by
  have hbare : (d.under ρ).bare ∈ declared'.map Table.bare := by
    rw [h.tables]
    exact List.mem_map_of_mem (List.mem_map_of_mem hd)
  obtain ⟨e, he, heq⟩ := List.mem_map.1 hbare
  exact ⟨e, he, .of_bare heq⟩

/-- The last declarations of a name stand in the same place. -/
theorem first_of_second (h : Repeats p declared relations q ρ declared' relations')
    (he : lastNamed? declared' name = some e) :
    ∃ d, lastNamed? declared name = some d ∧ Alike ρ d e := by
  have hbare : ∀ t : Table, t.bare.name = t.name := fun _ => rfl
  have hunder : ∀ t : Table, (t.under ρ).name = t.name := fun _ => rfl
  have hboth : (lastNamed? declared' name).map Table.bare =
      ((lastNamed? declared name).map (Table.under ρ)).map Table.bare := by
    rw [← lastNamed?_map hbare, h.tables, lastNamed?_map hbare, lastNamed?_map hunder]
  rw [he, Option.map_some, Option.map_map] at hboth
  obtain ⟨d, hd, heq⟩ := Option.map_eq_some_iff.1 hboth.symm
  exact ⟨d, hd, .of_bare heq.symm⟩

/-- The table that a declaration of the first reading became. -/
theorem found (h : Repeats p declared relations q ρ declared' relations')
    (hd : lastNamed? declared d.name = some d) :
    lastNamed? q.tables d.name =
      some (decorate (finished p declared relations) (placed p.tables d)) := by
  rw [← h.result]
  exact lastNamed?_merged h.first hd

/-- A table of the first merge is left alone by the second, or is joined with the declaration in the
place of the one that it came from. -/
theorem mergedTable_cases (h : Repeats p declared relations q ρ declared' relations') (v : Table) :
    mergedTable q.tables declared' v = v ∨
      ∃ d e, lastNamed? declared d.name = some d ∧ lastNamed? declared' e.name = some e ∧
        Alike ρ d e ∧ v = decorate (finished p declared relations) (placed p.tables d) ∧
        mergedTable q.tables declared' v =
          { v with columns := takenColumns v.columns e.columns } := by
  by_cases hlast : lastNamed? q.tables v.name = some v
  · rw [mergedTable_of_last hlast]
    cases he : lastNamed? declared' v.name with
    | none => exact .inl rfl
    | some e =>
        obtain ⟨d, hd, halike⟩ := h.first_of_second he
        -- the name of `v` finds `v`, and it finds what the declaration of the name became
        have hdname := (lastNamed?_eq_some hd).2
        have hename := (lastNamed?_eq_some he).2
        rw [← lastNamed?_congr hdname] at hd hlast
        rw [← lastNamed?_congr hename] at he
        rw [h.found hd] at hlast
        refine .inr ⟨d, e, hd, he, halike, (Option.some.inj hlast).symm, ?_⟩
        rw [Option.map_some, Option.getD_some, join_eq]
  · exact .inl (mergedTable_of_not_last hlast)

/-! ### The tables without their marks -/

/-- The table that a declaration became has the columns that are declared again. -/
theorem columns_core (p : Project) (declared : List Table) (relations : List Relation)
    (halike : Alike ρ d e) :
    (decorate (finished p declared relations) (placed p.tables d)).columns.map Column.core =
      e.columns.map Column.core := by
  rw [map_core_of_cleared (columns_decorate p declared relations _), halike.columns, placed_columns,
    ← pairsOf_fst p.tables d, List.map_map, List.map_map]
  refine List.map_congr_left fun pair _ => ?_
  rw [Function.comp_apply, joinedColumn]
  cases pair.2 <;> rfl

/-- Each column that is declared again takes over the identifier of the column that it became. -/
theorem takenColumns_eq (h : Repeats p declared relations q ρ declared' relations')
    (hd : lastNamed? declared d.name = some d) (he : e ∈ declared') (halike : Alike ρ d e)
    (hv : v = decorate (finished p declared relations) (placed p.tables d)) :
    (takenColumns v.columns e.columns).map Flags.cleared = v.columns.map Flags.cleared ∧
      (takenColumns v.columns e.columns).map Column.id = v.columns.map Column.id := by
  have hcore : v.columns.map Column.core = e.columns.map Column.core := by
    rw [hv]
    exact columns_core p declared relations halike
  have hdistinct : e.columns.Pairwise fun a b => a.name.sameName b.name = false := by
    have hnames := map_name_of_core halike.columns
    have hpairwise := h.distinct d (lastNamed?_eq_some hd).1 hd
    rw [← List.pairwise_map (f := Column.name)
      (R := fun a b : Value => a.sameName b = false)] at hpairwise ⊢
    rwa [hnames]
  have htext : ∀ c ∈ e.columns, ∃ s, c.name = .str s :=
    fun c hc => ((h.second.declaredTyped e he).columns c hc).name
  have hids := takenColumns_ids (map_name_of_core hcore) htext hdistinct
  exact ⟨map_cleared_of_core ((takenColumns_core _ _).trans hcore.symm) hids, hids⟩

theorem mergedTable_bare (h : Repeats p declared relations q ρ declared' relations') (v : Table) :
    (mergedTable q.tables declared' v).bare = v.bare := by
  rcases h.mergedTable_cases v with heq | ⟨d, e, hd, he, halike, hv, heq⟩
  · rw [heq]
  · rw [heq, Table.bare, Table.bare]
    simp only [(h.takenColumns_eq hd (lastNamed?_eq_some he).1 halike hv).1]

/-- Nothing that is declared again is new. -/
theorem newDeclarations_eq (h : Repeats p declared relations q ρ declared' relations') :
    newDeclarations q.tables declared' = [] := by
  refine List.filter_eq_nil_iff.2 fun e _ hnew => ?_
  obtain ⟨he, hnone⟩ := of_decide_eq_true hnew
  obtain ⟨d, hd, -⟩ := h.first_of_second he
  have hname := (lastNamed?_eq_some hd).2
  rw [← lastNamed?_congr hname] at hd hnone
  rw [h.found hd] at hnone
  cases hnone

theorem joinedTables_eq_map (h : Repeats p declared relations q ρ declared' relations') :
    joinedTables q declared' = q.tables.map (mergedTable q.tables declared') := by
  rw [joinedTables_eq h.second.tables h.second.declarations, h.newDeclarations_eq,
    List.append_nil]

theorem shape_eq (h : Repeats p declared relations q ρ declared' relations') :
    (merged q declared' relations').tables.map Table.shape = q.tables.map Table.shape := by
  rw [merged_shape, h.joinedTables_eq_map, List.map_map]
  refine List.map_congr_left fun v _ => ?_
  have hshape : ∀ t : Table, t.shape = t.bare.shape := by
    intro t
    rw [Table.shape, Table.shape, Table.columnIds, Table.columnIds, Table.bare, List.map_map]
    rfl
  rw [Function.comp_apply, hshape, h.mergedTable_bare, ← hshape]

/-! ### The relations -/

/-- The renaming of the second reading keeps the declared tables apart. -/
theorem tableKeys (h : Repeats p declared relations q ρ declared' relations') :
    (declared.map fun t => (ρ t.id).canon).Nodup := by
  have hsame := congrArg (List.map fun t : Table => t.id.canon) h.tables
  simp only [List.map_map] at hsame
  have hagain := h.second.sound.tableIds_append.2.1
  rw [show declared'.map (fun t => t.id.canon) = declared.map fun t => (ρ t.id).canon from hsame]
    at hagain
  exact hagain

/-- A declaration of the second reading goes where the one in its place went. -/
theorem placed_again (h : Repeats p declared relations q ρ declared' relations')
    (hd : lastNamed? declared d.name = some d) (he : lastNamed? declared' e.name = some e)
    (halike : Alike ρ d e) :
    renamed (tableMoves q declared') (ρ d.id) = renamed (tableMoves p declared) d.id ∧
      ∀ id ∈ d.columnIds,
        renamed (columnMoves q declared') (ρ id) = renamed (columnMoves p declared) id := by
  have hfound := h.found hd
  rw [← halike.name] at hfound
  have htaken := (h.takenColumns_eq hd (lastNamed?_eq_some he).1 halike rfl).2
  have htable := tableMoves_placed h.second he
  have hcolumns := columnMoves_placed h.second he
  rw [placed, hfound] at htable hcolumns
  rw [← halike.id, htable, tableMoves_placed h.first hd]
  refine ⟨rfl, List.map_inj_left.1 ?_⟩
  have hids := (hcolumns.trans htaken).trans (columnIds_decorate p declared relations _)
  rw [halike.columnIds, List.map_map, ← columnMoves_placed h.first hd] at hids
  exact hids

/-- An end that is declared again goes where it went before, if there is a table for it. -/
theorem renamed_again (h : Repeats p declared relations q ρ declared' relations')
    (ht : t ∈ declared) {c : Column} (hc : c ∈ t.columns)
    (hfound : ∃ u ∈ q.tables, u.id.canon = (renamed (tableMoves q declared') (ρ t.id)).canon) :
    renamed (tableMoves q declared') (ρ t.id) = renamed (tableMoves p declared) t.id ∧
      renamed (columnMoves q declared') (ρ c.id) = renamed (columnMoves p declared) c.id := by
  obtain ⟨e, he, halike⟩ := h.exists_alike ht
  by_cases hlast : lastNamed? declared' e.name = some e
  · obtain ⟨d, hd, hother⟩ := h.first_of_second hlast
    have hsame : d = t := by
      refine List.inj_on_of_nodup_map h.tableKeys (lastNamed?_eq_some hd).1 ht ?_
      rw [← hother.id, ← halike.id]
    rw [hsame, halike.name] at hd
    have hplaced := h.placed_again hd hlast halike
    exact ⟨hplaced.1, hplaced.2 c.id (List.mem_map_of_mem hc)⟩
  · -- a superseded declaration keeps its new identifier, which no table of the project has
    obtain ⟨u, hu, hid⟩ := hfound
    rw [← halike.id, tableMoves_superseded h.second he hlast] at hid
    exact absurd hid (h.second.sound.tableIds_append.2.2 u hu e he)

/-- A relation that is declared again and resolves after the second merge has the ends that the one
in its place got from the first. -/
theorem ends_again (h : Repeats p declared relations q ρ declared' relations') {r r' : Relation}
    (hr : r ∈ relations)
    (hends : ∀ side, r'.tableId side = ρ (r.tableId side) ∧ r'.columnId side = ρ (r.columnId side))
    (hresolves : (renameEnds (tableMoves q declared') (columnMoves q declared') r').resolvesIn
      q.tables = true) (side : Side) :
    (renameEnds (tableMoves q declared') (columnMoves q declared') r').tableId side =
        (renameEnds (tableMoves p declared) (columnMoves p declared) r).tableId side ∧
      (renameEnds (tableMoves q declared') (columnMoves q declared') r').columnId side =
        (renameEnds (tableMoves p declared) (columnMoves p declared) r).columnId side := by
  obtain ⟨t, ht, c, hc, htable, hcolumn⟩ := h.declaredEnds r hr side
  obtain ⟨u, hu, hid, -⟩ := Relation.hasColumn_of_resolvesIn hresolves side
  have hside := hends side
  rw [htable, hcolumn] at hside
  simp only [renameEnds_tableId, renameEnds_columnId, hside, htable, hcolumn] at hid ⊢
  exact h.renamed_again ht hc ⟨u, hu, hid⟩

/-- The second merge joins nothing that is not joined already. -/
theorem relations_eq (h : Repeats p declared relations q ρ declared' relations') :
    (merged q declared' relations').relations = q.relations := by
  have hfirst := merged_relations_eq p declared relations
  rw [h.result] at hfirst
  have hresolves : ∀ r : Relation,
      r.resolvesIn (merged q declared' relations').tables = r.resolvesIn q.tables :=
    Relation.resolvesIn_congr_shape h.shape_eq
  have hkept : q.relations.filter (·.resolvesIn q.tables) = q.relations := by
    refine List.filter_eq_self.2 fun r hr => ?_
    rw [hfirst] at hr
    rcases List.mem_append.1 hr with hr | hr
    · exact (List.mem_filter.1 hr).2
    · exact (List.mem_filter.1 (mem_newEnds hr)).2
  rw [merged_relations_eq]
  simp only [hresolves]
  rw [hkept, newEnds_eq_nil, List.append_nil]
  -- a relation that is declared again joins what the first merge made the one in its place join
  intro s hs
  obtain ⟨hs, hsresolves⟩ := List.mem_filter.1 hs
  obtain ⟨r', hr', rfl⟩ := List.mem_map.1 hs
  obtain ⟨r, hr, hends⟩ := h.ends r' hr'
  obtain ⟨hsameEnds, hsameResolves⟩ := Relation.ends_congr (h.ends_again hr hends hsresolves)
  simp only [hsameEnds]
  rw [hfirst]
  refine newEnds_covers (List.mem_filter.2 ⟨List.mem_map_of_mem hr, ?_⟩)
  rw [← hsameResolves]
  exact hsresolves

/-! ### The tables -/

/-- What refers to nothing of the second reading is not renamed. -/
theorem renameReference_eq (h : Repeats p declared relations q ρ declared' relations') {c : Column}
    (hv : v ∈ q.tables) (hc : c ∈ v.columns) :
    renameReference (tableMoves q declared') (columnMoves q declared') c = c := by
  have hreference : ∀ id ∈ [c.referencesTableId, c.referencesColumnId], id ∈ references q.tables :=
    fun id hid => List.mem_flatMap.2 ⟨v, hv, List.mem_flatMap.2 ⟨c, hc, hid⟩⟩
  have htable : renamed (tableMoves q declared') c.referencesTableId = c.referencesTableId := by
    refine tableMoves_other h.second.declaredTyped fun d hd => ?_
    exact (h.unused _ (hreference _ List.mem_cons_self) d (mem_lastDeclarations hd)).1
  have hcolumn : renamed (columnMoves q declared') c.referencesColumnId = c.referencesColumnId := by
    refine columnMoves_other h.second.declaredTyped fun d hd => ?_
    exact (h.unused _ (hreference _ (List.mem_cons_of_mem _ List.mem_cons_self)) d
      (mem_lastDeclarations hd)).2
  rw [renameReference, htable, hcolumn]

/-- A table that is not declared again keeps its marks. -/
theorem decorate_finished (h : Repeats p declared relations q ρ declared' relations')
    (hv : v ∈ q.tables) : decorate (finished q declared' relations') v = v := by
  have hcolumns : v.columns.map (finished q declared' relations' v.id) = v.columns.map id := by
    refine List.map_congr_left fun c hc => ?_
    rw [finished, h.renameReference_eq hv hc, h.relations_eq]
    -- what is left is to synchronise, which the first merge did last
    rw [← h.result, merged_tables] at hv
    obtain ⟨u, -, rfl⟩ := List.mem_map.1 hv
    obtain ⟨d, -, rfl⟩ := List.mem_map.1 hc
    rw [finished, ← h.result]
    exact Flags.synced_synced (merged_textTargets h.first.typed h.first.declaredTyped) u.id _
  rw [decorate, hcolumns, List.map_id]

/-- The second merge leaves the tables as they are. -/
theorem tables_eq (h : Repeats p declared relations q ρ declared' relations') :
    (merged q declared' relations').tables = q.tables := by
  have hsame : ∀ v ∈ q.tables,
      decorate (finished q declared' relations') (mergedTable q.tables declared' v) = v := by
    intro v hv
    rcases h.mergedTable_cases v with heq | ⟨d, e, hd, he, halike, hplaced, heq⟩
    · rw [heq]
      exact h.decorate_finished hv
    · have hdmem := (lastNamed?_eq_some hd).1
      have hemem := (lastNamed?_eq_some he).1
      -- both merges mark the same columns by the same relations
      have hcolumns : (takenColumns v.columns e.columns).map
          (finished q declared' relations' v.id) = v.columns := by
        have hcleared : v.columns.map Flags.cleared =
            (placed p.tables d).columns.map Flags.cleared := by
          rw [hplaced, columns_decorate]
        rw [map_finished_of_settled h.second (takenColumns_isSettled (h.settled' e hemem)),
          (h.takenColumns_eq hd hemem halike hplaced).1, hcleared, h.relations_eq, ← h.result,
          ← map_finished_of_settled h.first (placed_isSettled (h.settled d hdmem)), hplaced]
        rfl
      rw [heq, decorate]
      simp only [hcolumns]
  rw [merged_tables, h.joinedTables_eq_map, List.map_map]
  exact (List.map_congr_left hsame).trans (List.map_id' q.tables)

/-- Merging the same text again changes nothing. -/
theorem merged_eq (h : Repeats p declared relations q ρ declared' relations') :
    merged q declared' relations' = q := by
  have hparts : merged q declared' relations' =
      { q with
        tables := (merged q declared' relations').tables
        relations := (merged q declared' relations').relations } := rfl
  rw [hparts, h.tables_eq, h.relations_eq]

end Repeats

end Edit.Merge

end SchemaDesk

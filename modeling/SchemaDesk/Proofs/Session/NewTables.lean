import SchemaDesk.Proofs.Session.Again

/-!
# Importing and applying agree on new tables

A text can be imported, which puts its tables and relations behind those of the project, or it can
be applied, which joins tables by their names, renames identifiers, filters the relations and brings
all marks in line.  For tables of new names the second comes to the first.  Nothing is joined
(`joined_of_new`), so nothing is renamed; both ends of every relation are there, so none is dropped;
and what is left is that bringing the marks in line changes none of them.

For this the marks of the project have to be in line before (`Column.InLine`).  Those of the
declared tables always are (`Sql.parse_inLine`), and neither side's relations start at tables of the
other, so they stay in line side by side.
-/

namespace SchemaDesk

open Flags (lastFrom?)
open Minting

/-- A column that says of foreign keys what some relations dictate: it is flagged if one of them
starts at it, and then it refers to the target of the last one that does.  What a column that is not
flagged refers to makes no difference, but it has to be something that can be looked up. -/
structure Column.InLine (relations : List Relation) (t : Value) (c : Column) : Prop where
  flag : c.isForeignKey.isTruthy = (lastFrom? relations t c.id).isSome
  hint : ∀ r ∈ lastFrom? relations t c.id,
    c.referencesTableId.equals r.targetTableId = true ∧
      c.referencesColumnId.equals r.targetColumnId = true
  keys : c.referencesTableId.isKey = true ∧ c.referencesColumnId.isKey = true

instance (relations : List Relation) (t : Value) (c : Column) : Decidable (c.InLine relations t) :=
  decidable_of_iff
    (c.isForeignKey.isTruthy = (lastFrom? relations t c.id).isSome ∧
      (∀ r ∈ lastFrom? relations t c.id,
        c.referencesTableId.equals r.targetTableId = true ∧
          c.referencesColumnId.equals r.targetColumnId = true) ∧
      c.referencesTableId.isKey = true ∧ c.referencesColumnId.isKey = true)
    ⟨fun h => ⟨h.1, h.2.1, h.2.2⟩, fun h => ⟨h.flag, h.hint, h.keys⟩⟩

section InLine

variable {relations relations' : List Relation} {t : Value} {c : Column}

/-- Bringing the marks in line leaves a column alone that is in line. -/
theorem Column.InLine.synced (h : c.InLine relations t) : Flags.synced relations t c = c := by
  have hflag := h.flag
  cases hlast : lastFrom? relations t c.id with
  | some r =>
      obtain ⟨htable, hcolumn⟩ := h.hint r hlast
      rw [hlast, Option.isSome_some] at hflag
      rw [Flags.synced_of_some hlast, Flags.flagged, hflag, htable, hcolumn]
      rfl
  | none =>
      rw [hlast, Option.isSome_none] at hflag
      rw [Flags.synced_of_none hlast, hflag, if_neg Bool.false_ne_true]

/-- All that counts of the relations is the last one that starts at the column. -/
theorem Column.InLine.congr (h : c.InLine relations t)
    (hlast : lastFrom? relations' t c.id = lastFrom? relations t c.id) :
    c.InLine relations' t := by
  constructor
  · rw [hlast]
    exact h.flag
  · rw [hlast]
    exact h.hint
  · exact h.keys

/-- Relations that start at other columns may come behind. -/
theorem Column.InLine.append_right (h : c.InLine relations t)
    (hapart : ∀ r ∈ relations', ∀ c, r.startsAt t c = false) :
    c.InLine (relations ++ relations') t := by
  apply h.congr
  rw [Flags.lastFrom?_append, Flags.lastFrom?_eq_none.2 fun r hr => hapart r hr c.id,
    Option.none_or]

/-- Relations that start at other columns may stand in front. -/
theorem Column.InLine.append_left (h : c.InLine relations' t)
    (hapart : ∀ r ∈ relations, ∀ c, r.startsAt t c = false) :
    c.InLine (relations ++ relations') t := by
  apply h.congr
  rw [Flags.lastFrom?_append, Flags.lastFrom?_eq_none.2 fun r hr => hapart r hr c.id,
    Option.or_none]

end InLine

/-- What a text declares is in line. -/
theorem Sql.parse_inLine {sql : Text} {parsed : Parsed} {ids ids' : IdSupply}
    (h : (Sql.parse sql).Gives ids parsed ids') :
    ∀ t ∈ parsed.tables, ∀ c ∈ t.columns, c.InLine parsed.relations t.id := by
  have hdeclares := Sql.parse_declares h
  obtain ⟨built, mid, hbuilt, -, -, htables⟩ := Sql.parse_links h
  intro t ht c hc
  have hkeys := (hdeclares.hints t ht c hc).imp Value.IsOptionalText.isKey
    Value.IsOptionalText.isKey
  rw [htables] at ht
  obtain ⟨u, hu, rfl⟩ := List.mem_map.1 ht
  obtain ⟨v, hv, rfl⟩ := List.mem_map.1 hu
  obtain ⟨d, hd, rfl⟩ := List.mem_map.1 hc
  have hdeclared := Sql.buildAll_declared hbuilt v hv d hd
  refine ⟨?_, ?_, hkeys⟩ <;> rw [Flags.hinted_id]
  -- the mark that the reading left is that of the last relation
  · show _ = (lastFrom? parsed.relations v.table.id d.id).isSome
    rw [Flags.hinted]
    cases lastFrom? parsed.relations v.table.id d.id with
    | some r => rfl
    | none =>
        rw [hdeclared.flag]
        rfl
  · intro r (hr : lastFrom? parsed.relations v.table.id d.id = some r)
    obtain ⟨u, hu, e, he, htable, hcolumn⟩ :=
      hdeclares.end_mem (Flags.lastFrom?_eq_some hr).1 .target
    obtain ⟨i, hi⟩ := hdeclares.tableId hu
    obtain ⟨j, hj⟩ := hdeclares.columnId hu (List.mem_map_of_mem he)
    simp only [Relation.tableId, Relation.columnId, hi, hj] at htable hcolumn
    rw [Flags.hinted, hr]
    simp [htable, hcolumn]

namespace Edit.Merge

/-! ## Nothing to join -/

section New

variable {tables declared : List Table}

/-- Of tables with different names each declaration counts. -/
theorem lastDeclarations_of_distinct
    (h : declared.Pairwise fun d e => d.name.sameName e.name = false) :
    lastDeclarations declared = declared := by
  induction declared with
  | nil => rfl
  | cons d declared ih =>
      rw [List.pairwise_cons] at h
      have hagain : declared.any (·.name.sameName d.name) = false := by
        rw [List.any_eq_false]
        intro e he
        rw [Value.sameName_comm, h.1 e he]
        exact Bool.false_ne_true
      rw [lastDeclarations, hagain, if_neg Bool.false_ne_true, ih h.2]

theorem joinAll_of_new (h : ∀ d ∈ declared, ∀ t ∈ tables, t.name.sameName d.name = false) :
    joinAll declared tables = tables := by
  induction tables with
  | nil => rfl
  | cons t tables ih =>
      have hnone : declared.find? (·.name.sameName t.name) = none := by
        rw [List.find?_eq_none]
        intro d hd
        rw [Value.sameName_comm, h d hd t List.mem_cons_self]
        exact Bool.false_ne_true
      rw [joinAll, ih fun d hd u hu => h d hd u (List.mem_cons_of_mem _ hu), hnone]
      simp

theorem partner?_of_new (h : ∀ d ∈ declared, ∀ t ∈ tables, t.name.sameName d.name = false)
    {d : Table} (hd : d ∈ declared) : partner? tables d = none :=
  lastNamed?_eq_none.2 (h d hd)

/-- Declarations of new names are joined with nothing: they are added, and nothing is renamed. -/
theorem joined_of_new (h : ∀ d ∈ declared, ∀ t ∈ tables, t.name.sameName d.name = false) :
    joined declared tables = { tables := tables ++ declared, tableIds := [], columnIds := [] } := by
  have hnew : newTables declared tables = declared := by
    refine List.filter_eq_self.2 fun d hd => ?_
    rw [← lastNamed?_isSome, lastNamed?_eq_none.2 (h d hd)]
    rfl
  have htables : tableIds declared tables = [] := by
    refine List.filterMap_eq_nil_iff.2 fun d hd => ?_
    rw [partner?_of_new h hd]
    rfl
  have hcolumns : columnIds declared tables = [] := by
    refine List.flatMap_eq_nil_iff.2 fun d hd => ?_
    rw [columnIdsOf, partner?_of_new h hd]
  rw [joined, joinAll_of_new h, hnew, htables, hcolumns]

end New

/-! ## Merging is appending -/

/-- Declared tables of new names, with relations between them that all join different columns, which
can be put beside a project that is in line. -/
structure Beside (p : Project) (declared : List Table) (relations : List Relation) : Prop where
  sound : Sound (p.tables ++ declared) (p.relations ++ relations)
  ownEnds : Sound p.tables p.relations ∧ Sound declared relations
  names : ∀ t ∈ declared ++ p.tables, ∃ s, t.name = .str s
  distinct : declared.Pairwise fun d e => d.name.sameName e.name = false
  new : ∀ d ∈ declared, ∀ t ∈ p.tables, t.name.sameName d.name = false
  ends : relations.Pairwise fun r s => r.sameEnds s = false
  inLine : ∀ t ∈ p.tables, ∀ c ∈ t.columns, c.InLine p.relations t.id
  declaredInLine : ∀ t ∈ declared, ∀ c ∈ t.columns, c.InLine relations t.id

namespace Beside

variable {p : Project} {declared : List Table} {relations : List Relation}

/-- Put side by side, both sides are in line, because no relation starts on the other side. -/
theorem allInLine (h : Beside p declared relations) :
    ∀ t ∈ p.tables ++ declared, ∀ c ∈ t.columns, c.InLine (p.relations ++ relations) t.id := by
  obtain ⟨-, -, hdiffer⟩ := h.sound.tableIds_append
  intro t ht c hc
  rcases List.mem_append.1 ht with ht | ht
  · apply (h.inLine t ht c hc).append_right
    exact startsAt_of_apart hdiffer h.ownEnds.2.ends t ht
  · apply (h.declaredInLine t ht c hc).append_left
    exact startsAt_of_apart (fun t ht u hu heq => hdiffer u hu t ht heq.symm) h.ownEnds.1.ends t ht

/-- A relation of the project joins other columns than a declared one. -/
theorem sameEnds_eq_false (h : Beside p declared relations) :
    ∀ r ∈ p.relations, ∀ s ∈ relations, r.sameEnds s = false := by
  obtain ⟨-, -, hdiffer⟩ := h.sound.tableIds_append
  intro r hr s hs
  rw [← Bool.not_eq_true, Relation.sameEnds, Bool.and_eq_true, Relation.startsAt_iff]
  rintro ⟨⟨htable, -⟩, -⟩
  obtain ⟨t, ht, hid, -⟩ := h.ownEnds.1.ends r hr .source
  obtain ⟨u, hu, huid, -⟩ := h.ownEnds.2.ends s hs .source
  exact hdiffer t ht u hu ((hid.trans htable).trans huid.symm)

theorem lastDeclarations_eq (h : Beside p declared relations) :
    lastDeclarations declared = declared :=
  lastDeclarations_of_distinct h.distinct

theorem joinedTables_eq (h : Beside p declared relations) :
    joinedTables p declared = p.tables ++ declared := by
  have hjoined := congrArg Joined.tables (joined_of_new h.new)
  rw [joinedTables, h.lastDeclarations_eq]
  exact hjoined

theorem check_eq_ok (h : Beside p declared relations) : check p declared relations = .ok () := by
  apply check_of_parts h.names _ _ h.ownEnds.1 h.ownEnds.2
  · intro d hd
    rw [h.lastDeclarations_eq] at hd
    rw [checkJoin, partner?_of_new h.new hd]
  · intro id hid
    rw [h.joinedTables_eq] at hid
    obtain ⟨t, ht, hid⟩ := List.mem_flatMap.1 hid
    obtain ⟨c, hc, hid⟩ := List.mem_flatMap.1 hid
    obtain ⟨htable, hcolumn⟩ := (h.allInLine t ht c hc).keys
    rcases List.mem_cons.1 hid with rfl | hid
    · exact htable
    · rw [List.mem_singleton.1 hid]
      exact hcolumn

/-- The merged project is the one with everything put side by side. -/
theorem merged_eq (h : Beside p declared relations) :
    merged p declared relations =
      { p with tables := p.tables ++ declared, relations := p.relations ++ relations } := by
  -- renaming nothing changes neither columns nor relations
  have htables : (p.tables ++ declared).map (fun t =>
      { t with columns := t.columns.map (renameReference [] []) }) = p.tables ++ declared := by
    have hcolumn : renameReference [] [] = id := rfl
    simp [hcolumn]
  have hrenamed : relations.map (renameEnds [] []) = relations := List.map_id' relations
  have hkept : p.relations.filter (·.resolvesIn (p.tables ++ declared)) = p.relations :=
    List.filter_eq_self.2 fun r hr => h.sound.resolvesIn (List.mem_append_left _ hr)
  have hadded : relations.filter (·.resolvesIn (p.tables ++ declared)) = relations :=
    List.filter_eq_self.2 fun r hr => h.sound.resolvesIn (List.mem_append_right _ hr)
  have hsync : Flags.sync (p.relations ++ relations) (p.tables ++ declared) =
      p.tables ++ declared := by
    rw [Flags.sync_eq_mapColumns, Flags.mapColumns_eq]
    refine (List.map_congr_left fun t ht => ?_).trans (List.map_id' _)
    have hcolumns : t.columns.map (Flags.synced (p.relations ++ relations) t.id) = t.columns :=
      (List.map_congr_left fun c hc => (h.allInLine t ht c hc).synced).trans (List.map_id' _)
    rw [decorate, hcolumns]
  rw [merged, h.lastDeclarations_eq, joined_of_new h.new, Joined.into]
  simp only [htables, hrenamed, hkept]
  rw [foldl_addRelation_eq, hadded, newEnds_eq_self h.sameEnds_eq_false h.ends, hsync]

end Beside

end Edit.Merge

/-! ## Importing and applying -/

/-- What a text declares under new names and identifiers can be put beside a project in line. -/
theorem Sql.parse_beside {p : Project} {sql : Text} {parsed : Parsed} {ids ids' : IdSupply}
    (h : (Sql.parse sql).Gives ids parsed ids') (hp : p.IsSound)
    (hnames : ∀ t ∈ p.tables, t.name.isText = true)
    (hline : ∀ t ∈ p.tables, ∀ c ∈ t.columns, c.InLine p.relations t.id)
    (hfresh : ids.FreshFor ids' p.snapshot)
    (hdistinct : parsed.tables.Pairwise fun d e => d.name.sameName e.name = false)
    (hnew : ∀ d ∈ parsed.tables, ∀ t ∈ p.tables, t.name.sameName d.name = false)
    (hends : parsed.relations.Pairwise fun r s => r.sameEnds s = false) :
    Edit.Merge.Beside p parsed.tables parsed.relations := by
  have hdeclares := Sql.parse_declares h
  refine ⟨hdeclares.beside hp hfresh, ⟨hp, hdeclares.sound⟩, ?_, hdistinct, hnew, hends, hline,
    Sql.parse_inLine h⟩
  intro t ht
  rcases List.mem_append.1 ht with ht | ht
  · exact hdeclares.tableNames t ht
  · exact Value.isText_iff.1 (hnames t ht)

namespace Designer

variable {p q : Project} {sql : Text} {parsed : Parsed} {ids ids' : IdSupply}

/-- Importing a text that can be read and whose tables can be appended. -/
theorem importEdit_of_parse (hparse : (Sql.parse sql).Gives ids parsed ids')
    (htables : parsed.tables ≠ []) (hempty : parsed.emptyTables = [])
    (happend : (Edit.append parsed.tables parsed.relations p).Gives ids' ((), some q) ids') :
    (importEdit sql p).Gives ids (parsed, some q) ids' := by
  obtain ⟨hsound, hnext, -⟩ := Edit.append_gives.1 happend
  have hfound : parsed.foundStatements = true := by
    simp [Parsed.foundStatements, htables]
  exact importEdit_gives_iff.2 ⟨hparse, ⟨hfound, hempty⟩, hsound, hnext⟩

/-- Edits that give the same have the same effect. -/
theorem perform_congr {α : Type} {d : Designer} {edit edit' : Edit α} {a : α}
    {next : Option Project} (h : (edit d.store.project).Gives d.store.ids (a, next) ids')
    (h' : (edit' d.store.project).Gives d.store.ids (a, next) ids') :
    d.perform edit = d.perform edit' := by
  have hrun : (edit d.store.project).runFrom d.store.ids =
      (edit' d.store.project).runFrom d.store.ids := h.trans h'.symm
  simp only [perform, Store.perform, hrun]

end Designer

/-- Appending what a text declares and merging it both succeed and give the same project, if the
declared tables have new names, different from each other, and no two declared relations join the
same columns, and if the project is in line.  So a designer that imports the text and one that
applies it end up the same. -/
theorem append_declared_eq_merge {p : Project} {sql : Text} {parsed : Parsed} {ids ids' : IdSupply}
    (hp : p.checkIntegrity = .ok ()) (hnames : ∀ t ∈ p.tables, t.name.isText = true)
    (hline : ∀ t ∈ p.tables, ∀ c ∈ t.columns, c.InLine p.relations t.id)
    (hparse : (Sql.parse sql).Gives ids parsed ids') (hfresh : ids.FreshFor ids' p.snapshot)
    (htables : parsed.tables ≠ []) (hempty : parsed.emptyTables = [])
    (hdistinct : parsed.tables.Pairwise fun d e => d.name.sameName e.name = false)
    (hnew : ∀ d ∈ parsed.tables, ∀ t ∈ p.tables, t.name.sameName d.name = false)
    (hends : parsed.relations.Pairwise fun r s => r.sameEnds s = false) :
    ∃ q, (∀ later, (Edit.append parsed.tables parsed.relations p).Gives later ((), some q) later) ∧
      (∀ later, (Edit.merge parsed.tables parsed.relations p).Gives later ((), some q) later) ∧
      q = { p with
        tables := p.tables ++ parsed.tables, relations := p.relations ++ parsed.relations } ∧
      ∀ d : Designer, d.store.project = p → d.store.ids = ids →
        d.importSql sql = d.applySql sql ∧ (d.importSql sql).designer.store.project = q := by
  have hsound := checkIntegrity_eq_ok_iff.1 hp
  have hbeside := Sql.parse_beside hparse hsound hnames hline hfresh hdistinct hnew hends
  have hmerged := hbeside.merged_eq
  have happend : ∀ later, (Edit.append parsed.tables parsed.relations p).Gives later
      ((), some (Edit.Merge.merged p parsed.tables parsed.relations)) later := by
    intro later
    rw [hmerged]
    exact Edit.append_gives.2 ⟨hbeside.sound, rfl, rfl⟩
  have hmerge : ∀ later, (Edit.merge parsed.tables parsed.relations p).Gives later
      ((), some (Edit.Merge.merged p parsed.tables parsed.relations)) later := fun later =>
    Edit.merge_gives.2
      ⟨hbeside.check_eq_ok, Edit.Merge.merged_sound hbeside.sound, rfl, rfl⟩
  refine ⟨Edit.Merge.merged p parsed.tables parsed.relations, happend, hmerge, hmerged, ?_⟩
  rintro d rfl rfl
  have himport := Designer.importEdit_of_parse hparse htables hempty (happend ids')
  have happly := Designer.applyEdit_of_parse hparse (hmerge ids')
  rw [List.isEmpty_eq_false_iff.2 htables] at happly
  exact ⟨Designer.perform_congr himport happly, (Designer.perform_gives himport).1⟩

/-- A project with two relations that start at the same column, which refers to the target of the
second one, and with names that a text can repeat in other words only. -/
def twiceLinked : Project :=
  { id := "p", tables :=
      [{ id := "t1", name := "users", columns := [{ id := "c1", name := "id" }] },
        { id := "t2", name := "orders", columns :=
          [{ id := "c2", name := "id" },
            { id := "c3", name := "user", isForeignKey := true, referencesTableId := "t2",
              referencesColumnId := "c2" }] }],
    relations :=
      [{ id := "r1", sourceTableId := "t2", sourceColumnId := "c3", targetTableId := "t1",
         targetColumnId := "c1" },
        { id := "r2", sourceTableId := "t2", sourceColumnId := "c3", targetTableId := "t2",
          targetColumnId := "c2" }] }

/-- A text with two keys of one column, one of which refers to a table that is declared later. -/
def unrelatedDeclarations : Text :=
  "CREATE TABLE visits (id INT PRIMARY KEY, prior INT REFERENCES visits); " ++
    "CREATE TABLE pages (no INT PRIMARY KEY, site VARCHAR(40)); " ++
    "ALTER TABLE Visits ADD FOREIGN KEY (prior) REFERENCES PAGES ON DELETE CASCADE;"

/-- A designer with this project does the same with this text in both ways. -/
theorem append_declared_eq_merge_twice :
    ∃ parsed, (Sql.parse unrelatedDeclarations).Gives ⟨21⟩ parsed ⟨29⟩ ∧
      ∃ q, (∀ later, (Edit.append parsed.tables parsed.relations twiceLinked).Gives later
          ((), some q) later) ∧
        (∀ later, (Edit.merge parsed.tables parsed.relations twiceLinked).Gives later
          ((), some q) later) ∧
        q = { twiceLinked with
          tables := twiceLinked.tables ++ parsed.tables
          relations := twiceLinked.relations ++ parsed.relations } ∧
        ∃ d : Designer, d.IsReachable ∧ d.store.project = twiceLinked ∧
          d.importSql unrelatedDeclarations = d.applySql unrelatedDeclarations ∧
          (d.importSql unrelatedDeclarations).designer.store.project = q := by
  have hcheck : ((Sql.parse unrelatedDeclarations).runFrom ⟨21⟩).1.toOption.any (fun parsed =>
      decide (parsed.tables ≠ [] ∧ parsed.emptyTables = [] ∧
        (parsed.tables.Pairwise fun d e => d.name.sameName e.name = false) ∧
        (∀ d ∈ parsed.tables, ∀ t ∈ twiceLinked.tables, t.name.sameName d.name = false) ∧
        parsed.relations.Pairwise fun r s => r.sameEnds s = false)) = true ∧
          ((Sql.parse unrelatedDeclarations).runFrom ⟨21⟩).2 = ⟨29⟩ := by
    rw [unrelatedDeclarations]
    repeat rw [Text.ofString_ofList]
    decide +kernel
  obtain ⟨parsed, hparse, hcheck⟩ := Minting.gives_of_any hcheck.1 hcheck.2
  obtain ⟨htables, hempty, hdistinct, hnew, hends⟩ := of_decide_eq_true hcheck
  obtain ⟨q, happend, hmerge, hq, hdesigner⟩ := append_declared_eq_merge (p := twiceLinked)
    (by decide +kernel) (by decide +kernel) (by decide +kernel) hparse (by decide +kernel) htables
    hempty hdistinct hnew hends
  have start := @Designer.IsReachable.start {} ⟨20⟩ _ rfl
  have loaded := start.step (.execute (.load twiceLinked))
  exact ⟨parsed, hparse, q, happend, hmerge, hq, _, loaded, by decide +kernel,
    hdesigner _ (by decide +kernel) (by decide +kernel)⟩

end SchemaDesk

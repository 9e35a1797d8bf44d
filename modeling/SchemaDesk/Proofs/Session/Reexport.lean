import SchemaDesk.Proofs.Edit.Merge
import SchemaDesk.Proofs.Edit.Outcome
import SchemaDesk.Proofs.Sql.Exportable
import SchemaDesk.Proofs.Sql.RoundTrip
import SchemaDesk.Proofs.Sql.Written
import SchemaDesk.Store

/-!
# Exporting what was imported

A text that is imported into a new project and exported again is written in the way of this editor.
From then on it stays as it is: importing and exporting it once more changes the time of writing and
the names of the constraints only (`import_export_stable`).

Two facts make this so.  What is read can be written and read back (`Sql.parse_exportable`), so both
exports succeed and both are read back whole.  And what a text keeps of a column is all that is
written of it: the statement of a table does not change when the table is read back
(`Sql.createTable_readBack`), and that of a relation changes in the name of its constraint
(`Sql.alterTables_readBack`).
-/

namespace SchemaDesk

namespace Sql

/-! ## Tables that were read back -/

section Tables

variable {c d : Column} {t u : Table}

/-- A type is written from what the column keeps of its size, precision, scale and members. -/
theorem knownType_kept {type : DataType} (hsize : d.size = (type.kept c).size)
    (hprecision : d.precision = (type.kept c).precision) (hscale : d.scale = (type.kept c).scale)
    (hmembers : d.enumValues = (type.kept c).enumValues) : knownType type d = knownType type c := by
  cases type with
  | varchar | char | binary =>
      rw [DataType.kept] at hsize
      rw [knownType, knownType, hsize]
      by_cases htruthy : c.size.isTruthy = true
      · simp only [htruthy, if_true]
      · -- without a size the default one is kept, or none
        rw [if_neg htruthy, if_neg htruthy]
        rfl
  | decimal | float =>
      rw [DataType.kept] at hprecision hscale
      rw [knownType, knownType, hprecision, hscale]
      by_cases htruthy : c.precision.isTruthy = true
      · simp only [htruthy, if_true]
      · -- a scale without a precision is not kept, and it is not written either
        simp only [if_neg htruthy]
        rfl
  | enum | set =>
      rw [DataType.kept] at hmembers
      rw [knownType, knownType, hmembers]
      by_cases htruthy : c.enumValues.isTruthy = true
      · simp only [htruthy, if_true]
      · rw [if_neg htruthy, if_neg htruthy]
        rfl
  | _ => rfl

theorem columnType_readBack (h : c.ReadBack d) : columnType d = columnType c := by
  have htype : d.type = c.type := by
    rw [h]
    rfl
  rw [columnType, columnType, h.name, htype]
  split
  · cases hs : c.type with
    | str s =>
        cases htype : DataType.ofName? s with
        | none => simp only [htype]
        | some type =>
            have hkept : c.kept = type.kept c := by simp only [Column.kept, hs, htype]
            simp only [htype]
            apply knownType_kept <;>
            · rw [h, ← hkept]
              rfl
    | _ => rfl
  · rfl

/-- The flags of a column that was read back say the same, but that a key column is not unique
too. -/
theorem flags_readBack (h : c.ReadBack d) :
    d.isPrimaryKey.isTruthy = c.isPrimaryKey.isTruthy ∧
      d.isNullable.isTruthy = c.isNullable.isTruthy ∧
      d.isUnique.isTruthy = (c.isUnique.isTruthy && !c.isPrimaryKey.isTruthy) := by
  rw [h]
  exact ⟨Bool.and_true _, rfl, rfl⟩

theorem columnDefinition_readBack (h : c.ReadBack d) (database : Value) (inlineKey : Bool) :
    columnDefinition d database inlineKey = columnDefinition c database inlineKey := by
  obtain ⟨hkey, hnull, hunique⟩ := flags_readBack h
  have hagain : (c.isUnique.isTruthy && !c.isPrimaryKey.isTruthy && !c.isPrimaryKey.isTruthy) =
      (c.isUnique.isTruthy && !c.isPrimaryKey.isTruthy) := by
    rw [Bool.and_assoc, Bool.and_self]
  simp only [columnDefinition, columnType_readBack h, h.name, hkey, hnull, hunique, hagain]

theorem keyColumns_readBack (h : t.ReadBack u) :
    List.Forall₂ Column.ReadBack (keyColumns t) (keyColumns u) := by
  refine List.rel_filter (fun c d hcolumn => ?_) h.columns
  show c.isPrimaryKey.isTruthy = true ↔ d.isPrimaryKey.isTruthy = true
  rw [(flags_readBack hcolumn).1]

/-- A table that was read back is written as the same statement. -/
theorem createTable_readBack (h : t.ReadBack u) (database : Value) :
    createTable u database = createTable t database := by
  have hkeys := keyColumns_readBack h
  have hcolumns : ∀ inlineKey, (u.columns.mapM fun c => columnDefinition c database inlineKey) =
      t.columns.mapM fun c => columnDefinition c database inlineKey := fun inlineKey =>
    mapM_eq_of_forall₂ h.columns fun c d hcolumn => columnDefinition_readBack hcolumn _ _
  have hnames : ((keyColumns u).mapM fun c => quoteIdentifier c.name database) =
      (keyColumns t).mapM fun c => quoteIdentifier c.name database :=
    mapM_eq_of_forall₂ hkeys fun c d hcolumn => by rw [hcolumn.name]
  rw [createTable, createTable, ← hkeys.length_eq, h.name]
  simp only [hcolumns, hnames]

end Tables

/-! ## Relations that were read back -/

/-- A statement that adds a foreign key to a table, cut around the name of the constraint. -/
def constraintText (table k rest : Text) : Text :=
  "ALTER TABLE " ++ table ++ " ADD CONSTRAINT " ++ k ++ " FOREIGN KEY " ++ rest

/-- Statements that add a foreign key and differ in the name of the constraint only. -/
def SameButConstraint (a b : Text) : Prop :=
  ∃ table rest k k', IsConstraintName k ∧ IsConstraintName k' ∧ a = constraintText table k rest ∧
    b = constraintText table k' rest

section Relations

variable {p q : Project} {r s : Relation} {source target : Table} {sc tc : Column} {k : Text}
variable {onDelete onUpdate : ReferentialAction}

/-- The name of the constraint stands at one place of the statement. -/
theorem joinSentence_text (database : Value) (source : Table) (sc : Column) (target : Table)
    (tc : Column) (onDelete onUpdate : ReferentialAction) :
    ∃ rest, ∀ k, textOf ((joinSentence database source sc target tc k onDelete onUpdate).pieces
        (nameQuote database)) =
      constraintText (quoteName (nameQuote database) source.name.text) k rest := by
  refine ⟨textOf (.group (quoteName (nameQuote database) sc.name.text) :: .gap ' ' ::
    (referencePieces (nameQuote database) target.name.text tc.name.text onDelete onUpdate ++
      [.mark ';'])), fun k => ?_⟩
  simp [joinSentence, Sentence.pieces, actionPieces, foreignKeyPieces, constraintText, Piece.text,
    Text.ofString, Text.ofChars]

/-- The column at the place of an end was read back for the column of that end. -/
theorem Placed.readBack {tableId columnId tableId' columnId' : Value} {t : Table} {c : Column}
    {i j : Nat} (hp : p.IsExportable) (hq : q.IsExportable)
    (htables : List.Forall₂ Table.ReadBack p.tables q.tables)
    (h : Placed p.tables tableId columnId t c) (hbefore : ColumnAt p.tables tableId columnId i j)
    (hafter : ColumnAt q.tables tableId' columnId' i j) :
    ∃ u d, Placed q.tables tableId' columnId' u d ∧ u.name = t.name ∧ d.name = c.name := by
  obtain ⟨t', c', ht, hc, htable, hcolumn⟩ := hbefore
  obtain ⟨u, d, hu, hd, hutable, hdcolumn⟩ := hafter
  -- a place of an end is found once
  have hplaced := hp.placed_of_same (List.mem_of_getElem? ht) (List.mem_of_getElem? hc) htable
    hcolumn
  cases hplaced.table.symm.trans h.table
  cases hplaced.column.symm.trans h.column
  obtain ⟨u', hu', hread⟩ := forall₂_getElem? htables ht
  cases hu'.symm.trans hu
  obtain ⟨d', hd', hcolumnRead⟩ := forall₂_getElem? hread.columns hc
  cases hd'.symm.trans hd
  exact ⟨u, d, hq.placed_of_same (List.mem_of_getElem? hu) (List.mem_of_getElem? hd) hutable
    hdcolumn, hread.name, hcolumnRead.name⟩

/-- A relation that was read back joins columns of the same names, with the same actions. -/
theorem Joins.readBack (hp : p.IsExportable) (hq : q.IsExportable)
    (htables : List.Forall₂ Table.ReadBack p.tables q.tables) (hs : s ∈ q.relations)
    (hread : r.ReadBack p.tables q.tables s)
    (hj : Joins p r source sc target tc k onDelete onUpdate) :
    ∃ source' sc' target' tc' k', Joins q s source' sc' target' tc' k' onDelete onUpdate ∧
      source'.name = source.name ∧ sc'.name = sc.name ∧ target'.name = target.name ∧
      tc'.name = tc.name := by
  obtain ⟨_, _, hbefore, hafter⟩ := hread.ends .source
  obtain ⟨source', sc', hsource, hsourceName, hscName⟩ :=
    Placed.readBack hp hq htables hj.source hbefore hafter
  obtain ⟨_, _, hbefore, hafter⟩ := hread.ends .target
  obtain ⟨target', tc', htarget, htargetName, htcName⟩ :=
    Placed.readBack hp hq htables hj.target hbefore hafter
  obtain ⟨n, hn⟩ := (hq.relations s hs).id
  obtain ⟨k', hk', hnamed⟩ := constraintName_identifier n
  refine ⟨source', sc', target', tc', k', ⟨hsource, htarget, ?_, hnamed, ?_, ?_⟩, hsourceName,
    hscName, htargetName, htcName⟩
  · rw [hn, hk']
  · rw [hread.onDelete, hj.onDelete]
  · rw [hread.onUpdate, hj.onUpdate]

/-- A relation that was read back is written as the same statement but for the constraint. -/
theorem alterTable?_readBack (hp : p.IsExportable) (hq : q.IsExportable)
    (hdatabase : q.database = p.database)
    (htables : List.Forall₂ Table.ReadBack p.tables q.tables) (hr : r ∈ p.relations)
    (hs : s ∈ q.relations) (hread : r.ReadBack p.tables q.tables s) :
    ∃ a b, alterTable? p r = .ok (some a) ∧ alterTable? q s = .ok (some b) ∧
      SameButConstraint a b := by
  obtain ⟨source, sc, target, tc, k, onDelete, onUpdate, hj⟩ := exists_joins hp hr
  obtain ⟨source', sc', target', tc', k', hj', hsource, hsc, htarget, htc⟩ :=
    hj.readBack hp hq htables hs hread
  obtain ⟨rest, hrest⟩ := joinSentence_text p.database source sc target tc onDelete onUpdate
  have hsame : joinSentence q.database source' sc' target' tc' k' onDelete onUpdate =
      joinSentence p.database source sc target tc k' onDelete onUpdate := by
    rw [joinSentence, joinSentence, hdatabase, hsource, hsc, htarget, htc]
  have htext' := alterTable?_eq hq hs hj'
  rw [hsame, hdatabase] at htext'
  exact ⟨_, _, alterTable?_eq hp hr hj, htext', _, rest, k, k', hj.named, hj'.named, hrest k,
    hrest k'⟩

/-- Relations that were read back are written as the same statements but for the constraints. -/
theorem alterTables_readBack (hp : p.IsExportable) (hq : q.IsExportable)
    (hdatabase : q.database = p.database)
    (htables : List.Forall₂ Table.ReadBack p.tables q.tables) {rs ss : List Relation}
    (hrs : ∀ r ∈ rs, r ∈ p.relations) (hss : ∀ s ∈ ss, s ∈ q.relations)
    (hread : List.Forall₂ (Relation.ReadBack p.tables q.tables) rs ss) :
    ∃ alters alters' : List Text, rs.mapM (alterTable? p) = .ok (alters.map some) ∧
      ss.mapM (alterTable? q) = .ok (alters'.map some) ∧
      List.Forall₂ SameButConstraint alters alters' := by
  induction hread with
  | nil => exact ⟨[], [], rfl, rfl, .nil⟩
  | cons hread _ ih =>
      rw [List.forall_mem_cons] at hrs hss
      obtain ⟨a, b, ha, hb, hsame⟩ :=
        alterTable?_readBack hp hq hdatabase htables hrs.1 hss.1 hread
      obtain ⟨alters, alters', halters, halters', hall⟩ := ih hrs.2 hss.2
      refine ⟨a :: alters, b :: alters', ?_, ?_, .cons hsame hall⟩
      · rw [List.mapM_cons, ha, halters]
        rfl
      · rw [List.mapM_cons, hb, halters']
        rfl

end Relations

/-! ## Scripts -/

/-- Two texts of a project of some name that differ in the times of writing and in the names of the
constraints only. -/
def SameScript (name stamp stamp' d d' : Text) : Prop :=
  ∃ creates alters alters', List.Forall₂ SameButConstraint alters alters' ∧
    d = Text.join "\n" (headLines name stamp ++ bodyLines creates alters) ∧
    d' = Text.join "\n" (headLines name stamp' ++ bodyLines creates alters')

/-- A project that was read back is written as the same script. -/
theorem ddl_readBack {p q : Project} (hp : p.IsExportable) (hq : q.IsExportable)
    (hname : q.name = p.name) (hdatabase : q.database = p.database)
    (htables : List.Forall₂ Table.ReadBack p.tables q.tables)
    (hrelations : List.Forall₂ (Relation.ReadBack p.tables q.tables) p.relations q.relations)
    {stamp d : Text} (hd : ddl p stamp = .ok d) (stamp' : Text) :
    ∃ d', ddl q stamp' = .ok d' ∧ SameScript p.name.text stamp stamp' d d' := by
  obtain ⟨creates, written, hcreates, -, hwritten, rfl⟩ := ddl_eq_ok.1 hd
  obtain ⟨alters, alters', halters, halters', hsame⟩ := alterTables_readBack hp hq hdatabase
    htables (fun _ hr => hr) (fun _ hs => hs) hrelations
  cases hwritten.symm.trans halters
  have hsome : ∀ texts : List Text, (texts.map some).filterMap id = texts := by
    intro texts
    rw [List.filterMap_map, Function.id_comp, List.filterMap_some]
  have hcreates' : (q.tables.mapM fun t => createTable t q.database) = .ok creates := by
    rw [hdatabase, ← hcreates]
    exact mapM_eq_of_forall₂ htables fun t u hread => createTable_readBack hread p.database
  have hkeys : ∀ t ∈ q.tables, t.id.isKey = true := fun t ht =>
    (checkIntegrity_eq_ok_iff.1 hq.sound).tableId_isKey ht
  refine ⟨_, ddl_eq_ok.2 ⟨creates, _, hcreates', hkeys, halters', rfl⟩, creates, alters, alters',
    hsame, ?_, ?_⟩
  · rw [hsome]
  · rw [hsome, hname]

end Sql

/-! ## Importing and exporting -/

namespace Parsed

/-- A new project of a name and an engine that consists of what was read. -/
def imported (parsed : Parsed) (name database : Value) (ids : IdSupply) : Project :=
  { (Store.empty name database ids).project with
    tables := parsed.tables, relations := parsed.relations }

/-- What becomes of a new store of a name and an engine to which all that was read is appended. -/
def appended (parsed : Parsed) (name database : Value) (ids : IdSupply) : Outcome Unit :=
  (Store.empty name database ids).perform (Edit.append parsed.tables parsed.relations)

/-- Appending what was read to a new store succeeds, and the store is then exported as a text. -/
def IsExportedAs (parsed : Parsed) (name database : Value) (time : Timestamp) (text : Text) :
    Prop :=
  ∀ ids, (parsed.appended name database ids).result = .ok () ∧
    Sql.ddl (parsed.appended name database ids).store.project (.ofString time.text) = .ok text

variable {parsed : Parsed} {name database : Value} {ids : IdSupply}

theorem appended_eq (h : Sound parsed.tables parsed.relations) :
    (parsed.appended name database ids).result = .ok () ∧
      (parsed.appended name database ids).store.project = parsed.imported name database ids := by
  have hrun : (Edit.append parsed.tables parsed.relations
      (Store.empty name database ids).project).runFrom (Store.empty name database ids).ids =
        (.ok ((), some (parsed.imported name database ids)),
          (Store.empty name database ids).ids) :=
    Edit.append_gives.2 ⟨h, rfl, rfl⟩
  rw [appended, Store.perform, hrun]
  exact ⟨rfl, rfl⟩

/-- Which identifier a new project has makes no difference to its text. -/
theorem isExportedAs_of_imported {time : Timestamp} {text : Text}
    (hsound : Sound parsed.tables parsed.relations)
    (h : Sql.ddl (parsed.imported name database ids) (.ofString time.text) = .ok text) :
    parsed.IsExportedAs name database time text := by
  intro ids'
  constructor
  · exact (appended_eq hsound).1
  · rw [(appended_eq hsound).2]
    exact h

end Parsed

/-- A text whose tables, and the columns of each, have different names is imported into a new
project and exported as a text that stays as it is: it can be read, and imported and exported again
it gives the same text but for the time of writing and the names of the constraints.  The second
reading declares the same tables and relations as the first. -/
theorem import_export_stable {sql : Text} {ids ids' : IdSupply} {first : Parsed}
    (hparse : (Sql.parse sql).Gives ids first ids')
    (htables : first.tables.Pairwise fun t u => t.name.sameName u.name = false)
    (hcolumns : ∀ t ∈ first.tables, t.columns.Pairwise fun c d => c.name.sameName d.name = false)
    {name : Value} (hname : .char '\n' ∉ name.text) (database : Value) (time time' : Timestamp) :
    ∃ d, first.IsExportedAs name database time d ∧ ∀ ids₂, ∃ second ids₂' d',
      (Sql.parse d).Gives ids₂ second ids₂' ∧ second.IsExportedAs name database time' d' ∧
      Sql.SameScript name.text (.ofString time.text) (.ofString time'.text) d d' ∧
      List.Forall₂ Table.ReadBack first.tables second.tables ∧
      List.Forall₂ (Relation.ReadBack first.tables second.tables) first.relations
        second.relations := by
  have hdeclares := Sql.parse_declares hparse
  have hdistinct := (Value.pairwise_sameName_iff hdeclares.tableNames).1 htables
  have hdistinctColumns : ∀ t ∈ first.tables,
      (t.columns.map fun c => Text.fold c.name.text).Nodup := fun t ht =>
    (Value.pairwise_sameName_iff (hdeclares.columnNames t ht)).1 (hcolumns t ht)
  have hp : (first.imported name database {}).IsExportable :=
    Sql.parse_exportable hparse hdistinct hdistinctColumns hname rfl rfl
  obtain ⟨d, hd, hread⟩ := Sql.exported_reads hp time
  refine ⟨d, Parsed.isExportedAs_of_imported hdeclares.sound hd, fun ids₂ => ?_⟩
  obtain ⟨second, ids₂', hparse₂, -, -, htablesBack, hrelationsBack⟩ := hread ids₂
  -- the second reading has the names of the first, so it can be exported too
  have hagain : (second.tables.map fun t => Text.fold t.name.text).Nodup := by
    rw [← tableNames_readBack htablesBack]
    exact hdistinct
  have hagainColumns : ∀ u ∈ second.tables,
      (u.columns.map fun c => Text.fold c.name.text).Nodup := by
    intro u hu
    obtain ⟨t, ht, hback⟩ := Sql.forall₂_mem_right htablesBack hu
    rw [← hback.columnNames]
    exact hdistinctColumns t ht
  have hq : (second.imported name database {}).IsExportable :=
    Sql.parse_exportable hparse₂ hagain hagainColumns hname rfl rfl
  obtain ⟨d', hd', hsame⟩ :=
    Sql.ddl_readBack hp hq rfl rfl htablesBack hrelationsBack hd (.ofString time'.text)
  exact ⟨second, ids₂', d', hparse₂,
    Parsed.isExportedAs_of_imported (Sql.parse_declares hparse₂).sound hd', hsame, htablesBack,
    hrelationsBack⟩

/-- A text with an unknown type, sizes of zero and in other digits, a blank column name, an end of
line in a table name, a key of two columns, a key of its own table and two keys of one column. -/
def oddDialect : Text :=
  "CREATE TABLE \" a\nb` \" (\"\" GEOMETRY(0, x) UNIQUE, n NUMERIC(010, 2), m ENUM('it''s', e), " ++
      "s CHAR(٣), PRIMARY KEY (n, \"\")); " ++
    "ALTER TABLE [A\nB`] ADD FOREIGN KEY (m, s) REFERENCES \"a\nb`\" ON DELETE SET NULL, " ++
      "ADD FOREIGN KEY (s) REFERENCES other; " ++
    "CREATE TABLE other (k CHAR(0) PRIMARY KEY REFERENCES other)"

/-- Its import is exported as a text that stays as it is. -/
theorem import_export_stable_odd :
    ∃ first, (Sql.parse oddDialect).Gives {} first ⟨11⟩ ∧ first.relations.length = 4 ∧
      ∃ d, first.IsExportedAs "shop" Engine.postgresql.name
          { year := 2026, month := 1, day := 2, hour := 3, minute := 4, second := 5 } d ∧
        ∀ ids₂, ∃ second ids₂' d', (Sql.parse d).Gives ids₂ second ids₂' ∧
          second.IsExportedAs "shop" Engine.postgresql.name
            { year := 2026, month := 1, day := 2, hour := 4, minute := 0, second := 0 } d' ∧
          Sql.SameScript "shop" "2026-01-02T03:04:05" "2026-01-02T04:00:00" d d' ∧
          List.Forall₂ Table.ReadBack first.tables second.tables ∧
          List.Forall₂ (Relation.ReadBack first.tables second.tables) first.relations
            second.relations := by
  have hcheck : ((Sql.parse oddDialect).runFrom {}).1.toOption.any (fun first =>
      decide (first.relations.length = 4 ∧
        (first.tables.Pairwise fun t u => t.name.sameName u.name = false) ∧
        ∀ t ∈ first.tables, t.columns.Pairwise fun c d => c.name.sameName d.name = false)) =
          true ∧ ((Sql.parse oddDialect).runFrom {}).2 = ⟨11⟩ := by
    rw [oddDialect]
    repeat rw [Text.ofString_ofList]
    decide +kernel
  obtain ⟨first, hparse, hcheck⟩ := Minting.gives_of_any hcheck.1 hcheck.2
  obtain ⟨hrelations, htables, hcolumns⟩ := of_decide_eq_true hcheck
  exact ⟨first, hparse, hrelations, import_export_stable hparse htables hcolumns (by decide) _ _ _⟩

end SchemaDesk

import SchemaDesk.Proofs.Sql.RelationText

/-!
# Projects as scripts

A project that can be exported is written as a script of rows: two comments, a statement for each
table, and one for each relation (`ddl_eq`).  So the statements that are found in its text are
those of its tables and relations, whatever stands in the names.

No relation is left out: both its ends are columns that exist, and looking them up finds them
(`Project.IsExportable.placed`).
-/

namespace SchemaDesk

/-! ## Projects that can be exported -/

/-- A relation whose identifier was drawn from the supply, with actions that are known. -/
structure Relation.IsWritable (r : Relation) : Prop where
  id : ∃ n, r.id = .str (identifier n)
  onDelete : ∃ action : ReferentialAction, r.onDelete = .str action.name
  onUpdate : ∃ action : ReferentialAction, r.onUpdate = .str action.name

/-- A sound project whose name is one line and whose parts can be written; the names of its tables
differ in more than letter case, and its columns have identifiers that can be found. -/
structure Project.IsExportable (p : Project) : Prop where
  sound : p.checkIntegrity = .ok ()
  name : .char '\n' ∉ p.name.text
  tables : ∀ t ∈ p.tables, t.IsWritable
  distinct : (p.tables.map fun t => Text.fold t.name.text).Nodup
  columnIds : ∀ t ∈ p.tables, ∀ c ∈ t.columns, c.id.isNan = false
  relations : ∀ r ∈ p.relations, r.IsWritable

/-- The table and the column that an end of a relation is found at. -/
structure Placed (tables : List Table) (tableId columnId : Value) (t : Table) (c : Column) :
    Prop where
  table : lastTable? tables tableId = some t
  column : t.column? columnId = some c

namespace Placed

variable {tables : List Table} {tableId columnId : Value} {t : Table} {c : Column}

theorem mem (h : Placed tables tableId columnId t c) : t ∈ tables ∧ c ∈ t.columns :=
  ⟨List.mem_reverse.1 (List.mem_of_find?_eq_some h.table), List.mem_of_find?_eq_some h.column⟩

theorem same (h : Placed tables tableId columnId t c) :
    t.id.same tableId = true ∧ c.id.same columnId = true := by
  have htable : t.id.same tableId = true := by
    have hfind := h.table
    rw [lastTable?] at hfind
    simpa using List.find?_some hfind
  have hcolumn := List.find?_some h.column
  rw [Value.equals, Bool.and_eq_true] at hcolumn
  exact ⟨htable, hcolumn.2⟩

end Placed

/-- In sound tables a column is found by what is the same as its identifiers. -/
theorem Sound.placed {tables : List Table} {relations : List Relation}
    (h : Sound tables relations) {t : Table} {c : Column} {tableId columnId : Value}
    (ht : t ∈ tables) (hc : c ∈ t.columns) (hnan : c.id.isNan = false)
    (htable : t.id.same tableId = true) (hcolumn : c.id.same columnId = true) :
    Placed tables tableId columnId t c := by
  have hequals : c.id.equals columnId = true := Value.equals_iff.2 ⟨hnan, Value.same_iff.1 hcolumn⟩
  refine ⟨lastTable?_eq_some h.tableIds_nodup ht (Value.same_iff.1 htable),
    find?_eq_of_unique hc hequals fun d hd hequals' => ?_⟩
  exact h.column_unique ht hd hc
    ((Value.canon_of_equals hequals').trans (Value.same_iff.1 hcolumn).symm)

/-- An end of a relation of sound tables is found, unless it refers to its column by something that
is not a number. -/
theorem Sound.exists_placed {tables : List Table} {relations : List Relation}
    (h : Sound tables relations) {r : Relation} (hr : r ∈ relations) (side : Side)
    (hnan : (r.columnId side).isNan = false) :
    ∃ t c, Placed tables (r.tableId side) (r.columnId side) t c := by
  obtain ⟨t, ht, htable, hcolumn⟩ := h.ends r hr side
  obtain ⟨id, hid, hcanon⟩ := List.mem_map.1 hcolumn
  obtain ⟨c, hc, rfl⟩ := List.mem_map.1 hid
  exact ⟨t, c, h.placed ht hc ((Value.isNan_of_canon hcanon).trans hnan) (Value.same_iff.2 htable)
    (Value.same_iff.2 hcanon)⟩

theorem Project.IsExportable.placed_of_same {p : Project} (h : p.IsExportable) {t : Table}
    {c : Column} {tableId columnId : Value} (ht : t ∈ p.tables) (hc : c ∈ t.columns)
    (htable : t.id.same tableId = true) (hcolumn : c.id.same columnId = true) :
    Placed p.tables tableId columnId t c :=
  (checkIntegrity_eq_ok_iff.1 h.sound).placed ht hc (h.columnIds t ht c hc) htable hcolumn

/-- Both ends of every relation are found. -/
theorem Project.IsExportable.placed {p : Project} (h : p.IsExportable) {r : Relation}
    (hr : r ∈ p.relations) (side : Side) :
    ∃ t c, Placed p.tables (r.tableId side) (r.columnId side) t c := by
  obtain ⟨t, ht, htable, hcolumn⟩ := (checkIntegrity_eq_ok_iff.1 h.sound).ends r hr side
  obtain ⟨id, hid, hcanon⟩ := List.mem_map.1 hcolumn
  obtain ⟨c, hc, rfl⟩ := List.mem_map.1 hid
  exact ⟨t, c, h.placed_of_same ht hc (Value.same_iff.2 htable) (Value.same_iff.2 hcanon)⟩

namespace Sql

open Minting

/-! ## The statements of the tables -/

/-- Writable tables are written as statements, and reading them adds the tables in order. -/
theorem createTables_read {ts : List Table} (h : ∀ t ∈ ts, t.IsWritable) (database : Value) :
    ∃ ss : List Sentence,
      ts.mapM (fun t => createTable t database) =
        .ok (ss.map fun s => textOf (s.pieces (nameQuote database))) ∧
      (∀ s ∈ ss, s.WellFormed) ∧
      (∀ tables, (ss.map Sentence.statement).flatMap (laterKeys tables) = []) ∧
      ∀ (d : Draft) (ids : IdSupply), ∃ us ids',
        ((ss.map Sentence.statement).foldlM Draft.add d).Gives ids
          { d with tables := d.tables ++ us } ids' ∧ List.Forall₂ Table.ReadBack ts us := by
  induction ts with
  | nil =>
      refine ⟨[], rfl, by simp, fun _ => rfl, fun d ids => ⟨[], ids, ?_, .nil⟩⟩
      rw [List.append_nil]
      exact gives_pure.2 ⟨rfl, rfl⟩
  | cons t ts ih =>
      obtain ⟨name, body, htext, hwell, hadd⟩ := createTable_reads (h t List.mem_cons_self) database
      obtain ⟨ss, htexts, hwells, hkeys, hadds⟩ := ih fun u hu => h u (List.mem_cons_of_mem _ hu)
      refine ⟨.create name body :: ss, ?_, List.forall_mem_cons.2 ⟨hwell, hwells⟩, hkeys,
        fun d ids => ?_⟩
      · rw [List.mapM_cons, htext, htexts]
        rfl
      · obtain ⟨u, mid, hu, hread⟩ := hadd d ids
        obtain ⟨us, ids', hus, hreads⟩ := hadds { d with tables := d.tables ++ [u] } mid
        refine ⟨u :: us, ids', ?_, .cons hread hreads⟩
        rw [List.map_cons, List.foldlM_cons]
        refine gives_bind.2 ⟨_, mid, hu, ?_⟩
        simpa using hus

/-! ## The statements of the relations -/

/-- A relation whose ends are found is written between the columns that are found. -/
theorem alterTable?_of_placed {p : Project} {r : Relation} (h : Sound p.tables p.relations)
    (hr : r ∈ p.relations) {source target : Table} {sc tc : Column}
    (hsource : Placed p.tables r.sourceTableId r.sourceColumnId source sc)
    (htarget : Placed p.tables r.targetTableId r.targetColumnId target tc) :
    alterTable? p r = (addForeignKey r source sc target tc p.database).map some := by
  have hkey : ∀ side, (r.tableId side).isKey = true := by
    intro side
    obtain ⟨t, ht, hcanon, -⟩ := h.ends r hr side
    rw [← Value.isKey_of_canon hcanon]
    exact h.tableId_isKey ht
  have hsourceKey : r.sourceTableId.isKey = true := hkey .source
  have htargetKey : r.targetTableId.isKey = true := hkey .target
  rw [alterTable?, hsourceKey, htargetKey, hsource.table, htarget.table]
  simp only [Bool.and_self, if_true, hsource.column, htarget.column]

/-- A relation between two columns, with the keywords it is written with. -/
structure Joins (p : Project) (r : Relation) (source : Table) (sc : Column) (target : Table)
    (tc : Column) (k : Text) (onDelete onUpdate : ReferentialAction) : Prop where
  source : Placed p.tables r.sourceTableId r.sourceColumnId source sc
  target : Placed p.tables r.targetTableId r.targetColumnId target tc
  constraint : constraintName r.id = .ok k
  named : IsConstraintName k
  onDelete : r.onDelete = .str onDelete.name
  onUpdate : r.onUpdate = .str onUpdate.name

/-- The statement that adds such a relation. -/
def joinSentence (database : Value) (source : Table) (sc : Column) (target : Table) (tc : Column)
    (k : Text) (onDelete onUpdate : ReferentialAction) : Sentence :=
  .alter source.name.text (actionPieces (nameQuote database) k sc.name.text target.name.text
    tc.name.text onDelete onUpdate)

/-- A statement that is written for a relation. -/
def IsJoined (p : Project) (r : Relation) (s : Sentence) : Prop :=
  ∃ source sc target tc k onDelete onUpdate, Joins p r source sc target tc k onDelete onUpdate ∧
    s = joinSentence p.database source sc target tc k onDelete onUpdate

section Joins

variable {p : Project} {r : Relation} {source target : Table} {sc tc : Column} {k : Text}
variable {onDelete onUpdate : ReferentialAction}

theorem exists_joins (h : p.IsExportable) (hr : r ∈ p.relations) :
    ∃ source sc target tc k onDelete onUpdate,
      Joins p r source sc target tc k onDelete onUpdate := by
  obtain ⟨source, sc, hsource⟩ := h.placed hr .source
  obtain ⟨target, tc, htarget⟩ := h.placed hr .target
  obtain ⟨⟨n, hn⟩, ⟨onDelete, hdelete⟩, ⟨onUpdate, hupdate⟩⟩ := h.relations r hr
  obtain ⟨k, hk, hnamed⟩ := constraintName_identifier n
  exact ⟨source, sc, target, tc, k, onDelete, onUpdate,
    ⟨hsource, htarget, by rw [hn, hk], hnamed, hdelete, hupdate⟩⟩

/-- The name of a writable table or column is a text. -/
theorem name_eq_text {v : Value} (h : ∃ s, v = .str s) : v = .str v.text := by
  obtain ⟨s, rfl⟩ := h
  rfl

theorem table_name (h : p.IsExportable) {t : Table} (ht : t ∈ p.tables) :
    t.name = .str t.name.text ∧ t.name.text.trim = t.name.text ∧ t.name.text ≠ [] := by
  obtain ⟨s, hs, htrim, hne⟩ := (h.tables t ht).name
  rw [hs]
  exact ⟨rfl, htrim, hne⟩

theorem column_name (h : p.IsExportable) {t : Table} (ht : t ∈ p.tables) {c : Column}
    (hc : c ∈ t.columns) : c.name = .str c.name.text :=
  name_eq_text ((h.tables t ht).columns c hc).name

/-- A relation of the project is written as its statement. -/
theorem alterTable?_eq (h : p.IsExportable) (hr : r ∈ p.relations)
    (hj : Joins p r source sc target tc k onDelete onUpdate) :
    alterTable? p r = .ok (some (textOf ((joinSentence p.database source sc target tc k onDelete
      onUpdate).pieces (nameQuote p.database)))) := by
  have htext := addForeignKey_eq p.database (table_name h hj.source.mem.1).1
    (column_name h hj.source.mem.1 hj.source.mem.2) (table_name h hj.target.mem.1).1
    (column_name h hj.target.mem.1 hj.target.mem.2) hj.constraint hj.onDelete hj.onUpdate
  rw [alterTable?_of_placed (checkIntegrity_eq_ok_iff.1 h.sound) hr hj.source hj.target, htext]
  rfl

theorem joinSentence_wellFormed (h : p.IsExportable)
    (hj : Joins p r source sc target tc k onDelete onUpdate) (database : Value) :
    (joinSentence database source sc target tc k onDelete onUpdate).WellFormed := by
  obtain ⟨-, htrim, hne⟩ := table_name h hj.source.mem.1
  exact alter_wellFormed (nameQuote_cases database) hj.named htrim hne

end Joins

/-- The relations of a project are written as statements, one for each. -/
theorem alterTables_eq {p : Project} (h : p.IsExportable) {rs : List Relation}
    (hrs : ∀ r ∈ rs, r ∈ p.relations) :
    ∃ ss : List Sentence,
      rs.mapM (alterTable? p) =
        .ok (ss.map fun s => some (textOf (s.pieces (nameQuote p.database)))) ∧
      (∀ s ∈ ss, s.WellFormed) ∧
      List.Forall₂ (IsJoined p) rs ss := by
  induction rs with
  | nil => exact ⟨[], rfl, by simp, .nil⟩
  | cons r rs ih =>
      obtain ⟨ss, htexts, hwells, hjoins⟩ := ih fun s hs => hrs s (List.mem_cons_of_mem _ hs)
      have hr := hrs r List.mem_cons_self
      obtain ⟨source, sc, target, tc, k, onDelete, onUpdate, hj⟩ := exists_joins h hr
      refine ⟨_ :: ss, ?_, List.forall_mem_cons.2 ⟨joinSentence_wellFormed h hj p.database, hwells⟩,
        .cons ⟨source, sc, target, tc, k, onDelete, onUpdate, hj, rfl⟩ hjoins⟩
      rw [List.mapM_cons, alterTable?_eq h hr hj, htexts]
      rfl

/-! ## The whole script -/

/-- The rows of a script: its title, the statements of its tables, each followed by an empty row,
and those of its relations under a heading. -/
def scriptRows (title stamp : Text) (creates alters : List Sentence) : List Row :=
  [.comment (" Database: " ++ title), .comment (" Generated at: " ++ stamp), .blank] ++
    creates.flatMap (fun s => [.sentence s, .blank]) ++
    (if alters.isEmpty then []
    else .comment " Relationships" :: (alters.map Row.sentence ++ [.blank]))

theorem filterMap_scriptRows (title stamp : Text) (creates alters : List Sentence) :
    (scriptRows title stamp creates alters).filterMap
        (fun r => r.sentence?.map Sentence.statement) =
      (creates ++ alters).map Sentence.statement := by
  have hcreates : (creates.flatMap fun s => [Row.sentence s, .blank]).filterMap
      (fun r => r.sentence?.map Sentence.statement) = creates.map Sentence.statement := by
    induction creates with
    | nil => rfl
    | cons s creates ih => exact congrArg (s.statement :: ·) ih
  have halters : (alters.map Row.sentence).filterMap
      (fun r => r.sentence?.map Sentence.statement) = alters.map Sentence.statement := by
    induction alters with
    | nil => rfl
    | cons s alters ih => exact congrArg (s.statement :: ·) ih
  rw [scriptRows, List.filterMap_append, List.filterMap_append, hcreates, List.map_append]
  cases alters with
  | nil => rfl
  | cons s alters =>
      rw [List.isEmpty_cons, if_neg Bool.false_ne_true, List.filterMap_cons]
      show creates.map Sentence.statement ++ (((s :: alters).map Row.sentence ++
        [Row.blank]).filterMap fun r : Row => r.sentence?.map Sentence.statement) = _
      rw [List.filterMap_append, halters]
      simp [Row.sentence?]

/-- The text of a script, row by row. -/
theorem map_scriptRows (quote : CodePoint) (title stamp : Text) (creates alters : List Sentence) :
    ((scriptRows title stamp creates alters).map fun r => (r.line quote).text) =
      [Text.ofString "-- Database: " ++ title, Text.ofString "-- Generated at: " ++ stamp, []] ++
        (creates.map fun s => textOf (s.pieces quote)).flatMap ([·, []]) ++
        (if (alters.map fun s => textOf (s.pieces quote)).isEmpty then []
        else Text.ofString "-- Relationships" ::
          ((alters.map fun s => textOf (s.pieces quote)) ++ [[]])) := by
  have hcreates : (creates.flatMap fun s => [Row.sentence s, .blank]).map
      (fun r => (r.line quote).text) =
        (creates.map fun s => textOf (s.pieces quote)).flatMap ([·, []]) := by
    rw [List.map_flatMap, List.flatMap_map]
    rfl
  have halters : (alters.map Row.sentence).map (fun r => (r.line quote).text) =
      alters.map fun s => textOf (s.pieces quote) := by
    rw [List.map_map]
    rfl
  rw [scriptRows, List.map_append, List.map_append, hcreates]
  congr 1
  cases alters with
  | nil => rfl
  | cons s alters =>
      rw [List.isEmpty_cons, if_neg Bool.false_ne_true, List.map_cons, List.map_append, halters]
      rfl

theorem mem_scriptRows {title stamp : Text} {creates alters : List Sentence}
    (htitle : .char '\n' ∉ title) (hstamp : .char '\n' ∉ stamp)
    (hcreates : ∀ s ∈ creates, s.WellFormed) (halters : ∀ s ∈ alters, s.WellFormed) :
    ∀ r ∈ scriptRows title stamp creates alters, r.WellFormed := by
  have hcomment : ∀ {lead t : Text}, .char '\n' ∉ lead → .char '\n' ∉ t →
      Row.WellFormed (.comment (lead ++ t)) := by
    intro lead t hlead ht hmem
    rcases List.mem_append.1 hmem with hmem | hmem
    · exact hlead hmem
    · exact ht hmem
  -- the head of the script, then its tables, then its relations
  intro r hr
  rw [scriptRows, List.mem_append, List.mem_append] at hr
  rcases hr with (hr | hr) | hr
  · simp only [List.mem_cons, List.not_mem_nil, or_false] at hr
    rcases hr with rfl | rfl | rfl
    · exact hcomment (by decide) htitle
    · exact hcomment (by decide) hstamp
    · trivial
  · obtain ⟨s, hs, hr⟩ := List.mem_flatMap.1 hr
    simp only [List.mem_cons, List.not_mem_nil, or_false] at hr
    rcases hr with rfl | rfl
    · exact hcreates s hs
    · trivial
  · split at hr
    · cases hr
    · rw [List.mem_cons, List.mem_append, List.mem_singleton] at hr
      rcases hr with rfl | hr | rfl
      · show _ ∉ _
        decide
      · obtain ⟨s, hs, rfl⟩ := List.mem_map.1 hr
        exact halters s hs
      · trivial

/-- An exportable project is written as a script. -/
theorem ddl_eq {p : Project} (h : p.IsExportable) (stamp : Text) {creates alters : List Sentence}
    (hcreates : p.tables.mapM (fun t => createTable t p.database) =
      .ok (creates.map fun s => textOf (s.pieces (nameQuote p.database))))
    (halters : p.relations.mapM (alterTable? p) =
      .ok (alters.map fun s => some (textOf (s.pieces (nameQuote p.database))))) :
    ddl p stamp = .ok (Text.join "\n" ((scriptRows p.name.text stamp creates alters).map
      fun r => (r.line (nameQuote p.database)).text)) := by
  have hkeys : p.tables.all (·.id.isKey) = true := by
    have hsound := checkIntegrity_eq_ok_iff.1 h.sound
    exact List.all_eq_true.2 fun t ht => hsound.tableId_isKey ht
  have hsome : ((alters.map fun s => some (textOf (s.pieces (nameQuote p.database)))).filterMap
      id) = alters.map fun s => textOf (s.pieces (nameQuote p.database)) := by
    rw [List.filterMap_map, Function.id_comp]
    exact congrFun List.filterMap_eq_map alters
  rw [ddl, hcreates]
  show (if p.tables.all (·.id.isKey) = true then _ else _) = _
  rw [if_pos hkeys, halters]
  show Except.ok (Text.join "\n" _) = Except.ok _
  rw [hsome, map_scriptRows]

end Sql

end SchemaDesk

import SchemaDesk.Proofs.Sql.Written

/-!
# Which projects have a text

Most fields of a project may hold anything and still be written.  `HasSql` says what counts: names
that are text, known types, members of enumerations that are texts, and for a relation a text as its
identifier, since the name of its constraint is cut from that.  A relation that refers to a column
by something that is not a number is left out, so nothing is asked of it.

A sound project has a text exactly if all this holds (`exists_ddl_iff`).
-/

namespace SchemaDesk

/-- Members of an enumeration that can be written: texts, or nothing that counts as present. -/
def Value.AreLiterals (members : Value) : Prop :=
  members.isTruthy = true →
    ∃ vs, members.elements? = some vs ∧ ∀ v ∈ vs, ∃ s, v = .str s

/-- Whether a column is of one of the types that list their members. -/
def Column.IsEnumeration (c : Column) : Prop :=
  c.type = .str DataType.enum.name ∨ c.type = .str DataType.set.name

/-- A column with a text for its name, one of the known types, and members that can be written where
the type lists them. -/
structure Column.HasSql (c : Column) : Prop where
  name : ∃ s, c.name = .str s
  type : ∃ type : DataType, c.type = .str type.name
  members : c.IsEnumeration → c.enumValues.AreLiterals

/-- A table with a text for its name. -/
structure Table.HasSql (t : Table) : Prop where
  name : ∃ s, t.name = .str s
  columns : ∀ c ∈ t.columns, c.HasSql

/-- A relation with a text for its identifier, unless it is left out. -/
def Relation.HasSql (r : Relation) : Prop :=
  r.sourceColumnId.isNan = false → r.targetColumnId.isNan = false → ∃ s, r.id = .str s

/-- A project whose tables and relations can be written. -/
structure Project.HasSql (p : Project) : Prop where
  tables : ∀ t ∈ p.tables, t.HasSql
  relations : ∀ r ∈ p.relations, r.HasSql

/-- The names of types are all different. -/
theorem DataType.name_injective : Function.Injective DataType.name := by
  intro a b h
  have hname := congrArg ofName? h
  rw [ofName?_name, ofName?_name] at hname
  exact Option.some.inj hname

theorem DataType.name_of_ofName? {s : Text} {type : DataType} (h : ofName? s = some type) :
    type.name = s := by
  have hname := List.find?_some h
  exact of_decide_eq_true hname

/-- What is admissible as a type is the name of one. -/
theorem Choice.admits_columnType_iff {v : Value} :
    columnType.admits v = true ↔ ∃ type : DataType, v = .str type.name := by
  constructor
  · intro h
    cases v with
    | str s =>
        obtain ⟨type, -, rfl⟩ := List.mem_map.1 (List.contains_iff_mem.1 h)
        exact ⟨type, rfl⟩
    | _ => cases h
  · rintro ⟨type, rfl⟩
    exact List.contains_iff_mem.2 (List.mem_map_of_mem type.mem_all)

/-! ## Looking columns up -/

section Lookup

variable {t : Table} {id : Value}

/-- What is not a number finds no column, not even one of that identifier. -/
theorem Table.column?_of_isNan (h : id.isNan = true) : t.column? id = none := by
  rw [column?, List.find?_eq_none]
  intro c _ hequals
  obtain ⟨hnan, hcanon⟩ := Value.equals_iff.1 hequals
  rw [Value.isNan_of_canon hcanon, h] at hnan
  cases hnan

/-- Everything else finds the column that has it for its identifier. -/
theorem Table.exists_column? (h : id.canon ∈ t.columnIds.map Value.canon)
    (hnan : id.isNan = false) : ∃ c ∈ t.columns, t.column? id = some c := by
  obtain ⟨cid, hcid, hcanon⟩ := List.mem_map.1 h
  obtain ⟨c, hc, rfl⟩ := List.mem_map.1 hcid
  have hequals : c.id.equals id = true :=
    Value.equals_iff.2 ⟨(Value.isNan_of_canon hcanon).trans hnan, hcanon⟩
  cases hfind : t.columns.find? (·.id.equals id) with
  | none => exact absurd hequals (List.find?_eq_none.1 hfind c hc)
  | some d => exact ⟨d, List.mem_of_find?_eq_some hfind, hfind⟩

end Lookup

namespace Sql

/-! ## Columns -/

/-- Names are text. -/
theorem exists_quoteIdentifier_iff {name database : Value} :
    (∃ text, quoteIdentifier name database = .ok text) ↔ ∃ s, name = .str s := by
  cases name <;> simp [quoteIdentifier]

theorem exists_memberLiterals_iff {members : Value} :
    (∃ texts, memberLiterals members = .ok texts) ↔
      ∃ vs, members.elements? = some vs ∧ ∀ v ∈ vs, ∃ s, v = .str s := by
  rw [memberLiterals]
  cases members.elements? with
  | none => simp
  | some vs =>
      simp only [exists_mapM_eq_ok_iff, Option.some.injEq, exists_eq_left']
      refine forall₂_congr fun v _ => ?_
      cases v <;> simp

/-- A list of members is written as the arguments of the type, where there is one. -/
theorem exists_enumeration_iff {members : Value} {keyword : Text} :
    (∃ text, (if members.isTruthy then (memberLiterals members).map (withArguments keyword)
        else .ok keyword : Except Failure Text) = .ok text) ↔ members.AreLiterals := by
  rw [Value.AreLiterals]
  by_cases hsome : members.isTruthy = true
  · rw [if_pos hsome, ← exists_memberLiterals_iff]
    simp only [hsome, forall_const]
    cases memberLiterals members <;> simp [Except.map]
  · simp [hsome]

/-- Of the known types only those of enumerations can fail to be written. -/
theorem exists_knownType_iff {type : DataType} {c : Column} (h : c.type = .str type.name) :
    (∃ text, knownType type c = .ok text) ↔ (c.IsEnumeration → c.enumValues.AreLiterals) := by
  have henumeration : c.IsEnumeration ↔ type = .enum ∨ type = .set := by
    simp only [Column.IsEnumeration, h, Value.str.injEq, DataType.name_injective.eq_iff]
  rw [henumeration]
  cases type with
  | enum => simpa [knownType] using exists_enumeration_iff
  | set => simpa [knownType] using exists_enumeration_iff
  | _ => simp [knownType]

theorem exists_columnType_iff {c : Column} :
    (∃ text, columnType c = .ok text) ↔
      (∃ type : DataType, c.type = .str type.name) ∧
        (c.IsEnumeration → c.enumValues.AreLiterals) := by
  constructor
  · rintro ⟨text, h⟩
    rw [columnType] at h
    split at h
    · split at h
      · next s htype =>
          split at h
          · next type hname =>
              have hs : c.type = .str type.name := by rw [htype, DataType.name_of_ofName? hname]
              exact ⟨⟨type, hs⟩, (exists_knownType_iff hs).1 ⟨text, h⟩⟩
          · cases h
      · cases h
    · cases h
  · rintro ⟨⟨type, htype⟩, hmembers⟩
    obtain ⟨text, htext⟩ := (exists_knownType_iff htype).2 hmembers
    refine ⟨text, ?_⟩
    rw [columnType, htype]
    simp only [Value.isKey, if_true, DataType.ofName?_name, htext]

theorem exists_columnDefinition_iff {c : Column} {database : Value} {inlineKey : Bool} :
    (∃ text, columnDefinition c database inlineKey = .ok text) ↔ c.HasSql := by
  simp only [columnDefinition, Except.bind_eq_ok, Except.ok.injEq]
  constructor
  · rintro ⟨-, name, hname, type, htype, -⟩
    obtain ⟨htype, hmembers⟩ := exists_columnType_iff.1 ⟨type, htype⟩
    exact ⟨exists_quoteIdentifier_iff.1 ⟨name, hname⟩, htype, hmembers⟩
  · intro h
    obtain ⟨name, hname⟩ := exists_quoteIdentifier_iff.2 h.name
    obtain ⟨type, htype⟩ := exists_columnType_iff.2 ⟨h.type, h.members⟩
    exact ⟨_, name, hname, type, htype, rfl⟩

/-! ## Tables -/

theorem exists_createTable_iff {t : Table} {database : Value} :
    (∃ text, createTable t database = .ok text) ↔ t.HasSql := by
  have hcolumns : ∀ inlineKey,
      (∃ columns, (t.columns.mapM fun c => columnDefinition c database inlineKey) = .ok columns) ↔
        ∀ c ∈ t.columns, c.HasSql := fun inlineKey => by
    rw [exists_mapM_eq_ok_iff]
    exact forall₂_congr fun c _ => exists_columnDefinition_iff
  -- the key names columns of the table, whose names can be written if the columns can
  have hkeys : (∀ c ∈ t.columns, c.HasSql) → ∃ keys,
      ((keyColumns t).mapM fun c => quoteIdentifier c.name database) = .ok keys := fun h =>
    exists_mapM_eq_ok_iff.2 fun c hc =>
      exists_quoteIdentifier_iff.2 (h c (List.mem_of_mem_filter hc)).name
  have hsql : t.HasSql ↔ (∃ s, t.name = .str s) ∧ ∀ c ∈ t.columns, c.HasSql :=
    ⟨fun h => ⟨h.name, h.columns⟩, fun h => ⟨h.1, h.2⟩⟩
  have hname : (∃ text, quoteIdentifier t.name database = .ok text) ↔ ∃ s, t.name = .str s :=
    exists_quoteIdentifier_iff
  rw [createTable, hsql, ← hname]
  cases decide (1 < (keyColumns t).length) with
  | true =>
      simp only [if_true, Except.bind_eq_ok]
      constructor
      · rintro ⟨-, columns, hdefs, -, -, -, -, name, hname, -⟩
        exact ⟨⟨name, hname⟩, (hcolumns _).1 ⟨columns, hdefs⟩⟩
      · rintro ⟨⟨name, hname⟩, h⟩
        obtain ⟨columns, hdefs⟩ := (hcolumns (!true)).2 h
        obtain ⟨keys, hnames⟩ := hkeys h
        exact ⟨_, columns, hdefs, keys, hnames, _, rfl, name, hname, rfl⟩
  | false =>
      simp only [Bool.false_eq_true, if_false, Except.bind_eq_ok]
      constructor
      · rintro ⟨-, columns, hdefs, -, -, name, hname, -⟩
        exact ⟨⟨name, hname⟩, (hcolumns _).1 ⟨columns, hdefs⟩⟩
      · rintro ⟨⟨name, hname⟩, h⟩
        obtain ⟨columns, hdefs⟩ := (hcolumns (!false)).2 h
        exact ⟨_, columns, hdefs, _, rfl, name, hname, rfl⟩

/-! ## Relations -/

/-- Of what can be an identifier only a text has a beginning. -/
theorem exists_constraintName_iff {id : Value} (h : id.isKey = true) :
    (∃ text, constraintName id = .ok text) ↔ ∃ s, id = .str s := by
  cases id with
  | list items => cases h
  | _ => simp [constraintName]

theorem exists_addForeignKey_iff {r : Relation} {source target : Table}
    {sourceColumn targetColumn : Column} {database : Value} (hid : r.id.isKey = true)
    (hsource : source.HasSql) (hsourceColumn : sourceColumn.HasSql) (htarget : target.HasSql)
    (htargetColumn : targetColumn.HasSql) :
    (∃ text, addForeignKey r source sourceColumn target targetColumn database = .ok text) ↔
      ∃ s, r.id = .str s := by
  obtain ⟨sn, hsn⟩ := hsource.name
  obtain ⟨tn, htn⟩ := htarget.name
  obtain ⟨scn, hscn⟩ := hsourceColumn.name
  obtain ⟨tcn, htcn⟩ := htargetColumn.name
  rw [← exists_constraintName_iff hid]
  simp only [addForeignKey, hsn, htn, hscn, htcn, quoteIdentifier, Except.bind_eq_ok]
  constructor
  · rintro ⟨-, -, -, constraint, hconstraint, -⟩
    exact ⟨constraint, hconstraint⟩
  · rintro ⟨constraint, hconstraint⟩
    exact ⟨_, _, rfl, constraint, hconstraint, _, rfl, _, rfl, _, rfl, rfl⟩

section Altered

variable {p : Project} {r : Relation}

/-- Both tables of a relation of a sound project are found, and its columns are among theirs. -/
theorem exists_endTables (h : Sound p.tables p.relations) (hr : r ∈ p.relations) :
    (r.sourceTableId.isKey && r.targetTableId.isKey) = true ∧
      ∃ source ∈ p.tables, ∃ target ∈ p.tables,
        lastTable? p.tables r.sourceTableId = some source ∧
        lastTable? p.tables r.targetTableId = some target ∧
        r.sourceColumnId.canon ∈ source.columnIds.map Value.canon ∧
        r.targetColumnId.canon ∈ target.columnIds.map Value.canon := by
  obtain ⟨source, hsource, hsid, hsc⟩ := h.ends r hr .source
  obtain ⟨target, htarget, htid, htc⟩ := h.ends r hr .target
  refine ⟨?_, source, hsource, target, htarget, lastTable?_eq_some h.tableIds_nodup hsource hsid,
    lastTable?_eq_some h.tableIds_nodup htarget htid, hsc, htc⟩
  rw [show r.sourceTableId = r.tableId .source from rfl, ← Value.isKey_of_canon hsid,
    show r.targetTableId = r.tableId .target from rfl, ← Value.isKey_of_canon htid,
    h.tableId_isKey hsource, h.tableId_isKey htarget, Bool.true_and]

/-- A relation that refers to a column by something that is not a number is left out. -/
theorem alterTable?_of_isNan (h : Sound p.tables p.relations) (hr : r ∈ p.relations)
    (hnan : r.sourceColumnId.isNan = true ∨ r.targetColumnId.isNan = true) :
    alterTable? p r = .ok none := by
  obtain ⟨hkeys, source, -, target, -, hsource, htarget, -⟩ := exists_endTables h hr
  rw [alterTable?, if_pos hkeys, hsource, htarget]
  rcases hnan with hnan | hnan
  · simp only [Table.column?_of_isNan hnan]
  · simp only [Table.column?_of_isNan hnan]
    cases source.column? r.sourceColumnId <;> rfl

/-- Every other relation joins two columns that are found. -/
theorem alterTable?_of_not_isNan (h : Sound p.tables p.relations) (hr : r ∈ p.relations)
    (hsource : r.sourceColumnId.isNan = false) (htarget : r.targetColumnId.isNan = false) :
    ∃ source ∈ p.tables, ∃ sourceColumn ∈ source.columns, ∃ target ∈ p.tables,
      ∃ targetColumn ∈ target.columns, alterTable? p r =
        (addForeignKey r source sourceColumn target targetColumn p.database).map some := by
  obtain ⟨hkeys, source, hsmem, target, htmem, hstable, httable, hsc, htc⟩ := exists_endTables h hr
  obtain ⟨sourceColumn, hscmem, hsfind⟩ := Table.exists_column? hsc hsource
  obtain ⟨targetColumn, htcmem, htfind⟩ := Table.exists_column? htc htarget
  refine ⟨source, hsmem, sourceColumn, hscmem, target, htmem, targetColumn, htcmem, ?_⟩
  rw [alterTable?, if_pos hkeys, hstable, httable]
  simp only [hsfind, htfind]

/-- In a sound project whose tables can be written, a relation can be written or is left out, unless
its identifier is no text. -/
theorem exists_alterTable?_iff (h : Sound p.tables p.relations)
    (htables : ∀ t ∈ p.tables, t.HasSql) (hr : r ∈ p.relations) :
    (∃ text?, alterTable? p r = .ok text?) ↔ r.HasSql := by
  have hid : r.id.isKey = true :=
    h.keys _ (List.mem_append_right _ (List.mem_map_of_mem hr))
  rw [Relation.HasSql]
  cases hsnan : r.sourceColumnId.isNan with
  | true => simp [alterTable?_of_isNan h hr (.inl hsnan)]
  | false =>
      cases htnan : r.targetColumnId.isNan with
      | true => simp [alterTable?_of_isNan h hr (.inr htnan)]
      | false =>
          obtain ⟨source, hsource, sourceColumn, hsc, target, htarget, targetColumn, htc, halter⟩ :=
            alterTable?_of_not_isNan h hr hsnan htnan
          have hsourceSql := htables source hsource
          have htargetSql := htables target htarget
          simp only [forall_const]
          rw [halter, ← exists_addForeignKey_iff hid hsourceSql (hsourceSql.columns _ hsc)
            htargetSql (htargetSql.columns _ htc)]
          cases addForeignKey r source sourceColumn target targetColumn p.database <;>
            simp [Except.map]

end Altered

/-! ## Projects -/

/-- A sound project has a text exactly if its tables and relations can be written. -/
theorem exists_ddl_iff {p : Project} (h : Sound p.tables p.relations) (stamp : Text) :
    (∃ text, ddl p stamp = .ok text) ↔ p.HasSql := by
  simp only [ddl_eq_ok]
  constructor
  · rintro ⟨-, creates, alters, hcreates, -, halters, -⟩
    have htables : ∀ t ∈ p.tables, t.HasSql := fun t ht =>
      exists_createTable_iff.1 (exists_mapM_eq_ok_iff.1 ⟨creates, hcreates⟩ t ht)
    exact ⟨htables, fun r hr =>
      (exists_alterTable?_iff h htables hr).1 (exists_mapM_eq_ok_iff.1 ⟨alters, halters⟩ r hr)⟩
  · intro hsql
    have htables : ∀ t ∈ p.tables, ∃ text, createTable t p.database = .ok text :=
      fun t ht => exists_createTable_iff.2 (hsql.tables t ht)
    obtain ⟨creates, hcreates⟩ := exists_mapM_eq_ok_iff.2 htables
    obtain ⟨alters, halters⟩ := exists_mapM_eq_ok_iff.2 fun r hr =>
      (exists_alterTable?_iff h hsql.tables hr).2 (hsql.relations r hr)
    exact ⟨_, creates, alters, hcreates, fun t ht => h.tableId_isKey ht, halters, rfl⟩

end Sql

end SchemaDesk

import SchemaDesk.Proofs.Sql.Declared
import SchemaDesk.Proofs.Sql.Unreadable

/-!
# Foreign keys by their reference definition

Reading a schema resolves its foreign keys one after the other, and marks the columns of the tables
while it still looks names up in them.  This module defines what the keys of a text resolve to with
the tables left as they were first built: `deferredKeys` lists the keys, `linksOf` the pairs of
columns that one key links.  `parse_resolves` says that reading gives exactly the relations of these
links, and that the tables differ from those first built only in the marks of the relations.

The state of the second pass is tracked by `Resolved`: the links so far determine it.  What carries
the induction is that marks change neither identifiers nor names nor primary keys, so every look-up
in the marked tables finds what it finds in the unmarked ones.
-/

namespace SchemaDesk.Sql

open Minting
open Flags (hinted hinted_id)

/-! ## The reference definition -/

/-- A table as its statement declares it, with the clauses of the statement. -/
structure Built where
  table : Table
  clauses : List Clause

/-- The tables that some statements declare, in their order and without those that have no column.
The number tells how many tables were declared before. -/
def buildAll : Nat → List Statement → Minting (List Built)
  | _, [] => pure []
  | n, .alterTable .. :: rest => buildAll n rest
  | n, .createTable name body options :: rest => do
      let clauses := (splitItems body).map classify
      let table ← buildTable n name clauses options
      if table.columns.isEmpty then buildAll n rest
      else
        let more ← buildAll (n + 1) rest
        pure (⟨table, clauses⟩ :: more)

/-- The foreign keys of a statement that declares a table, each with the table. -/
def Built.keys (b : Built) : List (Table × ForeignKey) :=
  (b.clauses.filterMap Clause.foreignKey?).map (b.table, ·)

/-- The foreign keys that a statement adds to the last table of its name, each with the table. -/
def alterKeys (tables : List Table) : Statement → List (Table × ForeignKey)
  | .createTable .. => []
  | .alterTable name actions =>
      match tableNamed? tables name with
      | some table => (addedKeys actions).map (table, ·)
      | none => []

/-- All foreign keys of a text: first those of the tables, then those that are added to them. -/
def deferredKeys (built : List Built) (found : List Statement) : List (Table × ForeignKey) :=
  built.flatMap Built.keys ++ found.flatMap (alterKeys (built.map Built.table))

/-- Two columns that a foreign key links. -/
structure Link where
  key : ForeignKey
  source : Table
  sourceColumn : Column
  target : Table
  targetColumn : Column

/-- The link between the columns of two names, if both are there. -/
def link? (k : ForeignKey) (source target : Table) (names : Text × Text) : Option Link :=
  match columnNamed? source.columns names.1, columnNamed? target.columns names.2 with
  | some sourceColumn, some targetColumn => some ⟨k, source, sourceColumn, target, targetColumn⟩
  | _, _ => none

/-- The links of a foreign key: its columns are taken together, position by position, with those
that it refers to in the last table of the name it gives. -/
def linksOf (tables : List Table) (key : Table × ForeignKey) : List Link :=
  match tableNamed? tables key.2.targetTable with
  | some target =>
      (key.2.columns.zip (targetNames key.2 target)).filterMap (link? key.2 key.1 target)
  | none => []

/-- All links of a text. -/
def links (built : List Built) (found : List Statement) : List Link :=
  (deferredKeys built found).flatMap (linksOf (built.map Built.table))

/-- The relation of a link. -/
def Link.relation (l : Link) (id : Text) : Relation :=
  linkOf l.key l.source l.sourceColumn l.target l.targetColumn id

/-- The relations of some links, under identifiers drawn one after the other. -/
def relationsOf (ids : IdSupply) (ls : List Link) : List Relation :=
  ls.mapIdx fun i l => l.relation (identifier (ids.drawn + i + 1))

/-! ## Changes that leave the look-ups alone -/

/-- A change of tables that leaves alone what keys are resolved by: the names, and which columns are
primary keys. -/
structure Spares (change : Table → Table) (onColumn : Table → Column → Column) : Prop where
  name : ∀ t, (change t).name = t.name
  columns : ∀ t, (change t).columns = t.columns.map (onColumn t)
  columnName : ∀ t c, (onColumn t c).name = c.name
  isPrimaryKey : ∀ t c, (onColumn t c).isPrimaryKey = c.isPrimaryKey

section Spares

variable {change : Table → Table} {onColumn : Table → Column → Column}

theorem tableNamed?_map (h : Spares change onColumn) (tables : List Table) (name : Text) :
    tableNamed? (tables.map change) name = (tableNamed? tables name).map change := by
  rw [tableNamed?, tableNamed?, ← List.map_reverse, find?_map_of_keeps]
  intro t
  rw [h.name]

theorem columnNamed?_map (h : Spares change onColumn) (t : Table) (name : Text) :
    columnNamed? (change t).columns name = (columnNamed? t.columns name).map (onColumn t) := by
  rw [h.columns, columnNamed?, columnNamed?, find?_map_of_keeps]
  intro c
  rw [h.columnName]

theorem targetNames_map (h : Spares change onColumn) (k : ForeignKey) (t : Table) :
    targetNames k (change t) = targetNames k t := by
  have hkey : ((fun c : Column => c.isPrimaryKey.isTruthy) ∘ onColumn t) =
      fun c => c.isPrimaryKey.isTruthy := by
    funext c
    rw [Function.comp_apply, h.isPrimaryKey]
  have hname : ∀ c, (onColumn t c).name = c.name := h.columnName t
  simp only [targetNames, h.columns, List.filter_map, hkey, List.filterMap_map, Function.comp_def,
    hname]

/-- A declared table that was changed. -/
def Built.map (change : Table → Table) (b : Built) : Built :=
  { b with table := change b.table }

/-- A link between tables that were changed. -/
def Link.map (change : Table → Table) (onColumn : Table → Column → Column) (l : Link) : Link :=
  { l with
    source := change l.source, sourceColumn := onColumn l.source l.sourceColumn
    target := change l.target, targetColumn := onColumn l.target l.targetColumn }

theorem link?_map (h : Spares change onColumn) (k : ForeignKey) (source target : Table)
    (names : Text × Text) :
    link? k (change source) (change target) names =
      (link? k source target names).map (Link.map change onColumn) := by
  rw [link?, link?, columnNamed?_map h, columnNamed?_map h]
  cases columnNamed? source.columns names.1 with
  | none => rfl
  | some sourceColumn => cases columnNamed? target.columns names.2 <;> rfl

theorem linksOf_map (h : Spares change onColumn) (tables : List Table) (key : Table × ForeignKey) :
    linksOf (tables.map change) (change key.1, key.2) =
      (linksOf tables key).map (Link.map change onColumn) := by
  rw [linksOf, linksOf, tableNamed?_map h]
  cases tableNamed? tables key.2.targetTable with
  | none => rfl
  | some target =>
      simp only [Option.map_some, targetNames_map h, List.map_filterMap, link?_map h]

theorem tables_map (change : Table → Table) (built : List Built) :
    (built.map (Built.map change)).map Built.table = (built.map Built.table).map change := by
  rw [List.map_map, List.map_map]
  rfl

theorem deferredKeys_map (h : Spares change onColumn) (built : List Built)
    (found : List Statement) :
    deferredKeys (built.map (Built.map change)) found =
      (deferredKeys built found).map fun key => (change key.1, key.2) := by
  rw [deferredKeys, deferredKeys, List.map_append, List.flatMap_map, List.map_flatMap,
    List.map_flatMap, tables_map]
  congr 1
  · refine List.flatMap_congr fun t _ => ?_
    rw [Built.keys, Built.keys, List.map_map]
    rfl
  · refine List.flatMap_congr fun statement _ => ?_
    cases statement with
    | createTable name body options => rfl
    | alterTable name actions =>
        rw [alterKeys, alterKeys, tableNamed?_map h]
        cases tableNamed? (built.map Built.table) name with
        | none => rfl
        | some t =>
            simp only [Option.map_some, List.map_map]
            rfl

/-- The links of changed tables. -/
theorem links_map (h : Spares change onColumn) (built : List Built) (found : List Statement) :
    links (built.map (Built.map change)) found =
      (links built found).map (Link.map change onColumn) := by
  rw [links, links, deferredKeys_map h, List.flatMap_map, List.map_flatMap, tables_map]
  exact List.flatMap_congr fun key _ => linksOf_map h _ key

end Spares

/-- Marks leave the look-ups alone. -/
theorem spares_hinted (relations : List Relation) :
    Spares (decorate (hinted relations)) fun t => hinted relations t.id := by
  refine ⟨fun _ => rfl, fun _ => rfl, fun t c => ?_, fun t c => ?_⟩
  · rw [hinted]
    cases Flags.lastFrom? relations t.id c.id <;> rfl
  · rw [hinted]
    cases Flags.lastFrom? relations t.id c.id <;> rfl

variable {ids ids' mid : IdSupply} {start : List Table} {done : List Link} {s s' : Linking}

/-! ## The first pass -/

/-- A key as it is kept until all tables are known: with the identifier of its table only. -/
def stored (key : Table × ForeignKey) : Value × ForeignKey :=
  (key.1.id, key.2)

/-- A table without columns is passed over, and any other one is the next that is built. -/
theorem buildAll_createTable_gives {n : Nat} {name body : Text} {options : TableOptions}
    {rest : List Statement} {built : List Built} :
    (buildAll n (.createTable name body options :: rest)).Gives ids built ids' ↔
      ∃ t mid, (buildTable n name ((splitItems body).map classify) options).Gives ids t mid ∧
        (t.columns.isEmpty = true ∧ (buildAll n rest).Gives mid built ids' ∨
          t.columns.isEmpty = false ∧ ∃ more, (buildAll (n + 1) rest).Gives mid more ids' ∧
            built = ⟨t, (splitItems body).map classify⟩ :: more) := by
  rw [buildAll, gives_bind]
  refine exists_congr fun t => exists_congr fun mid => and_congr_right fun _ => ?_
  cases hempty : t.columns.isEmpty with
  | true => simp
  | false => simp [eq_comm]

/-- A table that is built was declared by one of the statements, and has columns. -/
theorem mem_buildAll {n : Nat} {found : List Statement} {built : List Built}
    (h : (buildAll n found).Gives ids built ids') {b : Built} (hb : b ∈ built) :
    b.table.columns ≠ [] ∧ ∃ name body options index before after,
      .createTable name body options ∈ found ∧ b.clauses = (splitItems body).map classify ∧
        (buildTable index name b.clauses options).Gives before b.table after := by
  induction found generalizing n ids built with
  | nil =>
      obtain ⟨rfl, rfl⟩ := gives_pure.1 h
      cases hb
  | cons statement found ih =>
      -- a table of a later statement is declared by that one
      have hlater : ∀ {n : Nat} {ids : IdSupply} {built : List Built},
          (buildAll n found).Gives ids built ids' → b ∈ built →
          b.table.columns ≠ [] ∧ ∃ name body options index before after,
            .createTable name body options ∈ statement :: found ∧
              b.clauses = (splitItems body).map classify ∧
              (buildTable index name b.clauses options).Gives before b.table after := by
        intro n ids built h hb
        obtain ⟨hne, name, body, options, index, before, after, hmem, hrest⟩ := ih h hb
        exact ⟨hne, name, body, options, index, before, after, List.mem_cons_of_mem _ hmem, hrest⟩
      cases statement with
      | alterTable name actions => exact hlater h hb
      | createTable name body options =>
          obtain ⟨t, mid, ht, ⟨-, hrest⟩ | ⟨hcolumns, more, hmore, rfl⟩⟩ :=
            buildAll_createTable_gives.1 h
          · exact hlater hrest hb
          · rcases List.mem_cons.1 hb with rfl | hb
            · exact ⟨List.isEmpty_eq_false_iff.1 hcolumns, name, body, options, n, ids, mid,
                List.mem_cons_self, rfl, ht⟩
            · exact hlater hmore hb

/-- Every statement that declares a column gives a table. -/
theorem exists_built {n : Nat} {found : List Statement} {built : List Built}
    (h : (buildAll n found).Gives ids built ids') {name body : Text} {options : TableOptions}
    (hmem : .createTable name body options ∈ found)
    (hsome : ((splitItems body).map classify).filterMap Clause.column? ≠ []) :
    ∃ b ∈ built, b.clauses = (splitItems body).map classify ∧ ∃ index before after,
      (buildTable index name b.clauses options).Gives before b.table after := by
  induction found generalizing n ids built with
  | nil => cases hmem
  | cons statement found ih =>
      rcases List.mem_cons.1 hmem with rfl | hlater
      · obtain ⟨t, mid, ht, ⟨hempty, -⟩ | ⟨-, more, -, rfl⟩⟩ := buildAll_createTable_gives.1 h
        · -- a table without columns has no clause of a column
          obtain ⟨columns, _, hcolumns, rfl, -⟩ := buildTable_gives.1 ht
          obtain rfl := List.map_eq_nil_iff.1 (List.isEmpty_iff.1 hempty)
          exact absurd (List.forall₂_nil_right_iff.1 (buildColumns_drawn hcolumns).2) hsome
        · exact ⟨_, List.mem_cons_self, rfl, n, ids, mid, ht⟩
      · cases statement with
        | alterTable other actions => exact ih h hlater
        | createTable other otherBody otherOptions =>
            obtain ⟨t, mid, -, ⟨-, hrest⟩ | ⟨-, more, hmore, rfl⟩⟩ :=
              buildAll_createTable_gives.1 h
            · exact ih hrest hlater
            · obtain ⟨b, hb, hclauses, hbuild⟩ := ih hmore hlater
              exact ⟨b, List.mem_cons_of_mem _ hb, hclauses, hbuild⟩

/-- The first pass builds the tables that the statements declare, and collects their keys. -/
theorem drafted_built {found : List Statement} {d d' : Draft}
    (h : (found.foldlM Draft.add d).Gives ids d' ids') :
    ∃ built, (buildAll d.tables.length found).Gives ids built ids' ∧
      d'.tables = d.tables ++ built.map Built.table ∧
      d'.keys = d.keys ++ (built.flatMap Built.keys).map stored := by
  induction found generalizing ids d with
  | nil =>
      obtain ⟨rfl, rfl⟩ := gives_pure.1 h
      exact ⟨[], gives_pure.2 ⟨rfl, rfl⟩, by simp, by simp⟩
  | cons statement found ih =>
      rw [List.foldlM_cons] at h
      obtain ⟨d₁, mid, hadd, hrest⟩ := gives_bind.1 h
      obtain ⟨built, hbuilt, htables, hkeys⟩ := ih hrest
      cases statement with
      | alterTable name actions =>
          obtain ⟨rfl, rfl⟩ := gives_pure.1 hadd
          exact ⟨built, hbuilt, htables, hkeys⟩
      | createTable name body options =>
          obtain ⟨t, ht, rfl⟩ := Draft.add_createTable_gives.1 hadd
          rw [Draft.with] at hbuilt htables hkeys
          -- a table without columns is only noted, and takes no place among the tables
          cases hempty : t.columns.isEmpty with
          | true =>
              rw [if_pos hempty] at hbuilt htables hkeys
              exact ⟨built, buildAll_createTable_gives.2 ⟨t, mid, ht, .inl ⟨hempty, hbuilt⟩⟩,
                htables, hkeys⟩
          | false =>
              rw [hempty, if_neg Bool.false_ne_true] at hbuilt htables hkeys
              rw [List.length_append, List.length_singleton] at hbuilt
              refine ⟨⟨t, (splitItems body).map classify⟩ :: built, buildAll_createTable_gives.2
                ⟨t, mid, ht, .inr ⟨hempty, built, hbuilt, rfl⟩⟩, ?_, ?_⟩
              · rw [htables, List.append_assoc, List.singleton_append, List.map_cons]
              · rw [hkeys, List.append_assoc, List.flatMap_cons, List.map_append, Built.keys,
                  List.map_map]
                rfl

theorem laterKeys_eq (tables : List Table) (found : List Statement) :
    found.flatMap (laterKeys tables) = (found.flatMap (alterKeys tables)).map stored := by
  rw [List.map_flatMap]
  refine List.flatMap_congr fun statement _ => ?_
  cases statement with
  | createTable name body options => rfl
  | alterTable name actions =>
      rw [laterKeys, alterKeys]
      cases tableNamed? tables name with
      | none => rfl
      | some table =>
          simp only [List.map_map]
          rfl

/-- The tables of all keys are among those that were built. -/
theorem mem_of_deferred {built : List Built} {found : List Statement} {key : Table × ForeignKey}
    (h : key ∈ deferredKeys built found) : key.1 ∈ built.map Built.table := by
  rcases List.mem_append.1 h with h | h
  · obtain ⟨b, hb, hkey⟩ := List.mem_flatMap.1 h
    obtain ⟨k, -, rfl⟩ := List.mem_map.1 hkey
    exact List.mem_map_of_mem hb
  · obtain ⟨statement, -, hkey⟩ := List.mem_flatMap.1 h
    cases statement with
    | createTable name body options => exact absurd hkey List.not_mem_nil
    | alterTable name actions =>
        rw [alterKeys] at hkey
        cases htable : tableNamed? (built.map Built.table) name with
        | none => simp [htable] at hkey
        | some table =>
            simp only [htable, List.mem_map] at hkey
            obtain ⟨k, -, rfl⟩ := hkey
            exact List.mem_reverse.1 (List.mem_of_find?_eq_some htable)

/-! ## The second pass -/

/-- A state of the second pass: the links so far determine it. -/
structure Resolved (mid : IdSupply) (start : List Table) (done : List Link) (ids : IdSupply)
    (s : Linking) : Prop where
  relations : s.relations = relationsOf mid done
  tables : s.tables = start.map (decorate (hinted s.relations))
  ids : ids = ⟨mid.drawn + done.length⟩

/-- Tables whose identifiers can be told apart: they are text and all different. -/
structure Distinct (tables : List Table) : Prop where
  tableId : ∀ t ∈ tables, ∃ i, t.id = .str i
  columnId : ∀ t ∈ tables, ∀ c ∈ t.columns, ∃ i, c.id = .str i
  nodup : (tables.map (·.id.canon)).Nodup

theorem Declares.distinct {before after : IdSupply} {tables : List Table}
    {relations : List Relation} (h : Declares before after tables relations) : Distinct tables :=
  ⟨fun _ => h.tableId, fun _ ht _ hc => h.columnId ht (List.mem_map_of_mem hc),
    h.sound.tableIds_nodup⟩

theorem relationsOf_append (l : Link) :
    relationsOf mid (done ++ [l]) =
      relationsOf mid done ++ [l.relation (identifier (mid.drawn + done.length + 1))] := by
  rw [relationsOf, List.mapIdx_append, List.mapIdx_singleton, Nat.zero_add, relationsOf]

theorem lastFrom?_append_singleton (relations : List Relation) (r : Relation) (t c : Value) :
    Flags.lastFrom? (relations ++ [r]) t c =
      if r.startsAt t c then some r else Flags.lastFrom? relations t c := by
  rw [Flags.lastFrom?_append]
  by_cases hstarts : r.startsAt t c = true
  · simp [Flags.lastFrom?, hstarts]
  · simp [Flags.lastFrom?, hstarts]

/-- Marking the start of one more relation gives a column the mark of the last one that starts
there, as `hinted` has it. -/
theorem linkedAt_hinted (relations : List Relation) (l : Link) (id : Text) {t : Value} {c : Column}
    (ht : ∃ i, t = .str i) (hc : ∃ i, c.id = .str i) :
    linkedAt l.source.id l.sourceColumn.id l.target l.targetColumn t (hinted relations t c) =
      hinted (relations ++ [l.relation id]) t c := by
  obtain ⟨i, rfl⟩ := ht
  obtain ⟨j, hj⟩ := hc
  -- identifiers that are text are equal exactly when they are the same
  have hstarts : (Value.equals (.str i) l.source.id && Value.equals (.str j) l.sourceColumn.id) =
      (l.relation id).startsAt (.str i) c.id := by
    rw [Bool.eq_iff_iff, Relation.startsAt_iff, Link.relation, linkOf, hj, Bool.and_eq_true,
      Value.equals_iff, Value.equals_iff]
    simp [Value.isNan, eq_comm]
  rw [linkedAt, hinted_id, hj, hstarts]
  rw [hinted, hinted, lastFrom?_append_singleton]
  split
  · cases Flags.lastFrom? relations (.str i) c.id <;> rfl
  · rfl

/-- Marking one more relation in all tables. -/
theorem changeColumnIn_hinted (hstart : Distinct start) (relations : List Relation) (l : Link)
    (id : Text) :
    changeColumnIn (start.map (decorate (hinted relations))) l.source.id l.sourceColumn.id
        (linkedColumn l.target l.targetColumn) =
      start.map (decorate (hinted (relations ++ [l.relation id]))) := by
  rw [changeColumnIn_linked, Flags.mapColumns_eq, List.map_map]
  refine List.map_congr_left fun t ht => ?_
  simp only [Function.comp_apply, decorate, List.map_map]
  congr 1
  refine List.map_congr_left fun c hc => ?_
  exact linkedAt_hinted relations l id (hstart.tableId t ht) (hstart.columnId t ht c hc)

/-- One pair of names adds the link between the columns of these names, if they are there. -/
theorem link_resolved {k : ForeignKey} {source target : Table} {names : Text × Text}
    {marks : List Relation} (hstart : Distinct start) (hs : Resolved mid start done ids s)
    (h : (Linking.link k (decorate (hinted marks) source) (decorate (hinted marks) target) s
      names).Gives ids s' ids') :
    Resolved mid start (done ++ (link? k source target names).toList) ids' s' := by
  have hcolumn := columnNamed?_map (spares_hinted marks)
  rcases Linking.link_gives.1 h with ⟨sc, tc, hsc, htc, rfl, rfl⟩ | ⟨hnone, rfl, rfl⟩
  · -- the columns were found with their marks; without them they make the same link
    rw [hcolumn, Option.map_eq_some_iff] at hsc htc
    obtain ⟨c, hc, rfl⟩ := hsc
    obtain ⟨d, hd, rfl⟩ := htc
    have hlink : link? k source target names = some ⟨k, source, c, target, d⟩ := by
      rw [link?, hc, hd]
    have hrelation : linkOf k (decorate (hinted marks) source) (hinted marks source.id c)
        (decorate (hinted marks) target) (hinted marks target.id d) (identifier (ids.drawn + 1)) =
        Link.relation ⟨k, source, c, target, d⟩ (identifier (ids.drawn + 1)) := by
      simp only [Link.relation, linkOf, decorate, hinted_id]
    have hmarked : linkedColumn (decorate (hinted marks) target) (hinted marks target.id d) =
        linkedColumn target d := by
      funext e
      rw [linkedColumn, linkedColumn, hinted_id]
      rfl
    rw [hlink, Option.toList_some]
    refine ⟨?_, ?_, ?_⟩
    · rw [hrelation, relationsOf_append, hs.relations, hs.ids]
    · rw [hrelation, hmarked, hinted_id, hs.tables]
      exact changeColumnIn_hinted hstart s.relations ⟨k, source, c, target, d⟩ _
    · rw [hs.ids, List.length_append, List.length_singleton, Nat.add_assoc]
  · have hlink : link? k source target names = none := by
      rw [hcolumn, hcolumn, Option.map_eq_none_iff, Option.map_eq_none_iff] at hnone
      rw [link?]
      rcases hnone with hnone | hnone
      · rw [hnone]
      · rw [hnone]
        cases columnNamed? source.columns names.1 <;> rfl
    rw [hlink, Option.toList_none, List.append_nil]
    exact hs

/-- The pairs of names of a key add their links one after the other. -/
theorem links_resolved {k : ForeignKey} {source target : Table} {pairs : List (Text × Text)}
    {marks : List Relation} (hstart : Distinct start) (hs : Resolved mid start done ids s)
    (h : (pairs.foldlM (Linking.link k (decorate (hinted marks) source)
      (decorate (hinted marks) target)) s).Gives ids s' ids') :
    Resolved mid start (done ++ pairs.filterMap (link? k source target)) ids' s' := by
  induction pairs generalizing done s ids with
  | nil =>
      obtain ⟨rfl, rfl⟩ := gives_pure.1 h
      rw [List.filterMap_nil, List.append_nil]
      exact hs
  | cons names pairs ih =>
      rw [List.foldlM_cons] at h
      obtain ⟨s₁, ids₁, hlink, hrest⟩ := gives_bind.1 h
      have hdone := ih (link_resolved hstart hs hlink) hrest
      rw [List.append_assoc] at hdone
      rw [List.filterMap_cons]
      cases hnames : link? k source target names with
      | none => rwa [hnames] at hdone
      | some l => rwa [hnames] at hdone

/-- A key adds its links: its table is found by its identifier, and the table that it refers to by
its name, with whatever marks they have by then. -/
theorem resolve_resolved {key : Table × ForeignKey} (hstart : Distinct start) (hkey : key.1 ∈ start)
    (hs : Resolved mid start done ids s) (h : (s.resolve (stored key)).Gives ids s' ids') :
    Resolved mid start (done ++ linksOf start key) ids' s' := by
  -- marks change neither the identifiers nor the names by which tables are found
  have hsource : s.tables.find? (·.id.equals key.1.id) =
      some (decorate (hinted s.relations) key.1) := by
    obtain ⟨i, hi⟩ := hstart.tableId key.1 hkey
    have hkeeps : ∀ t, (decorate (hinted s.relations) t).id.equals key.1.id =
        t.id.equals key.1.id := fun _ => rfl
    rw [hs.tables, find?_map_of_keeps hkeeps, Option.map_eq_some_iff]
    refine ⟨key.1, find?_eq_of_unique hkey ?_ fun t ht hequals => ?_, rfl⟩
    · rw [hi]
      exact Value.equals_iff.2 ⟨rfl, rfl⟩
    · exact table_unique hstart.nodup ht hkey (Value.canon_of_equals hequals)
  have htarget : tableNamed? s.tables (stored key).2.targetTable =
      (tableNamed? start key.2.targetTable).map (decorate (hinted s.relations)) := by
    rw [hs.tables]
    exact tableNamed?_map (spares_hinted _) start _
  rw [linksOf]
  rcases Linking.resolve_gives.1 h with ⟨source, target, hs₁, ht₁, hfold⟩ | ⟨hnone, rfl, rfl⟩
  · cases hs₁.symm.trans hsource
    rw [ht₁] at htarget
    obtain ⟨t, ht, rfl⟩ := Option.map_eq_some_iff.1 htarget.symm
    rw [ht]
    rw [targetNames_map (spares_hinted _)] at hfold
    exact links_resolved hstart hs hfold
  · rcases hnone with hnone | hnone
    · cases hnone.symm.trans hsource
    · rw [htarget, Option.map_eq_none_iff] at hnone
      rw [hnone, List.append_nil]
      exact hs

/-- All keys add their links in order. -/
theorem keys_resolved {keys : List (Table × ForeignKey)} (hstart : Distinct start)
    (hkeys : ∀ key ∈ keys, key.1 ∈ start) (hs : Resolved mid start done ids s)
    (h : ((keys.map stored).foldlM Linking.resolve s).Gives ids s' ids') :
    Resolved mid start (done ++ keys.flatMap (linksOf start)) ids' s' := by
  induction keys generalizing done s ids with
  | nil =>
      obtain ⟨rfl, rfl⟩ := gives_pure.1 h
      rw [List.flatMap_nil, List.append_nil]
      exact hs
  | cons key keys ih =>
      rw [List.map_cons, List.foldlM_cons] at h
      obtain ⟨s₁, ids₁, hresolve, hrest⟩ := gives_bind.1 h
      rw [List.forall_mem_cons] at hkeys
      have hfirst := resolve_resolved hstart hkeys.1 hs hresolve
      rw [List.flatMap_cons, ← List.append_assoc]
      exact ih hkeys.2 hfirst hrest

/-! ## The whole reading -/

/-- An end of a declared relation is a column of a declared table, under the same identifiers. -/
theorem Declares.end_mem {before after : IdSupply} {tables : List Table}
    {relations : List Relation} (h : Declares before after tables relations) {r : Relation}
    (hr : r ∈ relations) (side : Side) :
    ∃ t ∈ tables, ∃ c ∈ t.columns, r.tableId side = t.id ∧ r.columnId side = c.id := by
  obtain ⟨t, ht, htable, hcolumn⟩ := h.ends r hr side
  obtain ⟨id, hid, hcanon⟩ := List.mem_map.1 hcolumn
  obtain ⟨c, hc, rfl⟩ := List.mem_map.1 hid
  exact ⟨t, ht, c, hc, (Value.eq_of_canon (h.tableId ht) htable).symm,
    (Value.eq_of_canon (h.columnId ht hid) hcanon).symm⟩

/-- The reading builds tables, draws the relations of the links between them, and marks these. -/
theorem parse_links {sql : Text} {parsed : Parsed} (h : (parse sql).Gives ids parsed ids') :
    ∃ built mid, (buildAll 0 (statements sql)).Gives ids built mid ∧
      parsed.relations = relationsOf mid (links built (statements sql)) ∧
      ids' = ⟨mid.drawn + (links built (statements sql)).length⟩ ∧
      parsed.tables = (built.map Built.table).map (decorate (hinted parsed.relations)) := by
  obtain ⟨draft, mid, hdraft, h⟩ := gives_bind.1 h
  obtain ⟨linked, last, hlinked, h⟩ := gives_bind.1 h
  obtain ⟨rfl, rfl⟩ := gives_pure.1 h
  have hstart := (drafted_declares hdraft).distinct
  obtain ⟨built, hbuilt, htables, hkeys⟩ := drafted_built hdraft
  rw [List.nil_append] at htables hkeys
  rw [htables] at hstart hlinked
  rw [hkeys, laterKeys_eq, ← List.map_append] at hlinked
  -- before the first key nothing is marked
  have hnone : ∀ t ∈ built.map Built.table, decorate (hinted []) t = t :=
    fun t _ => congrArg (fun cs => { t with columns := cs }) (List.map_id' t.columns)
  have hbegin : Resolved mid (built.map Built.table) [] mid ⟨built.map Built.table, []⟩ := by
    refine ⟨rfl, ?_, rfl⟩
    rw [List.map_congr_left hnone, List.map_id']
  have hend := keys_resolved hstart (fun _ => mem_of_deferred) hbegin hlinked
  exact ⟨built, mid, hbuilt, hend.relations, hend.ids, hend.tables⟩

/-- A text that declares one table with one column, which refers to nothing, is read if the
arguments of its type are. -/
theorem exists_parse_column {sql name body : Text} {options : TableOptions}
    {clause : ColumnClause} {arguments : TypeArguments}
    (hstatements : statements sql = [.createTable name body options])
    (hclauses : (splitItems body).map classify = [.column clause])
    (harguments : typeArguments (typeOf clause.rawType) clause.arguments = .ok arguments)
    (hreferences : clause.references = none) (ids : IdSupply) :
    ∃ parsed ids' t id, (parse sql).Gives ids parsed ids' ∧ parsed.tables = [t] ∧
      t.name = .str name ∧ t.columns = [keyed [.column clause] (columnOf clause arguments id)] := by
  have hreadable : (numerals sql).findSome? unreadable? = none := by
    have hnumerals : numerals sql = clause.numerals := by
      rw [numerals, hstatements, List.flatMap_singleton, Statement.numerals, hclauses]
      exact List.append_nil _
    rw [hnumerals, ColumnClause.numerals, ← typeArguments_failure, harguments]
    rfl
  have hfails := parse_failsWith sql
  rw [hreadable] at hfails
  obtain ⟨parsed, ids', hparsed⟩ := hfails.gives ids
  obtain ⟨built, mid, hbuilt, hrelations, -, htables⟩ := parse_links hparsed
  rw [hstatements] at hbuilt hrelations
  obtain ⟨t, mid₁, ht, hrest⟩ := buildAll_createTable_gives.1 hbuilt
  rw [hclauses] at ht hrest
  obtain ⟨columns, last, hcolumns, rfl, rfl⟩ := buildTable_gives.1 ht
  obtain ⟨c, cs, ⟨_, id, hsame, rfl⟩, hnil, rfl⟩ :=
    List.forall₂_cons_left_iff.1 (buildColumns_drawn hcolumns).2
  obtain rfl := List.forall₂_nil_left_iff.1 hnil
  obtain rfl := Except.ok.inj (hsame.symm.trans harguments)
  obtain ⟨hempty, -⟩ | ⟨-, more, hmore, rfl⟩ := hrest
  · cases hempty
  · obtain ⟨rfl, rfl⟩ := gives_pure.1 hmore
    have hnone : parsed.relations = [] := by
      rw [hrelations, links, deferredKeys, List.flatMap_singleton, Built.keys, List.filterMap_cons,
        Clause.foreignKey?, hreferences]
      rfl
    rw [hnone] at htables
    exact ⟨parsed, ids', _, id, hparsed, htables, rfl, rfl⟩

/-- Reading a text resolves its foreign keys as they resolve against the tables that were first
built, which differ from the tables that are given in the marks of the relations only.  All
identifiers are different, and every end of a relation is a column that is given. -/
theorem parse_resolves {sql : Text} {parsed : Parsed} (h : (parse sql).Gives ids parsed ids') :
    ∃ built mid, (buildAll 0 (statements sql)).Gives ids built mid ∧
      parsed.relations = relationsOf mid (links built (statements sql)) ∧
      ids' = ⟨mid.drawn + (links built (statements sql)).length⟩ ∧
      parsed.tables = (built.map Built.table).map (decorate (hinted parsed.relations)) ∧
      (parsed.tables.map Table.id ++ parsed.tables.flatMap Table.columnIds ++
        parsed.relations.map Relation.id).Nodup ∧
      ∀ r ∈ parsed.relations, ∀ side, ∃ t ∈ parsed.tables, ∃ c ∈ t.columns,
        r.tableId side = t.id ∧ r.columnId side = c.id := by
  obtain ⟨built, mid, hbuilt, hrelations, hids, htables⟩ := parse_links h
  have hdeclares := parse_declares h
  exact ⟨built, mid, hbuilt, hrelations, hids, htables, hdeclares.allIds.nodup,
    fun r hr side => hdeclares.end_mem hr side⟩

/-- A text with a key of two columns that refers to the primary key of a table declared later, with
a table that is declared twice, and with keys that refer to their own tables. -/
def intertwinedKeys : Text :=
  "CREATE TABLE orders (id INT PRIMARY KEY, shop INT, no INT, " ++
      "FOREIGN KEY (shop, no) REFERENCES Slots); " ++
    "CREATE TABLE slots (shop INT PRIMARY KEY); " ++
    "CREATE TABLE Slots (shop INT, no INT, prior INT REFERENCES slots(NO), " ++
      "PRIMARY KEY (shop, no)); " ++
    "ALTER TABLE ORDERS ADD FOREIGN KEY (no) REFERENCES orders(ID) ON DELETE CASCADE;"

/-- All of these keys resolve, two of them at the same column. -/
theorem parse_resolves_intertwined :
    ∃ parsed, (parse intertwinedKeys).Gives {} parsed ⟨14⟩ ∧
      ∃ built mid, (buildAll 0 (statements intertwinedKeys)).Gives {} built mid ∧
        parsed.relations = relationsOf mid (links built (statements intertwinedKeys)) ∧
        ⟨14⟩ = IdSupply.mk (mid.drawn + (links built (statements intertwinedKeys)).length) ∧
        parsed.tables = (built.map Built.table).map (decorate (hinted parsed.relations)) ∧
        (parsed.tables.map Table.id ++ parsed.tables.flatMap Table.columnIds ++
          parsed.relations.map Relation.id).Nodup ∧
        ∀ r ∈ parsed.relations, ∀ side, ∃ t ∈ parsed.tables, ∃ c ∈ t.columns,
          r.tableId side = t.id ∧ r.columnId side = c.id := by
  have hread : ((parse intertwinedKeys).runFrom {}).1.isOk = true ∧
      ((parse intertwinedKeys).runFrom {}).2 = ⟨14⟩ := by
    rw [intertwinedKeys]
    repeat rw [Text.ofString_ofList]
    decide +kernel
  obtain ⟨parsed, hparse⟩ := gives_of_isOk hread.1 hread.2
  exact ⟨parsed, hparse, parse_resolves hparse⟩

end SchemaDesk.Sql

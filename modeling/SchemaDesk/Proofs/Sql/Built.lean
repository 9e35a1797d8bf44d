import Mathlib.Data.List.Forall2
import SchemaDesk.Proofs.Drawn
import SchemaDesk.Proofs.Schema.Settled
import SchemaDesk.Sql.Parsed

/-!
# What the steps of reading a schema give

Each step of `Sql.parse` draws identifiers and builds a record from them.  This module states for
each step which record that is: a column from its clause, a table from its statement, a relation
from a foreign key whose columns were found.

Marking keys on the columns of a table is a map over its columns (`withKeys_eq`), and so is marking
the start of a relation (`changeColumnIn_eq`).
-/

namespace SchemaDesk.Sql

open Minting

variable {ids ids' : IdSupply}

/-! ## Lists that correspond -/

section Lists

variable {α β γ : Type} {R : α → β → Prop} {xs : List α} {ys : List β}

theorem forall₂_getElem? (h : List.Forall₂ R xs ys) {i : Nat} {x : α} (hx : xs[i]? = some x) :
    ∃ y, ys[i]? = some y ∧ R x y := by
  induction h generalizing i with
  | nil => cases hx
  | cons hr _ ih =>
      cases i with
      | zero =>
          cases hx
          exact ⟨_, rfl, hr⟩
      | succ i => exact ih hx

theorem forall₂_mem_right (h : List.Forall₂ R xs ys) {y : β} (hy : y ∈ ys) : ∃ x ∈ xs, R x y := by
  obtain ⟨i, hi⟩ := List.getElem?_of_mem hy
  obtain ⟨x, hx, hr⟩ := forall₂_getElem? h.flip hi
  exact ⟨x, List.mem_of_getElem? hx, hr⟩

theorem forall₂_map_eq {f : α → γ} {g : β → γ} (h : List.Forall₂ R xs ys)
    (hfg : ∀ x y, R x y → f x = g y) : xs.map f = ys.map g := by
  induction h with
  | nil => rfl
  | cons hr _ ih => rw [List.map_cons, List.map_cons, hfg _ _ hr, ih]

/-- Lists that correspond are passed through alike if their items are. -/
theorem mapM_eq_of_forall₂ {ε : Type} {f : α → Except ε γ} {g : β → Except ε γ}
    (h : List.Forall₂ R xs ys) (hfg : ∀ x y, R x y → g y = f x) : ys.mapM g = xs.mapM f := by
  induction h with
  | nil => rfl
  | cons hr _ ih => rw [List.mapM_cons, List.mapM_cons, hfg _ _ hr, ih]

end Lists

/-! ## Names -/

/-- Only a text is a name, and it is named by what folds to the same. -/
theorem fold_text_of_isNamed {v : Value} {n : Text} (h : v.isNamed n = true) :
    Text.fold v.text = Text.fold n := by
  cases v with
  | str s => exact of_decide_eq_true h
  | _ => cases h

theorem isNamed_str (n : Text) : (Value.str n).isNamed n = true :=
  decide_eq_true rfl

/-! ## Columns -/

/-- The column that a clause declares, given what the arguments of its type say. -/
def columnOf (c : ColumnClause) (arguments : TypeArguments) (id : Text) : Column :=
  { id := id, name := c.name, type := (typeOf c.rawType).name, size := arguments.size,
    precision := arguments.precision, scale := arguments.scale,
    isPrimaryKey := hasPhrase ["PRIMARY", "KEY"] c.modifiers,
    isNullable := !hasPhrase ["NOT", "NULL"] c.modifiers,
    isUnique := hasPhrase ["UNIQUE"] c.modifiers,
    isAutoIncrement :=
      hasPhrase ["AUTO_INCREMENT"] c.modifiers || hasPhrase ["AUTOINCREMENT"] c.modifiers ||
        hasPhrase ["IDENTITY"] c.modifiers || serialTypes.contains c.rawType,
    isUnsigned := hasPhrase ["UNSIGNED"] c.modifiers,
    defaultValue := .ofText? c.defaultValue, comment := .ofText? c.comment,
    enumValues := arguments.enumValues }

/-- A column is built from what the arguments of its type say, under the next identifier. -/
theorem buildColumn_gives {c : ColumnClause} {column : Column} :
    (buildColumn c).Gives ids column ids' ↔
      ∃ arguments, typeArguments (typeOf c.rawType) c.arguments = .ok arguments ∧
        column = columnOf c arguments (identifier (ids.drawn + 1)) ∧ ids' = ⟨ids.drawn + 1⟩ := by
  simp only [buildColumn, gives_bind, gives_ofExcept, gives_mint, gives_pure]
  constructor
  · rintro ⟨arguments, _, ⟨harguments, rfl⟩, _, _, ⟨rfl, rfl⟩, rfl, rfl⟩
    exact ⟨arguments, harguments, rfl, rfl⟩
  · rintro ⟨arguments, harguments, rfl, rfl⟩
    exact ⟨arguments, ids, ⟨harguments, rfl⟩, _, _, ⟨rfl, rfl⟩, rfl, rfl⟩

/-- A column as it was declared: named by text, and not yet a foreign key. -/
structure IsDeclared (c : Column) : Prop where
  name : ∃ s, c.name = .str s
  flag : c.isForeignKey = .bool false
  table : c.referencesTableId = .null
  column : c.referencesColumnId = .null

theorem IsDeclared.cleared_eq {c : Column} (h : IsDeclared c) : Flags.cleared c = c :=
  Flags.cleared_eq h.flag h.table h.column

theorem IsDeclared.isSettled {c : Column} (h : IsDeclared c) : c.IsSettled :=
  .inr h.cleared_eq

theorem columnOf_isDeclared (c : ColumnClause) (arguments : TypeArguments) (id : Text) :
    IsDeclared (columnOf c arguments id) :=
  ⟨⟨_, rfl⟩, rfl, rfl, rfl⟩

/-- The columns of a table are built one after the other, each from its clause. -/
theorem buildColumns_drawn {clauses : List ColumnClause} {columns : List Column}
    (h : (clauses.mapM buildColumn).Gives ids columns ids') :
    DrawnBetween ids ids' (columns.map Column.id) ∧
      List.Forall₂ (fun clause c => ∃ arguments id,
        typeArguments (typeOf clause.rawType) clause.arguments = .ok arguments ∧
          c = columnOf clause arguments id) clauses columns := by
  induction clauses generalizing ids columns with
  | nil =>
      obtain ⟨rfl, rfl⟩ := gives_pure.1 h
      exact ⟨.nil (Nat.le_refl _), .nil⟩
  | cons clause clauses ih =>
      rw [List.mapM_cons] at h
      obtain ⟨column, mid, hcolumn, h⟩ := gives_bind.1 h
      obtain ⟨rest, last, hrest, h⟩ := gives_bind.1 h
      obtain ⟨rfl, rfl⟩ := gives_pure.1 h
      obtain ⟨arguments, harguments, rfl, rfl⟩ := buildColumn_gives.1 hcolumn
      obtain ⟨hdrawn, hbuilt⟩ := ih hrest
      exact ⟨DrawnBetween.one.append hdrawn, .cons ⟨arguments, _, harguments, rfl⟩ hbuilt⟩

/-! ## Keys of tables -/

/-- Marking the columns named by one group after the other marks those named by any. -/
theorem foldl_markColumns (mark : Column → Column) (hname : ∀ c, (mark c).name = c.name)
    (hagain : ∀ c, mark (mark c) = mark c) (groups : List (List Text)) (columns : List Column) :
    groups.foldl (fun cs names => markColumns names mark cs) columns =
      columns.map fun c =>
        if groups.any (·.any (c.name.isNamed ·)) then mark c else c := by
  induction groups generalizing columns with
  | nil => simp
  | cons names groups ih =>
      rw [List.foldl_cons, ih, markColumns, List.map_map]
      refine List.map_congr_left fun c _ => ?_
      rw [Function.comp_apply, List.any_cons]
      by_cases hnames : names.any (c.name.isNamed ·) = true
      · rw [if_pos hnames, hname, hnames, Bool.true_or, if_pos rfl]
        split
        · exact hagain c
        · rfl
      · rw [Bool.not_eq_true] at hnames
        rw [hnames, Bool.false_or, if_neg Bool.false_ne_true]

/-- A column with the keys of its table marked on it. -/
def keyed (clauses : List Clause) (c : Column) : Column :=
  let primary := (clauses.filterMap Clause.primaryKey?).any (·.any (c.name.isNamed ·))
  let unique := (clauses.filterMap Clause.uniqueColumn?).any (c.name.isNamed ·)
  { c with
    isPrimaryKey := if primary then true else c.isPrimaryKey
    isUnique := if unique then true else c.isUnique }

theorem withKeys_eq (clauses : List Clause) (columns : List Column) :
    withKeys clauses columns = columns.map (keyed clauses) := by
  have hprimary := foldl_markColumns (fun c => { c with isPrimaryKey := true })
    (fun _ => rfl) (fun _ => rfl) (clauses.filterMap Clause.primaryKey?) columns
  have hunique := fun cs => foldl_markColumns (fun c => { c with isUnique := true })
    (fun _ => rfl) (fun _ => rfl) ((clauses.filterMap Clause.uniqueColumn?).map ([·])) cs
  simp only [List.foldl_map] at hunique
  rw [withKeys, hprimary, hunique, List.map_map]
  refine List.map_congr_left fun c _ => ?_
  simp only [Function.comp_apply, keyed, List.any_map, List.any_cons, List.any_nil, Bool.or_false,
    Function.comp_def]
  split <;> split <;> simp_all

theorem keyed_isDeclared {clauses : List Clause} {c : Column} (h : IsDeclared c) :
    IsDeclared (keyed clauses c) :=
  ⟨h.name, h.flag, h.table, h.column⟩

/-! ## Tables -/

/-- The table that a statement declares, given its columns without the keys of the table. -/
def tableOf (index : Nat) (name : Text) (clauses : List Clause) (options : TableOptions)
    (columns : List Column) (id : Text) : Table :=
  { id := id, name := name, columns := columns.map (keyed clauses),
    x := .int (index % gridColumns * gridSpacing + gridMargin : Nat),
    y := .int (index / gridColumns * gridSpacing + gridMargin : Nat),
    comment := .ofText? options.comment, engine := .ofText? options.engine,
    charset := .ofText? options.charset, collation := .ofText? options.collation }

/-- A table is built from its columns, under the identifier drawn after theirs. -/
theorem buildTable_gives {index : Nat} {name : Text} {clauses : List Clause}
    {options : TableOptions} {t : Table} :
    (buildTable index name clauses options).Gives ids t ids' ↔
      ∃ columns mid, ((clauses.filterMap Clause.column?).mapM buildColumn).Gives ids columns mid ∧
        t = tableOf index name clauses options columns (identifier (mid.drawn + 1)) ∧
        ids' = ⟨mid.drawn + 1⟩ := by
  simp only [buildTable, gives_bind, gives_mint, gives_pure, withKeys_eq]
  constructor
  · rintro ⟨columns, mid, hcolumns, _, _, ⟨rfl, rfl⟩, rfl, rfl⟩
    exact ⟨columns, mid, hcolumns, rfl, rfl⟩
  · rintro ⟨columns, mid, hcolumns, rfl, rfl⟩
    exact ⟨columns, mid, hcolumns, _, _, ⟨rfl, rfl⟩, rfl, rfl⟩

/-- A draft with one more table of some name. -/
def Draft.with (d : Draft) (name : Text) (clauses : List Clause) (t : Table) : Draft :=
  if t.columns.isEmpty then
    { d with
      skippedClauses := d.skippedClauses ++ clauses.filterMap Clause.skipped?
      emptyTables := d.emptyTables ++ [name] }
  else
    { d with
      skippedClauses := d.skippedClauses ++ clauses.filterMap Clause.skipped?
      tables := d.tables ++ [t]
      keys := d.keys ++ (clauses.filterMap Clause.foreignKey?).map (t.id, ·) }

theorem Draft.add_createTable_gives {d d' : Draft} {name body : Text} {options : TableOptions} :
    (d.add (.createTable name body options)).Gives ids d' ids' ↔
      ∃ t, (buildTable d.tables.length name ((splitItems body).map classify) options).Gives
          ids t ids' ∧ d' = d.with name ((splitItems body).map classify) t := by
  rw [Draft.add]
  simp only [gives_bind]
  constructor
  · rintro ⟨t, mid, ht, h⟩
    split at h
    · next hempty =>
        obtain ⟨rfl, rfl⟩ := gives_pure.1 h
        exact ⟨t, ht, by rw [Draft.with, if_pos hempty]⟩
    · next hempty =>
        obtain ⟨rfl, rfl⟩ := gives_pure.1 h
        exact ⟨t, ht, by rw [Draft.with, if_neg hempty]⟩
  · rintro ⟨t, ht, rfl⟩
    refine ⟨t, ids', ht, ?_⟩
    rw [Draft.with]
    split
    · exact gives_pure.2 ⟨rfl, rfl⟩
    · exact gives_pure.2 ⟨rfl, rfl⟩

/-! ## Relations -/

/-- The column marked as the start of a relation. -/
def linkedColumn (target : Table) (targetColumn c : Column) : Column :=
  { c with
    isForeignKey := true, referencesTableId := target.id, referencesColumnId := targetColumn.id }

/-- The relation that links two columns. -/
def linkOf (k : ForeignKey) (source : Table) (sourceColumn : Column) (target : Table)
    (targetColumn : Column) (id : Text) : Relation :=
  { id := id, sourceTableId := source.id, sourceColumnId := sourceColumn.id,
    targetTableId := target.id, targetColumnId := targetColumn.id,
    onDelete := k.onDelete.name, onUpdate := k.onUpdate.name, name := .ofText? k.name,
    sourceSide := "right", targetSide := "left" }

/-- Linking does something only if both columns are there: then it marks the source column and adds
the relation. -/
theorem Linking.link_gives {k : ForeignKey} {source target : Table} {s s' : Linking}
    {names : Text × Text} :
    (Linking.link k source target s names).Gives ids s' ids' ↔
      (∃ sc tc, columnNamed? source.columns names.1 = some sc ∧
          columnNamed? target.columns names.2 = some tc ∧
          s' = { tables := changeColumnIn s.tables source.id sc.id (linkedColumn target tc)
                 relations := s.relations ++
                   [linkOf k source sc target tc (identifier (ids.drawn + 1))] } ∧
          ids' = ⟨ids.drawn + 1⟩) ∨
        ((columnNamed? source.columns names.1 = none ∨
            columnNamed? target.columns names.2 = none) ∧ s' = s ∧ ids' = ids) := by
  rw [Linking.link]
  cases hsc : columnNamed? source.columns names.1 with
  | none => simp [eq_comm]
  | some sc =>
      cases htc : columnNamed? target.columns names.2 with
      | none => simp [eq_comm]
      | some tc =>
          simp only [gives_bind, gives_mint, gives_pure]
          constructor
          · rintro ⟨_, _, ⟨rfl, rfl⟩, rfl, rfl⟩
            exact .inl ⟨sc, tc, rfl, rfl, rfl, rfl⟩
          · rintro (⟨_, _, hs, ht, rfl, rfl⟩ | ⟨hnone | hnone, -⟩)
            · cases hs
              cases ht
              exact ⟨_, _, ⟨rfl, rfl⟩, rfl, rfl⟩
            · cases hnone
            · cases hnone

/-- A key whose tables are there links its columns one by one; other keys do nothing. -/
theorem Linking.resolve_gives {s s' : Linking} {key : Value × ForeignKey} :
    (s.resolve key).Gives ids s' ids' ↔
      (∃ source target, s.tables.find? (·.id.equals key.1) = some source ∧
          tableNamed? s.tables key.2.targetTable = some target ∧
          ((key.2.columns.zip (targetNames key.2 target)).foldlM
            (Linking.link key.2 source target) s).Gives ids s' ids') ∨
        ((s.tables.find? (·.id.equals key.1) = none ∨
            tableNamed? s.tables key.2.targetTable = none) ∧ s' = s ∧ ids' = ids) := by
  rw [Linking.resolve]
  cases s.tables.find? (·.id.equals key.1) with
  | none => simp [eq_comm]
  | some source =>
      cases tableNamed? s.tables key.2.targetTable with
      | none => simp [eq_comm]
      | some target => simp

/-- Changing one column is changing every column to what it was or to the new one. -/
theorem changeColumnIn_eq (tables : List Table) (tableId columnId : Value)
    (change : Column → Column) :
    changeColumnIn tables tableId columnId change =
      Flags.mapColumns (fun t c => if t.equals tableId && c.id.equals columnId then change c else c)
        tables := by
  rw [changeColumnIn, Flags.mapColumns]
  refine List.map_congr_left fun t _ => ?_
  by_cases ht : t.id.equals tableId = true
  · simp [ht, changeColumn]
  · simp [ht]

/-- What linking does to a column, given the identifier of its table. -/
def linkedAt (tableId columnId : Value) (target : Table) (targetColumn : Column) (t : Value)
    (c : Column) : Column :=
  if t.equals tableId && c.id.equals columnId then linkedColumn target targetColumn c else c

section LinkedAt

variable (tableId columnId : Value) (target : Table) (targetColumn : Column)

theorem linkedAt_id (t : Value) (c : Column) :
    (linkedAt tableId columnId target targetColumn t c).id = c.id := by
  rw [linkedAt]
  split <;> rfl

theorem linkedAt_name (t : Value) (c : Column) :
    (linkedAt tableId columnId target targetColumn t c).name = c.name := by
  rw [linkedAt]
  split <;> rfl

theorem changeColumnIn_linked (tables : List Table) :
    changeColumnIn tables tableId columnId (linkedColumn target targetColumn) =
      Flags.mapColumns (linkedAt tableId columnId target targetColumn) tables :=
  changeColumnIn_eq tables tableId columnId (linkedColumn target targetColumn)

/-- Linking changes no identifier. -/
theorem shape_linked (tables : List Table) :
    (changeColumnIn tables tableId columnId (linkedColumn target targetColumn)).map Table.shape =
      tables.map Table.shape := by
  rw [changeColumnIn_linked]
  exact Flags.shape_mapColumns (linkedAt_id tableId columnId target targetColumn)

end LinkedAt

end SchemaDesk.Sql

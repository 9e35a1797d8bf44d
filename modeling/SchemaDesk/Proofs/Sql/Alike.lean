import SchemaDesk.Proofs.Sql.ClausesAbreast
import SchemaDesk.Proofs.Sql.Order

/-!
# Texts that read alike

Statements are `Alike` when their columns differ at most in default values, comments and the members
of enumerations, and when the clauses that are skipped differ at most in their blanks.  Nothing else
of what a text declares depends on these (`parse_alike`): the same identifiers are drawn, and the
same relations found.  What a column says of them stands in its own item (`parse_columns`).
-/

namespace SchemaDesk

/-- A column without its default value, its comment and its members. -/
def Column.outline (c : Column) : Column :=
  { c with defaultValue := .null, comment := .null, enumValues := .null }

/-- A table whose columns are without default values, comments and members. -/
def Table.outline (t : Table) : Table :=
  { t with columns := t.columns.map Column.outline }

/-- What a text declares, without default values, comments and members of columns. -/
def Parsed.outline (p : Parsed) : Parsed :=
  { p with tables := p.tables.map Table.outline }

/-- All columns that a text declares, in order. -/
def Parsed.columns (p : Parsed) : List Column :=
  p.tables.flatMap Table.columns

theorem Parsed.columns_outline (p : Parsed) : p.outline.columns = p.columns.map Column.outline := by
  rw [Parsed.columns, Parsed.columns, Parsed.outline, List.flatMap_map, List.map_flatMap]
  rfl

namespace Sql

open Minting
open Flags (hinted hinted_id)

/-! ## Statements alike -/

/-- What the arguments of the type of a column say, without its members. -/
def ColumnClause.sizes (c : ColumnClause) : Except Failure TypeArguments :=
  (typeArguments (typeOf c.rawType) c.arguments).map ({ · with enumValues := .null })

/-- Columns that differ at most in their default values, comments and members. -/
structure ColumnClause.Alike (c d : ColumnClause) : Prop where
  name : c.name = d.name
  rawType : c.rawType = d.rawType
  modifiers : c.modifiers = d.modifiers
  references : c.references = d.references
  sizes : c.sizes = d.sizes

/-- Clauses of one kind: columns that are alike, equal keys, or texts that are the same on one
line. -/
inductive Clause.Alike : Clause → Clause → Prop where
  | column {c d : ColumnClause} : c.Alike d → Alike (.column c) (.column d)
  | key {k : Clause} : k.column? = none → Alike k k
  | unrecognized {t u : Text} : t.flattened = u.flattened →
      Alike (.unrecognized t) (.unrecognized u)

/-- The clauses of a table body. -/
def clausesOf (body : Text) : List Clause :=
  (splitItems body).map classify

/-- Statements about one table whose clauses are alike, or which add the same foreign keys. -/
inductive Statement.Alike : Statement → Statement → Prop where
  | createTable {name body body' : Text} {options : TableOptions} :
      List.Forall₂ Clause.Alike (clausesOf body) (clausesOf body') →
      Alike (.createTable name body options) (.createTable name body' options)
  | alterTable {name actions actions' : Text} : addedKeys actions = addedKeys actions' →
      Alike (.alterTable name actions) (.alterTable name actions')

theorem ColumnClause.Alike.refl (c : ColumnClause) : c.Alike c :=
  ⟨rfl, rfl, rfl, rfl, rfl⟩

theorem Clause.Alike.refl (k : Clause) : k.Alike k := by
  cases k with
  | column c => exact .column (.refl c)
  | unrecognized t => exact .unrecognized rfl
  | _ => exact .key rfl

theorem Statement.Alike.refl (s : Statement) : s.Alike s := by
  cases s with
  | createTable => exact .createTable (List.forall₂_same.2 fun k _ => .refl k)
  | alterTable => exact .alterTable rfl

section Clauses

variable {k k' : Clause}

theorem Clause.Alike.primaryKey? (h : k.Alike k') : k.primaryKey? = k'.primaryKey? := by
  cases h <;> rfl

theorem Clause.Alike.uniqueColumn? (h : k.Alike k') : k.uniqueColumn? = k'.uniqueColumn? := by
  cases h <;> rfl

theorem Clause.Alike.foreignKey? (h : k.Alike k') : k.foreignKey? = k'.foreignKey? := by
  cases h with
  | column h => exact h.references
  | key => rfl
  | unrecognized => rfl

theorem Clause.Alike.skipped? (h : k.Alike k') : k.skipped? = k'.skipped? := by
  cases h with
  | column => rfl
  | key => rfl
  | unrecognized h => exact congrArg some h

theorem Clause.Alike.column? (h : k.Alike k') :
    Option.Rel ColumnClause.Alike k.column? k'.column? := by
  cases h with
  | column h => exact .some h
  | key h =>
      rw [h]
      exact .none
  | unrecognized => exact .none

end Clauses

section Lists

variable {α β γ δ : Type} {R : α → β → Prop} {S : γ → δ → Prop} {xs : List α} {ys : List β}

theorem forall₂_filterMap {f : α → Option γ} {g : β → Option δ} (h : List.Forall₂ R xs ys)
    (hfg : ∀ x y, R x y → Option.Rel S (f x) (g y)) :
    List.Forall₂ S (xs.filterMap f) (ys.filterMap g) := by
  induction h with
  | nil => exact .nil
  | cons hr _ ih =>
      rw [List.filterMap_cons, List.filterMap_cons]
      obtain ⟨hx, hy⟩ | ⟨a, b, hx, hy, hab⟩ := rel_cases (hfg _ _ hr)
      · rw [hx, hy]
        exact ih
      · rw [hx, hy]
        exact .cons hab ih

theorem forall₂_filterMap_eq {f : α → Option γ} {g : β → Option γ} (h : List.Forall₂ R xs ys)
    (hfg : ∀ x y, R x y → f x = g y) : xs.filterMap f = ys.filterMap g := by
  induction h with
  | nil => rfl
  | cons hr _ ih => rw [List.filterMap_cons, List.filterMap_cons, hfg _ _ hr, ih]

theorem forall₂_flatMap_eq {f : α → List γ} {g : β → List γ} (h : List.Forall₂ R xs ys)
    (hfg : ∀ x y, R x y → f x = g y) : xs.flatMap f = ys.flatMap g := by
  induction h with
  | nil => rfl
  | cons hr _ ih => rw [List.flatMap_cons, List.flatMap_cons, hfg _ _ hr, ih]

end Lists

/-! ## Tables alike -/

theorem columnOf_outline {c d : ColumnClause} (h : c.Alike d) {arguments arguments' : TypeArguments}
    (hc : typeArguments (typeOf c.rawType) c.arguments = .ok arguments)
    (hd : typeArguments (typeOf d.rawType) d.arguments = .ok arguments') (id : Text) :
    (columnOf c arguments id).outline = (columnOf d arguments' id).outline := by
  have hsizes := h.sizes
  rw [ColumnClause.sizes, ColumnClause.sizes, hc, hd] at hsizes
  have hsame := Except.ok.inj hsizes
  simp only [TypeArguments.mk.injEq] at hsame
  simp only [Column.outline, columnOf, h.name, h.rawType, h.modifiers, hsame]

variable {ids ids' mid mid' : IdSupply}

theorem buildColumns_alike {clauses clauses' : List ColumnClause} {columns columns' : List Column}
    (halike : List.Forall₂ ColumnClause.Alike clauses clauses')
    (h : (clauses.mapM buildColumn).Gives ids columns mid)
    (h' : (clauses'.mapM buildColumn).Gives ids columns' mid') :
    columns.map Column.outline = columns'.map Column.outline ∧ mid = mid' := by
  induction halike generalizing ids columns columns' with
  | nil =>
      obtain ⟨rfl, rfl⟩ := gives_pure.1 h
      obtain ⟨rfl, rfl⟩ := gives_pure.1 h'
      exact ⟨rfl, rfl⟩
  | cons hsame _ ih =>
      rw [List.mapM_cons] at h h'
      obtain ⟨column, mid₁, hcolumn, h⟩ := gives_bind.1 h
      obtain ⟨rest, mid₂, hrest, h⟩ := gives_bind.1 h
      obtain ⟨rfl, rfl⟩ := gives_pure.1 h
      obtain ⟨column', mid₁', hcolumn', h'⟩ := gives_bind.1 h'
      obtain ⟨rest', mid₂', hrest', h'⟩ := gives_bind.1 h'
      obtain ⟨rfl, rfl⟩ := gives_pure.1 h'
      obtain ⟨arguments, harguments, rfl, rfl⟩ := buildColumn_gives.1 hcolumn
      obtain ⟨arguments', harguments', rfl, rfl⟩ := buildColumn_gives.1 hcolumn'
      obtain ⟨hcolumns, hmid⟩ := ih hrest hrest'
      rw [List.map_cons, List.map_cons, hcolumns,
        columnOf_outline hsame harguments harguments']
      exact ⟨rfl, hmid⟩

theorem keyed_alike {clauses clauses' : List Clause}
    (h : List.Forall₂ Clause.Alike clauses clauses') : keyed clauses = keyed clauses' := by
  funext c
  rw [keyed, keyed, forall₂_filterMap_eq h fun _ _ hk => hk.primaryKey?,
    forall₂_filterMap_eq h fun _ _ hk => hk.uniqueColumn?]

/-- Marking the keys of a table does not look at what the outline leaves out. -/
theorem map_keyed_outline (clauses : List Clause) (columns : List Column) :
    (columns.map (keyed clauses)).map Column.outline =
      (columns.map Column.outline).map (keyed clauses) := by
  rw [List.map_map, List.map_map]
  rfl

theorem buildTable_alike {index : Nat} {name : Text} {clauses clauses' : List Clause}
    {options : TableOptions} {t t' : Table} (halike : List.Forall₂ Clause.Alike clauses clauses')
    (h : (buildTable index name clauses options).Gives ids t mid)
    (h' : (buildTable index name clauses' options).Gives ids t' mid') :
    t.outline = t'.outline ∧ mid = mid' := by
  obtain ⟨columns, last, hcolumns, rfl, rfl⟩ := buildTable_gives.1 h
  obtain ⟨columns', last', hcolumns', rfl, rfl⟩ := buildTable_gives.1 h'
  obtain ⟨hsame, rfl⟩ := buildColumns_alike
    (forall₂_filterMap halike fun _ _ hk => hk.column?) hcolumns hcolumns'
  refine ⟨?_, rfl⟩
  simp only [Table.outline, tableOf, keyed_alike halike, map_keyed_outline, hsame]

theorem isEmpty_of_outline {t t' : Table} (h : t.outline = t'.outline) :
    t.columns.isEmpty = t'.columns.isEmpty := by
  have hcolumns := congrArg (fun t : Table => t.columns.isEmpty) h
  simpa only [Table.outline, List.isEmpty_map] using hcolumns

/-- Declared tables with one outline and the same foreign keys. -/
structure Built.Alike (b b' : Built) : Prop where
  table : b.table.outline = b'.table.outline
  keys : b.clauses.filterMap Clause.foreignKey? = b'.clauses.filterMap Clause.foreignKey?

theorem buildAll_alike {n : Nat} {found found' : List Statement} {built built' : List Built}
    (halike : List.Forall₂ Statement.Alike found found')
    (h : (buildAll n found).Gives ids built mid) (h' : (buildAll n found').Gives ids built' mid') :
    List.Forall₂ Built.Alike built built' ∧ mid = mid' := by
  induction halike generalizing n ids built built' with
  | nil =>
      obtain ⟨rfl, rfl⟩ := gives_pure.1 h
      obtain ⟨rfl, rfl⟩ := gives_pure.1 h'
      exact ⟨.nil, rfl⟩
  | cons hsame _ ih =>
      cases hsame with
      | alterTable => exact ih h h'
      | createTable hclauses =>
          obtain ⟨t, mid₁, ht, hrest⟩ := buildAll_createTable_gives.1 h
          obtain ⟨t', mid₁', ht', hrest'⟩ := buildAll_createTable_gives.1 h'
          obtain ⟨houtline, rfl⟩ := buildTable_alike hclauses ht ht'
          have hempty := isEmpty_of_outline houtline
          obtain ⟨hcolumns, hrest⟩ | ⟨hcolumns, more, hmore, rfl⟩ := hrest <;>
            obtain ⟨hcolumns', hrest'⟩ | ⟨hcolumns', more', hmore', rfl⟩ := hrest'
          · exact ih hrest hrest'
          · rw [← hempty, hcolumns] at hcolumns'
            cases hcolumns'
          · rw [← hempty, hcolumns] at hcolumns'
            cases hcolumns'
          · obtain ⟨hbuilt, hmid⟩ := ih hmore hmore'
            exact ⟨.cons ⟨houtline, forall₂_filterMap_eq hclauses fun _ _ hk => hk.foreignKey?⟩
              hbuilt, hmid⟩

/-! ## Links -/

theorem spares_outline : Spares Table.outline fun _ => Column.outline :=
  ⟨fun _ => rfl, fun _ => rfl, fun _ _ => rfl, fun _ _ => rfl⟩

theorem deferredKeys_alike {found found' : List Statement} {built built' : List Built}
    (hfound : List.Forall₂ Statement.Alike found found')
    (hbuilt : List.Forall₂ Built.Alike built built') :
    deferredKeys (built.map (Built.map Table.outline)) found =
      deferredKeys (built'.map (Built.map Table.outline)) found' := by
  have htables : (built.map (Built.map Table.outline)).map Built.table =
      (built'.map (Built.map Table.outline)).map Built.table := by
    rw [List.map_map, List.map_map]
    exact forall₂_map_eq hbuilt fun _ _ hb => hb.table
  rw [deferredKeys, deferredKeys, htables, List.flatMap_map, List.flatMap_map]
  congr 1
  · refine forall₂_flatMap_eq hbuilt fun b b' hb => ?_
    simp only [Built.keys, Built.map, hb.keys, hb.table]
  · refine forall₂_flatMap_eq hfound fun s s' hs => ?_
    cases hs with
    | createTable => rfl
    | alterTable hkeys => rw [alterKeys, alterKeys, hkeys]

theorem relationsOf_outline (ids : IdSupply) (ls : List Link) :
    relationsOf ids (ls.map (Link.map Table.outline fun _ => Column.outline)) =
      relationsOf ids ls := by
  refine List.ext_getElem (by simp [relationsOf]) fun i _ _ => ?_
  simp only [relationsOf, List.getElem_mapIdx, List.getElem_map]
  rfl

theorem relationsOf_alike {found found' : List Statement} {built built' : List Built}
    (hfound : List.Forall₂ Statement.Alike found found')
    (hbuilt : List.Forall₂ Built.Alike built built') (ids : IdSupply) :
    relationsOf ids (links built found) = relationsOf ids (links built' found') ∧
      (links built found).length = (links built' found').length := by
  have hlinks : (links built found).map (Link.map Table.outline fun _ => Column.outline) =
      (links built' found').map (Link.map Table.outline fun _ => Column.outline) := by
    rw [← links_map spares_outline, ← links_map spares_outline, links, links,
      deferredKeys_alike hfound hbuilt, tables_map, tables_map, List.map_map, List.map_map]
    rw [show built.map (Table.outline ∘ Built.table) = built'.map (Table.outline ∘ Built.table) from
      forall₂_map_eq hbuilt fun _ _ hb => hb.table]
  refine ⟨?_, ?_⟩
  · rw [← relationsOf_outline, hlinks, relationsOf_outline]
  · have hlength := congrArg List.length hlinks
    rwa [List.length_map, List.length_map] at hlength

/-! ## Reports and failures -/

/-- The clauses of a statement that are skipped, each on one line. -/
def Statement.skippedClauses : Statement → List Text
  | .createTable _ body _ => (clausesOf body).filterMap Clause.skipped?
  | .alterTable .. => []

theorem drafted_skippedClauses {found : List Statement} {d d' : Draft}
    (h : (found.foldlM Draft.add d).Gives ids d' mid) :
    d'.skippedClauses = d.skippedClauses ++ found.flatMap Statement.skippedClauses := by
  induction found generalizing ids d with
  | nil =>
      obtain ⟨rfl, rfl⟩ := gives_pure.1 h
      rw [List.flatMap_nil, List.append_nil]
  | cons statement found ih =>
      rw [List.foldlM_cons] at h
      obtain ⟨d₁, mid, hadd, hrest⟩ := gives_bind.1 h
      rw [ih hrest, List.flatMap_cons]
      cases statement with
      | alterTable name actions =>
          obtain ⟨rfl, rfl⟩ := gives_pure.1 hadd
          rfl
      | createTable name body options =>
          obtain ⟨t, -, rfl⟩ := Draft.add_createTable_gives.1 hadd
          have hskipped : (d.with name (clausesOf body) t).skippedClauses =
              d.skippedClauses ++ (clausesOf body).filterMap Clause.skipped? := by
            rw [Draft.with]
            split <;> rfl
          rw [← List.append_assoc]
          exact congrArg (· ++ _) hskipped

theorem parse_skippedClauses {sql : Text} {parsed : Parsed} (h : (parse sql).Gives ids parsed mid) :
    parsed.skippedClauses = (statements sql).flatMap Statement.skippedClauses := by
  obtain ⟨draft, mid, hdraft, h⟩ := gives_bind.1 h
  obtain ⟨linked, last, -, h⟩ := gives_bind.1 h
  obtain ⟨rfl, rfl⟩ := gives_pure.1 h
  exact drafted_skippedClauses hdraft

theorem Statement.Alike.skippedClauses {s s' : Statement} (h : s.Alike s') :
    s.skippedClauses = s'.skippedClauses := by
  cases h with
  | createTable hclauses => exact forall₂_filterMap_eq hclauses fun _ _ hk => hk.skipped?
  | alterTable => rfl

theorem Statement.Alike.emptyTable? {s s' : Statement} (h : s.Alike s') :
    emptyTable? s = emptyTable? s' := by
  cases h with
  | @createTable name body body' options hclauses =>
      have hcolumns := forall₂_filterMap hclauses fun _ _ hk => hk.column?
      have hempty : ((clausesOf body).filterMap Clause.column?).isEmpty =
          ((clausesOf body').filterMap Clause.column?).isEmpty := by
        rw [Bool.eq_iff_iff, List.isEmpty_iff_length_eq_zero, List.isEmpty_iff_length_eq_zero,
          hcolumns.length_eq]
      exact congrArg (fun b => if b = true then some name else none) hempty
  | alterTable => rfl

theorem failure_sizes (c : ColumnClause) :
    Failure.of? c.sizes = c.numerals.findSome? unreadable? := by
  rw [ColumnClause.numerals, ← typeArguments_failure, ColumnClause.sizes]
  cases typeArguments (typeOf c.rawType) c.arguments <;> rfl

theorem forall₂_findSome?_eq {α β γ : Type} {R : α → β → Prop} {xs : List α} {ys : List β}
    {f : α → Option γ} {g : β → Option γ} (h : List.Forall₂ R xs ys)
    (hfg : ∀ x y, R x y → f x = g y) : xs.findSome? f = ys.findSome? g := by
  induction h with
  | nil => rfl
  | cons hr _ ih => rw [List.findSome?_cons, List.findSome?_cons, hfg _ _ hr, ih]

theorem Statement.Alike.numerals {s s' : Statement} (h : s.Alike s') :
    s.numerals.findSome? unreadable? = s'.numerals.findSome? unreadable? := by
  cases h with
  | createTable hclauses =>
      simp only [Statement.numerals, findSome?_flatMap]
      refine forall₂_findSome?_eq (forall₂_filterMap hclauses fun _ _ hk => hk.column?)
        fun c d hcd => ?_
      rw [← failure_sizes, ← failure_sizes, hcd.sizes]
  | alterTable => rfl

/-! ## The whole reading -/

theorem decorate_outline (relations : List Relation) (t : Table) :
    (decorate (hinted relations) t).outline = decorate (hinted relations) t.outline := by
  simp only [Table.outline, decorate, List.map_map]
  refine congrArg (fun columns => { t with columns := columns }) ?_
  refine List.map_congr_left fun c _ => ?_
  simp only [Function.comp_apply, hinted, Column.outline]
  cases Flags.lastFrom? relations t.id c.id <;> rfl

/-- Of two texts with statements alike, one can be read if the other can.  Then the same identifiers
are drawn, and both declare the same but for default values, comments and members of columns. -/
theorem parse_alike {sql sql' : Text} {parsed : Parsed} {ids ids' : IdSupply}
    (halike : List.Forall₂ Statement.Alike (statements sql) (statements sql'))
    (h : (parse sql).Gives ids parsed ids') :
    ∃ parsed', (parse sql').Gives ids parsed' ids' ∧ parsed'.outline = parsed.outline := by
  have hfails := parse_failsWith sql ids
  have hfails' := parse_failsWith sql'
  rw [show runFrom (parse sql) ids = (.ok parsed, ids') from h] at hfails
  rw [numerals, findSome?_flatMap, ← forall₂_findSome?_eq halike fun _ _ hs => hs.numerals,
    ← findSome?_flatMap, ← numerals, ← hfails] at hfails'
  obtain ⟨parsed', ids'', h'⟩ := hfails'.gives ids
  obtain ⟨built, mid, hbuilt, hrelations, rfl, htables⟩ := parse_links h
  obtain ⟨built', mid', hbuilt', hrelations', rfl, htables'⟩ := parse_links h'
  obtain ⟨hbuiltAlike, rfl⟩ := buildAll_alike halike hbuilt hbuilt'
  obtain ⟨hsame, hlength⟩ := relationsOf_alike halike hbuiltAlike mid
  rw [← hsame] at hrelations'
  refine ⟨parsed', by rw [hlength]; exact h', ?_⟩
  have houtline : parsed'.tables.map Table.outline = parsed.tables.map Table.outline := by
    rw [htables, htables', hrelations, hrelations']
    simp only [List.map_map, Function.comp_def, decorate_outline]
    exact (forall₂_map_eq hbuiltAlike fun _ _ hb => by rw [hb.table]).symm
  have hempty : parsed'.emptyTables = parsed.emptyTables := by
    rw [parse_emptyTables h, parse_emptyTables h']
    exact (forall₂_filterMap_eq halike fun _ _ hs => hs.emptyTable?).symm
  have hskipped : parsed'.skippedClauses = parsed.skippedClauses := by
    rw [parse_skippedClauses h, parse_skippedClauses h']
    exact (forall₂_flatMap_eq halike fun _ _ hs => hs.skippedClauses).symm
  rw [Parsed.outline, Parsed.outline, houtline, hempty, hskipped, hrelations, hrelations']

/-! ## Columns and their items -/

/-- Whether an item declares a column. -/
def isColumnItem (item : Text) : Bool :=
  (classify item).column?.isSome

/-- The items of a statement that declare columns. -/
def Statement.columnItems : Statement → List Text
  | .createTable _ body _ => (splitItems body).filter isColumnItem
  | .alterTable .. => []

/-- The items of a text that declare columns, in order. -/
def columnItems (sql : Text) : List Text :=
  (statements sql).flatMap Statement.columnItems

/-- The members that a column lists, if it is of a type that has some. -/
def ColumnClause.memberValues (c : ColumnClause) : Value :=
  match typeOf c.rawType with
  | .enum | .set => .list (members c.arguments)
  | _ => .null

/-- A column whose default value, comment and members are those of an item. -/
def DeclaredBy (item : Text) (c : Column) : Prop :=
  ∃ clause, classify item = .column clause ∧ c.defaultValue = .ofText? clause.defaultValue ∧
    c.comment = .ofText? clause.comment ∧ c.enumValues = clause.memberValues

theorem typeArguments_members {c : ColumnClause} {a : TypeArguments}
    (h : typeArguments (typeOf c.rawType) c.arguments = .ok a) : a.enumValues = c.memberValues := by
  rw [ColumnClause.memberValues]
  cases htype : typeOf c.rawType <;> rw [htype] at h <;> simp only [typeArguments] at h ⊢
  case varchar | char | binary =>
    obtain ⟨size, -, h⟩ := Except.bind_eq_ok.1 h
    cases h
    rfl
  case decimal | float =>
    obtain ⟨precision, -, h⟩ := Except.bind_eq_ok.1 h
    obtain ⟨scale, -, h⟩ := Except.bind_eq_ok.1 h
    cases h
    rfl
  all_goals
    cases h
    rfl

theorem forall₂_columnItems (items : List Text) :
    List.Forall₂ (fun item clause => classify item = .column clause)
      (items.filter isColumnItem) ((items.map classify).filterMap Clause.column?) := by
  induction items with
  | nil => exact .nil
  | cons item items ih =>
      rw [List.map_cons, List.filterMap_cons, List.filter_cons, isColumnItem]
      cases hitem : classify item with
      | column clause => exact .cons hitem ih
      | _ => exact ih

theorem forall₂_comp {α β γ : Type} {R : α → β → Prop} {S : β → γ → Prop} {T : α → γ → Prop}
    {xs : List α} {ys : List β} {zs : List γ} (h : List.Forall₂ R xs ys)
    (h' : List.Forall₂ S ys zs) (hT : ∀ {x y z}, R x y → S y z → T x z) :
    List.Forall₂ T xs zs := by
  induction h generalizing zs with
  | nil =>
      cases h'
      exact .nil
  | cons hr _ ih =>
      cases h' with
      | cons hs hrest => exact .cons (hT hr hs) (ih hrest)

theorem buildTable_columns {index : Nat} {name body : Text} {options : TableOptions} {t : Table}
    (h : (buildTable index name (clausesOf body) options).Gives ids t mid) :
    List.Forall₂ DeclaredBy (Statement.createTable name body options).columnItems t.columns := by
  obtain ⟨columns, last, hcolumns, rfl, -⟩ := buildTable_gives.1 h
  refine List.forall₂_map_right_iff.2 (forall₂_comp (forall₂_columnItems (splitItems body))
    (buildColumns_drawn hcolumns).2 ?_)
  rintro item clause c hitem ⟨arguments, id, harguments, rfl⟩
  exact ⟨clause, hitem, rfl, rfl, typeArguments_members harguments⟩

theorem declaredBy_hinted {item : Text} {c : Column} (h : DeclaredBy item c)
    (relations : List Relation) (t : Value) : DeclaredBy item (hinted relations t c) := by
  rw [hinted]
  cases Flags.lastFrom? relations t c.id <;> exact h

theorem buildAll_columns {n : Nat} {found : List Statement} {built : List Built}
    (h : (buildAll n found).Gives ids built mid) (relations : List Relation) :
    List.Forall₂ DeclaredBy (found.flatMap Statement.columnItems)
      (built.flatMap fun b => b.table.columns.map (hinted relations b.table.id)) := by
  induction found generalizing n ids built with
  | nil =>
      obtain ⟨rfl, rfl⟩ := gives_pure.1 h
      exact .nil
  | cons statement found ih =>
      cases statement with
      | alterTable name actions => exact ih h
      | createTable name body options =>
          obtain ⟨t, mid₁, ht, hrest⟩ := buildAll_createTable_gives.1 h
          have hcolumns := buildTable_columns ht
          rw [List.flatMap_cons]
          obtain ⟨hempty, hrest⟩ | ⟨-, more, hmore, rfl⟩ := hrest
          · -- without columns there are no items of columns either
            rw [List.isEmpty_iff.1 hempty, List.forall₂_nil_right_iff] at hcolumns
            rw [hcolumns]
            exact ih hrest
          · refine List.rel_append (List.forall₂_map_right_iff.2 (hcolumns.imp ?_)) (ih hmore)
            exact fun _ _ hc => declaredBy_hinted hc _ _

/-- The columns that are read are declared one by one by the items of the text that are columns. -/
theorem parse_columns {sql : Text} {parsed : Parsed} {ids ids' : IdSupply}
    (h : (parse sql).Gives ids parsed ids') :
    List.Forall₂ DeclaredBy (columnItems sql) parsed.columns := by
  obtain ⟨built, mid, hbuilt, -, -, htables⟩ := parse_links h
  rw [Parsed.columns, htables, List.flatMap_map, List.flatMap_map]
  exact buildAll_columns hbuilt parsed.relations

end Sql

end SchemaDesk

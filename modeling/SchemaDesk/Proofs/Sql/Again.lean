import SchemaDesk.Proofs.Sql.Resolution

/-!
# Reading a text again

A text declares the same every time it is read, under other identifiers.  Identifiers are drawn one
after the other, and how many are drawn depends on the text alone.  So a renaming that takes the
identifiers after one state of the supply to those after another (`Shifts`) takes the tables of one
reading to those of another (`buildAll_again`).

Foreign keys are resolved by names, so renaming the tables renames the links and changes nothing
else (`links_map`).  From both it follows how two readings of a text are related (`parse_again`).
-/

namespace SchemaDesk

/-- A column under another identifier. -/
def Column.under (ρ : Value → Value) (c : Column) : Column :=
  { c with id := ρ c.id }

/-- A table under another identifier, and its columns too. -/
def Table.under (ρ : Value → Value) (t : Table) : Table :=
  { t with id := ρ t.id, columns := t.columns.map (Column.under ρ) }

namespace Sql

open Minting
open Flags (hinted)

variable {a b mid ids ids' : IdSupply} {ρ : Value → Value} {k : Nat}

/-! ## Tables -/

/-- A renaming of the identifiers drawn from one state of the supply on to those drawn from another
state on. -/
def Shifts (a b : IdSupply) (ρ : Value → Value) : Prop :=
  ∀ k, ρ (.str (identifier (a.drawn + k))) = .str (identifier (b.drawn + k))

theorem exists_shifts (a b : IdSupply) : ∃ ρ, Shifts a b ρ := by
  have hinjective : Function.Injective fun k => Value.str (identifier (a.drawn + k)) := by
    intro j k h
    exact Nat.add_left_cancel (identifier_inj.1 (Value.str.inj h))
  exact ⟨Function.extend _ (fun k => Value.str (identifier (b.drawn + k))) id,
    fun k => hinjective.extend_apply _ _ k⟩

theorem buildColumn_again (hρ : Shifts a b ρ) {c : ColumnClause} {column : Column}
    (h : (buildColumn c).Gives ⟨a.drawn + k⟩ column mid) :
    mid = ⟨a.drawn + (k + 1)⟩ ∧
      (buildColumn c).Gives ⟨b.drawn + k⟩ (column.under ρ) ⟨b.drawn + (k + 1)⟩ := by
  obtain ⟨arguments, harguments, rfl, rfl⟩ := buildColumn_gives.1 h
  refine ⟨rfl, buildColumn_gives.2 ⟨arguments, harguments, ?_, rfl⟩⟩
  exact congrArg (fun id => { columnOf c arguments "" with id := id }) (hρ (k + 1))

theorem buildColumns_again (hρ : Shifts a b ρ) {clauses : List ColumnClause}
    {columns : List Column} (h : (clauses.mapM buildColumn).Gives ⟨a.drawn + k⟩ columns mid) :
    ∃ k', mid = ⟨a.drawn + k'⟩ ∧
      (clauses.mapM buildColumn).Gives ⟨b.drawn + k⟩ (columns.map (Column.under ρ))
        ⟨b.drawn + k'⟩ := by
  induction clauses generalizing k columns with
  | nil =>
      obtain ⟨rfl, rfl⟩ := gives_pure.1 h
      exact ⟨k, rfl, gives_pure.2 ⟨rfl, rfl⟩⟩
  | cons clause clauses ih =>
      rw [List.mapM_cons] at h ⊢
      obtain ⟨column, mid₁, hcolumn, h⟩ := gives_bind.1 h
      obtain ⟨rest, mid₂, hrest, h⟩ := gives_bind.1 h
      obtain ⟨rfl, rfl⟩ := gives_pure.1 h
      obtain ⟨rfl, hagain⟩ := buildColumn_again hρ hcolumn
      obtain ⟨k', rfl, hrestAgain⟩ := ih hrest
      exact ⟨k', rfl, gives_bind.2 ⟨_, _, hagain, gives_bind.2 ⟨_, _, hrestAgain,
        gives_pure.2 ⟨rfl, rfl⟩⟩⟩⟩

theorem tableOf_under {index : Nat} {name : Text} {clauses : List Clause} {options : TableOptions}
    {columns : List Column} {id id' : Text} (hid : ρ (.str id) = .str id') :
    (tableOf index name clauses options columns id).under ρ =
      tableOf index name clauses options (columns.map (Column.under ρ)) id' := by
  simp only [Table.under, tableOf, hid, List.map_map]
  rfl

theorem buildTable_again (hρ : Shifts a b ρ) {index : Nat} {name : Text} {clauses : List Clause}
    {options : TableOptions} {t : Table}
    (h : (buildTable index name clauses options).Gives ⟨a.drawn + k⟩ t mid) :
    ∃ k', mid = ⟨a.drawn + k'⟩ ∧
      (buildTable index name clauses options).Gives ⟨b.drawn + k⟩ (t.under ρ) ⟨b.drawn + k'⟩ := by
  obtain ⟨columns, mid₁, hcolumns, rfl, rfl⟩ := buildTable_gives.1 h
  obtain ⟨k', rfl, hagain⟩ := buildColumns_again hρ hcolumns
  refine ⟨k' + 1, rfl, buildTable_gives.2 ⟨_, _, hagain, ?_, rfl⟩⟩
  exact tableOf_under (hρ (k' + 1))

/-- The statements of a text declare the same tables from any state of the supply. -/
theorem buildAll_again (hρ : Shifts a b ρ) {n : Nat} {found : List Statement} {built : List Built}
    (h : (buildAll n found).Gives ⟨a.drawn + k⟩ built mid) :
    ∃ k', mid = ⟨a.drawn + k'⟩ ∧
      (buildAll n found).Gives ⟨b.drawn + k⟩ (built.map (Built.map (Table.under ρ)))
        ⟨b.drawn + k'⟩ := by
  induction found generalizing n k built with
  | nil =>
      obtain ⟨rfl, rfl⟩ := gives_pure.1 h
      exact ⟨k, rfl, gives_pure.2 ⟨rfl, rfl⟩⟩
  | cons statement found ih =>
      cases statement with
      | alterTable name actions => exact ih h
      | createTable name body options =>
          obtain ⟨t, mid₁, ht, hrest⟩ := buildAll_createTable_gives.1 h
          obtain ⟨k₁, rfl, htAgain⟩ := buildTable_again hρ ht
          have hempty : (t.under ρ).columns.isEmpty = t.columns.isEmpty := List.isEmpty_map
          rcases hrest with ⟨hcolumns, hrest⟩ | ⟨hcolumns, more, hmore, rfl⟩
          · obtain ⟨k', rfl, hrestAgain⟩ := ih hrest
            exact ⟨k', rfl, buildAll_createTable_gives.2
              ⟨_, _, htAgain, .inl ⟨hempty.trans hcolumns, hrestAgain⟩⟩⟩
          · obtain ⟨k', rfl, hmoreAgain⟩ := ih hmore
            exact ⟨k', rfl, buildAll_createTable_gives.2
              ⟨_, _, htAgain, .inr ⟨hempty.trans hcolumns, _, hmoreAgain, rfl⟩⟩⟩

/-! ## Links -/

/-- Identifiers make no difference to the look-ups. -/
theorem spares_under (ρ : Value → Value) : Spares (Table.under ρ) fun _ => Column.under ρ :=
  ⟨fun _ => rfl, fun _ => rfl, fun _ _ => rfl, fun _ _ => rfl⟩

/-! ## Two readings -/

/-- Two readings of a text.  A renaming takes the tables of the first to those of the second but for
the marks, and the relations of the second join what relations of the first join. -/
structure SameText (ρ : Value → Value) (first second : Parsed) : Prop where
  tables : second.tables.map Table.bare = (first.tables.map (Table.under ρ)).map Table.bare
  ends : ∀ r' ∈ second.relations, ∃ r ∈ first.relations, ∀ side,
    r'.tableId side = ρ (r.tableId side) ∧ r'.columnId side = ρ (r.columnId side)

theorem bare_under_decorate (relations : List Relation) (t : Table) :
    ((decorate (hinted relations) t).under ρ).bare = (t.under ρ).bare := by
  simp only [Table.bare, Table.under, decorate, List.map_map]
  congr 1
  refine List.map_congr_left fun c _ => ?_
  simp only [Function.comp_apply, Column.under, hinted]
  cases Flags.lastFrom? relations t.id c.id <;> rfl

theorem bare_hinted (relations : List Relation) (t : Table) :
    (decorate (hinted relations) t).bare = t.bare := by
  refine bare_decorate (fun t c => ?_) t
  rw [hinted]
  cases Flags.lastFrom? relations t c.id <;> rfl

/-- A text that is read twice declares the same. -/
theorem parse_again {sql : Text} {first second : Parsed} {first' second' : IdSupply}
    (h : (parse sql).Gives a first first') (h' : (parse sql).Gives b second second') :
    ∃ ρ, SameText ρ first second := by
  obtain ⟨ρ, hρ⟩ := exists_shifts a b
  obtain ⟨built, mid, hbuilt, hrelations, -, htables⟩ := parse_links h
  obtain ⟨built', mid', hbuilt', hrelations', -, htables'⟩ := parse_links h'
  -- the second reading builds what the renaming makes of the first one's tables
  obtain ⟨k', -, hagain⟩ := buildAll_again hρ (k := 0) hbuilt
  obtain ⟨rfl, -⟩ := gives_unique hbuilt' hagain
  refine ⟨ρ, ?_, fun r' hr' => ?_⟩
  · rw [htables, htables', tables_map]
    simp only [List.map_map]
    refine List.map_congr_left fun t _ => ?_
    simp only [Function.comp_apply, bare_hinted, bare_under_decorate]
  · rw [hrelations', links_map (spares_under ρ)] at hr'
    obtain ⟨i, hi, rfl⟩ := List.mem_mapIdx.1 hr'
    rw [List.length_map] at hi
    refine ⟨_, by rw [hrelations]; exact List.mem_mapIdx.2 ⟨i, hi, rfl⟩, fun side => ?_⟩
    rw [List.getElem_map]
    cases side <;> exact ⟨rfl, rfl⟩

/-! ## Marks of a reading -/

/-- The columns of the tables that statements declare are not marked. -/
theorem buildAll_declared {n : Nat} {found : List Statement} {built : List Built}
    (h : (buildAll n found).Gives ids built ids') :
    ∀ t ∈ built, ∀ c ∈ t.table.columns, IsDeclared c := by
  intro t ht
  obtain ⟨-, _, _, _, _, _, _, -, -, hbuild⟩ := mem_buildAll h ht
  exact (buildTable_drawn hbuild).2.2

/-- After the reading a column is marked, or it says nothing of foreign keys. -/
theorem parse_settled {sql : Text} {parsed : Parsed} (h : (parse sql).Gives ids parsed ids') :
    ∀ t ∈ parsed.tables, ∀ c ∈ t.columns, c.IsSettled := by
  obtain ⟨built, mid, hbuilt, -, -, htables⟩ := parse_links h
  intro t ht c hc
  rw [htables] at ht
  obtain ⟨u, hu, rfl⟩ := List.mem_map.1 ht
  obtain ⟨v, hv, rfl⟩ := List.mem_map.1 hu
  obtain ⟨d, hd, rfl⟩ := List.mem_map.1 hc
  have hdeclared := buildAll_declared hbuilt v hv d hd
  rw [hinted]
  cases Flags.lastFrom? parsed.relations v.table.id d.id with
  | some r => exact .inl rfl
  | none => exact hdeclared.isSettled

end Sql

end SchemaDesk

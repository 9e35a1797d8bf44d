import SchemaDesk.Proofs.Edit.Renamed

/-!
# Identities under a merge

What a merge keeps, and where everything else comes from.  The tables of the project stay in place
with all that is not a column; the joined and the new tables have the declared columns, the joined
ones under existing identifiers where the names fit (`merged_bare`).  The relations that still
resolve stay first, and the declared ones follow under the identifiers of the columns that their
ends became (`merged_relations_eq`).

Tables are compared without the marks of foreign keys, which a merge derives from the relations.
-/

namespace SchemaDesk

/-! ## Resolution depends on shapes -/

section Shapes

variable {tables tables' : List Table}

theorem holdsColumn_eq_shape (tables : List Table) (t c : Value) :
    holdsColumn tables t c =
      ((tables.map Table.shape).reverse.find? (·.1.same t)).any fun s => s.2.any (·.same c) := by
  rw [holdsColumn, lastTable?, ← List.map_reverse, List.find?_map, Option.any_map]
  congr 1
  funext u
  show u.columns.any _ = (u.columns.map Column.id).any (·.same c)
  rw [List.any_map]
  rfl

/-- Whether a relation resolves depends on the shapes of the tables only. -/
theorem Relation.resolvesIn_congr_shape (h : tables.map Table.shape = tables'.map Table.shape)
    (r : Relation) : r.resolvesIn tables = r.resolvesIn tables' := by
  simp only [resolvesIn, holdsColumn_eq_shape, h]

end Shapes

/-- Only the ends of a relation decide where it resolves and which relations join the same. -/
theorem Relation.ends_congr {r s : Relation}
    (h : ∀ side, r.tableId side = s.tableId side ∧ r.columnId side = s.columnId side) :
    (∀ other : Relation, other.sameEnds r = other.sameEnds s) ∧
      ∀ tables, r.resolvesIn tables = s.resolvesIn tables := by
  obtain ⟨hst, hsc⟩ := h .source
  obtain ⟨htt, htc⟩ := h .target
  simp only [Relation.tableId, Relation.columnId] at hst hsc htt htc
  simp only [Relation.sameEnds, Relation.resolvesIn, hst, hsc, htt, htc, implies_true, and_self]

namespace Edit.Merge

variable {p : Project} {declared : List Table} {relations : List Relation}

/-! ## The merged project -/

/-- What a merge makes of a column: its reference is renamed, and then its marks are brought in line
with the relations. -/
def finished (p : Project) (declared : List Table) (relations : List Relation) (t : Value)
    (c : Column) : Column :=
  Flags.synced (merged p declared relations).relations t
    (renameReference (tableMoves p declared) (columnMoves p declared) c)

theorem merged_tables (p : Project) (declared : List Table) (relations : List Relation) :
    (merged p declared relations).tables =
      (joinedTables p declared).map (decorate (finished p declared relations)) := by
  rw [merged, Joined.into, Flags.sync_eq_mapColumns, Flags.mapColumns_eq, List.map_map]
  refine List.map_congr_left fun t _ => ?_
  simp only [Function.comp_apply, decorate, List.map_map]
  rfl

theorem cleared_finished (p : Project) (declared : List Table) (relations : List Relation)
    (t : Value) (c : Column) :
    Flags.cleared (finished p declared relations t c) = Flags.cleared c := by
  rw [finished, Flags.cleared_synced]
  rfl

theorem finished_id (p : Project) (declared : List Table) (relations : List Relation) (t : Value)
    (c : Column) : (finished p declared relations t c).id = c.id := by
  rw [finished, Flags.synced_id]
  rfl

theorem finished_name (p : Project) (declared : List Table) (relations : List Relation) (t : Value)
    (c : Column) : (finished p declared relations t c).name = c.name := by
  have hname := congrArg Column.name (cleared_finished p declared relations t c)
  exact hname

/-- Without marks, the merged tables are the joined ones and after them the new ones. -/
theorem merged_bare (hp : Named p.tables) (hdeclared : Named declared) :
    (merged p declared relations).tables.map Table.bare =
      (p.tables.map (mergedTable p.tables declared) ++
        newDeclarations p.tables declared).map Table.bare := by
  rw [merged_tables, ← joinedTables_eq hp hdeclared, List.map_map]
  refine List.map_congr_left fun t _ => ?_
  exact bare_decorate (cleared_finished p declared relations) t

/-- The relations that still resolve stay first; after them come the declared ones that resolve,
with new ends, and join columns that are not joined yet. -/
theorem merged_relations_eq (p : Project) (declared : List Table) (relations : List Relation) :
    (merged p declared relations).relations =
      p.relations.filter (·.resolvesIn (merged p declared relations).tables) ++
        newEnds (p.relations.filter (·.resolvesIn (merged p declared relations).tables))
          ((relations.map (renameEnds (tableMoves p declared) (columnMoves p declared))).filter
            (·.resolvesIn (merged p declared relations).tables)) := by
  -- the merge decides before it marks the columns, and marks leave the shapes as they are
  have hresolves : ∀ r : Relation,
      r.resolvesIn (merged p declared relations).tables =
        r.resolvesIn ((joinedTables p declared).map fun t =>
          { t with
            columns := t.columns.map
              (renameReference (tableMoves p declared) (columnMoves p declared)) }) := by
    refine Relation.resolvesIn_congr_shape ((merged_shape p declared relations).trans ?_)
    rw [List.map_map]
    refine List.map_congr_left fun t _ => ?_
    simp [Table.shape, Table.columnIds, renameReference, Function.comp_def]
  simp only [hresolves]
  exact foldl_addRelation_eq _ _ _

/-- A declaration that counts is found by its name after the merge. -/
theorem lastNamed?_merged (h : Mergeable p declared relations) {d : Table}
    (hd : lastNamed? declared d.name = some d) :
    lastNamed? (merged p declared relations).tables d.name =
      some (decorate (finished p declared relations) (placed p.tables d)) := by
  have hkeeps : ∀ t, (decorate (finished p declared relations) t).name = t.name := fun _ => rfl
  rw [merged_tables, lastNamed?_map hkeeps, lastNamed?_joinedTables h.tables h.declarations hd]
  rfl

theorem columns_decorate (p : Project) (declared : List Table) (relations : List Relation)
    (t : Table) :
    (decorate (finished p declared relations) t).columns.map Flags.cleared =
      t.columns.map Flags.cleared := by
  simp only [decorate, List.map_map, Function.comp_def, cleared_finished]

theorem columnIds_decorate (p : Project) (declared : List Table) (relations : List Relation)
    (t : Table) : (decorate (finished p declared relations) t).columnIds = t.columnIds := by
  simp only [Table.columnIds, decorate, List.map_map, Function.comp_def, finished_id]

/-- The identifier of a declaration that is superseded stays. -/
theorem tableMoves_superseded (h : Mergeable p declared relations) {d : Table} (hd : d ∈ declared)
    (hsuperseded : lastNamed? declared d.name ≠ some d) :
    renamed (tableMoves p declared) d.id = d.id := by
  refine tableMoves_other h.declaredTyped fun e he hsame => hsuperseded ?_
  obtain ⟨hmem, hlast⟩ := (mem_lastDeclarations_iff h.declarations).1 he
  rwa [table_unique h.sound.tableIds_append.2.1 hmem hd (congrArg Value.canon hsame)] at hlast

/-- A merge that can be made is made. -/
theorem Mergeable.gives (h : Mergeable p declared relations) (hp : p.IsSound)
    (hdeclared : Sound declared relations) (later : IdSupply) :
    (merge declared relations p).Gives later ((), some (merged p declared relations)) later :=
  merge_gives.2 ⟨check_eq_ok h.typed h.declaredTyped hp hdeclared, merged_sound h.sound, rfl, rfl⟩

end Edit.Merge

/-! ## Merging what a text declares -/

section Declared

open Edit.Merge

variable {p : Project} {ids ids' : IdSupply}

theorem Sql.Declares.mergeable {declared : List Table} {relations : List Relation}
    (h : Sql.Declares ids ids' declared relations) (hp : p.IsSound)
    (htyped : ∀ t ∈ p.tables, t.IsTyped) (hfresh : ids.FreshFor ids' p.snapshot) :
    Mergeable p declared relations :=
  ⟨h.beside hp hfresh, htyped, h.isTyped⟩

/-- Merging what a text declares into a sound project changes its tables and relations only.  Up to
the marks of their columns the tables are those of the project, the last of a declared name with the
declared columns, and after them the declared tables of new names; of a name declared twice the last
declaration counts.  The relations of the project that still resolve are followed by the declared
ones, with the identifiers that their ends have in the merged tables, if they resolve and join other
columns than the relations before them. -/
theorem merge_declared_keeps_identities {sql : Text} {parsed : Parsed}
    (hp : p.checkIntegrity = .ok ()) (htyped : ∀ t ∈ p.tables, t.IsTyped)
    (hparse : (Sql.parse sql).Gives ids parsed ids') (hfresh : ids.FreshFor ids' p.snapshot) :
    ∃ q, (∀ later, (Edit.merge parsed.tables parsed.relations p).Gives later ((), some q) later) ∧
      q = { p with tables := q.tables, relations := q.relations } ∧
      q.tables.map Table.bare =
        (p.tables.map (mergedTable p.tables parsed.tables) ++
          newDeclarations p.tables parsed.tables).map Table.bare ∧
      ∃ tableIds columnIds : Renaming,
        (∀ d ∈ parsed.tables, lastNamed? parsed.tables d.name = some d →
          ∃ u, lastNamed? q.tables d.name = some u ∧ renamed tableIds d.id = u.id ∧
            d.columnIds.map (renamed columnIds) = u.columnIds) ∧
        (∀ d ∈ parsed.tables, lastNamed? parsed.tables d.name ≠ some d →
          renamed tableIds d.id = d.id) ∧
        q.relations =
          p.relations.filter (·.resolvesIn q.tables) ++
            newEnds (p.relations.filter (·.resolvesIn q.tables))
              ((parsed.relations.map (renameEnds tableIds columnIds)).filter
                (·.resolvesIn q.tables)) := by
  have hsound := checkIntegrity_eq_ok_iff.1 hp
  have hdeclares := Sql.parse_declares hparse
  have hmergeable := hdeclares.mergeable hsound htyped hfresh
  refine ⟨merged p parsed.tables parsed.relations, hmergeable.gives hsound hdeclares.sound, rfl,
    merged_bare hmergeable.tables hmergeable.declarations,
    tableMoves p parsed.tables, columnMoves p parsed.tables, ?_, ?_, merged_relations_eq _ _ _⟩
  · intro d _ hlast
    exact ⟨_, lastNamed?_merged hmergeable hlast, tableMoves_placed hmergeable hlast,
      (columnMoves_placed hmergeable hlast).trans (columnIds_decorate _ _ _ _).symm⟩
  · exact fun d hd hsuperseded => tableMoves_superseded hmergeable hd hsuperseded

/-- A declaration that supersedes another one of its name is joined with the second of two tables of
that name. -/
theorem merge_declared_keeps_identities_repeated :
    ∃ parsed, (Sql.parse repeatedDeclarations).Gives ⟨20⟩ parsed ⟨27⟩ ∧
      ∃ q, (∀ later, (Edit.merge parsed.tables parsed.relations repeatedNames).Gives later
          ((), some q) later) ∧
        q = { repeatedNames with tables := q.tables, relations := q.relations } ∧
        q.tables.map Table.bare =
          (repeatedNames.tables.map (mergedTable repeatedNames.tables parsed.tables) ++
            newDeclarations repeatedNames.tables parsed.tables).map Table.bare ∧
        ∃ tableIds columnIds : Renaming,
          (∀ d ∈ parsed.tables, lastNamed? parsed.tables d.name = some d →
            ∃ u, lastNamed? q.tables d.name = some u ∧ renamed tableIds d.id = u.id ∧
              d.columnIds.map (renamed columnIds) = u.columnIds) ∧
          (∀ d ∈ parsed.tables, lastNamed? parsed.tables d.name ≠ some d →
            renamed tableIds d.id = d.id) ∧
          q.relations =
            repeatedNames.relations.filter (·.resolvesIn q.tables) ++
              newEnds (repeatedNames.relations.filter (·.resolvesIn q.tables))
                ((parsed.relations.map (renameEnds tableIds columnIds)).filter
                  (·.resolvesIn q.tables)) := by
  have hread : ((Sql.parse repeatedDeclarations).runFrom ⟨20⟩).1.isOk = true ∧
      ((Sql.parse repeatedDeclarations).runFrom ⟨20⟩).2 = ⟨27⟩ := by
    rw [repeatedDeclarations]
    repeat rw [Text.ofString_ofList]
    decide +kernel
  obtain ⟨parsed, hparse⟩ := Minting.gives_of_isOk hread.1 hread.2
  exact ⟨parsed, hparse, merge_declared_keeps_identities (by decide +kernel) (by decide +kernel)
    hparse (by decide +kernel)⟩

end Declared

end SchemaDesk

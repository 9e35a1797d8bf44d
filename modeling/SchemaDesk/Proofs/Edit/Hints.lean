import SchemaDesk.Proofs.Edit.Flags
import SchemaDesk.Proofs.Edit.Typed
import SchemaDesk.Proofs.Schema.Hints
import SchemaDesk.Proofs.Sql.Again

/-!
# Edits keep references accounted for

Adding a relation makes its source column repeat it, and deleting parts of a project releases the
columns that lost their last relation.  A merge makes every column repeat the last relation that
starts at it, if the declared columns are settled, and so are those that a text declares.  So each
edit leaves only columns that repeat what they may repeat (`Command.keeps_hints`), if patches leave
the fields alone that repeat a relation.
-/

namespace SchemaDesk

/-- Whether a command leaves what columns repeat to the relations: it takes in no columns but those
that it merges, which are settled and typed, and patches none of the fields that repeat a
relation. -/
def Command.LeavesHints : Command → Prop
  | .addColumn _ _ _ patch => ∀ entry ∈ patch, entry.1 ∉ Column.linkFields
  | .updateColumn _ _ patch => ∀ entry ∈ patch, entry.1 ∉ Column.linkFields
  | .merge tables _ => ∀ t ∈ tables, t.IsTyped ∧ ∀ c ∈ t.columns, c.IsSettled
  | .load _ => False
  | .append _ _ => False
  | _ => True

/-- Such a command takes in typed tables and references only. -/
theorem Command.LeavesHints.takesText {command : Command} (h : command.LeavesHints) :
    command.TakesText := by
  have hpatch : ∀ {patch : Patch}, (∀ entry ∈ patch, entry.1 ∉ Column.linkFields) →
      Patch.HasTextReferences patch := by
    intro patch hpatch entry hentry hkey
    exact absurd (List.mem_cons_of_mem _ hkey) (hpatch entry hentry)
  cases command
  case addColumn => exact hpatch h
  case updateColumn => exact hpatch h
  case merge => exact fun t ht => (h t ht).1
  case load => exact h.elim
  case append => exact h.elim
  all_goals trivial

/-! ## Patches -/

/-- A patch that names none of the fields that repeat a relation leaves them as they are. -/
theorem Column.patched_links {patch : Patch} (h : ∀ entry ∈ patch, entry.1 ∉ linkFields)
    (c : Column) :
    (Field.patched fields patch c).isForeignKey = c.isForeignKey ∧
      (Field.patched fields patch c).referencesTableId = c.referencesTableId ∧
      (Field.patched fields patch c).referencesColumnId = c.referencesColumnId := by
  have hkeeps : ∀ (view : Column → Value) (key : Text), key ∈ linkFields →
      (∀ f ∈ fields, (∀ v r, view (f.set v r) = view r) ∨
        (f.name = key ∧ ∀ v r, view (f.set v r) = v)) →
      view (Field.patched fields patch c) = view c := by
    intro view key hkey hview
    refine Field.patched_view (P := fun v => v = view c) view key hview (fun entry he hname => ?_) rfl
    exact absurd (hname ▸ hkey) (h entry he)
  refine ⟨hkeeps isForeignKey "is_foreign_key" (by decide) (by simp [fields]),
    hkeeps referencesTableId "references_table_id" (by decide) (by simp [fields]),
    hkeeps referencesColumnId "references_column_id" (by decide) (by simp [fields])⟩

/-- The patch of a column that passed its check names no field that the given one does not. -/
theorem Edit.checkColumnPatch_links {patch patch' : Patch} {place : Place}
    (h : checkColumnPatch patch place = .ok patch')
    (hpatch : ∀ entry ∈ patch, entry.1 ∉ Column.linkFields) :
    ∀ entry ∈ patch', entry.1 ∉ Column.linkFields :=
  withName_spares (· ∈ Column.linkFields) (checkColumnPatch_eq_ok h).2 hpatch

namespace Edit

open Minting

variable {p q : Project} {ids ids' : IdSupply} {patch : Patch} {seen : List Snapshot}

/-! ## Tables -/

theorem addTable_hinted {v : Value} {t : Table}
    (h : (addTable v patch p).Gives ids (t, some q) ids')
    (hp : Hinted seen p.tables p.relations) : Hinted seen q.tables q.relations := by
  obtain ⟨clean, -, hfields, rfl, hnext, rfl⟩ := addTable_gives h
  cases hnext
  intro u hu c hc
  rcases List.mem_append.1 hu with hu | hu
  · exact hp u hu c hc
  · rw [List.mem_singleton.1 hu, newTable_columns, List.mem_singleton] at hc
    rw [hc]
    exact .inl ⟨rfl, rfl, rfl⟩

theorem updateTable_hinted {id : Value} {t : Table}
    (h : (updateTable id patch p).Gives ids (t, some q) ids')
    (hp : Hinted seen p.tables p.relations) : Hinted seen q.tables q.relations := by
  obtain ⟨u, patch', hu, hkeys, rfl, hnext⟩ := updateTable_keeps h
  cases hnext
  refine hp.replace fun c hc => ?_
  rw [Table.patched_columns] at hc
  rw [Table.patched_id hkeys]
  exact hp u (Project.table?_eq_some hu).1 c hc

theorem deleteTable_hinted {id : Value} {a : Unit}
    (h : (deleteTable id p).Gives ids (a, some q) ids') (hp : Hinted seen p.tables p.relations)
    (hseen : p.snapshot ∈ seen) (hfound : ∀ t ∈ p.tables, t.id.isNan = false) :
    Hinted seen q.tables q.relations := by
  obtain ⟨t, -, hnext, -⟩ := deleteTable_gives h
  cases hnext
  have hrest : Hinted seen (p.tables.filter (!·.id.equals id)) p.snapshot.relations :=
    fun t ht => hp t (List.mem_filter.1 ht).1
  exact hrest.release hseen (fun t ht => hfound t (List.mem_filter.1 ht).1)
    (mem_filter_or_not _) (List.filter_subset_self _)

/-! ## Columns -/

theorem addColumn_hinted {tableId v type : Value} {c : Column}
    (h : (addColumn tableId v type patch p).Gives ids (c, some q) ids')
    (hp : Hinted seen p.tables p.relations)
    (hpatch : ∀ entry ∈ patch, entry.1 ∉ Column.linkFields) : Hinted seen q.tables q.relations := by
  obtain ⟨t, patch', ht, hcheck, rfl, hnext, -⟩ := addColumn_gives h
  cases hnext
  have hgiven : ∀ entry ∈ (Text.ofString "name", v) :: (Text.ofString "type", type) :: patch,
      entry.1 ∉ Column.linkFields := by
    simp only [List.forall_mem_cons]
    exact ⟨by decide +revert, by decide +revert, hpatch⟩
  obtain ⟨hflag, htable, hcolumn⟩ :=
    Column.patched_links (checkColumnPatch_links hcheck hgiven)
      { id := identifier (ids.drawn + 1), name := .null }
  refine hp.replace fun d hd => ?_
  rcases List.mem_append.1 hd with hd | hd
  · exact hp t (Project.table?_eq_some ht).1 d hd
  · rw [List.mem_singleton.1 hd]
    exact .inl ⟨hflag, htable, hcolumn⟩

theorem updateColumn_hinted {tableId columnId : Value} {c : Column}
    (h : (updateColumn tableId columnId patch p).Gives ids (c, some q) ids')
    (hp : Hinted seen p.tables p.relations)
    (hpatch : ∀ entry ∈ patch, entry.1 ∉ Column.linkFields) : Hinted seen q.tables q.relations := by
  obtain ⟨t, d, patch', ht, hd, hcheck, rfl, hnext, -⟩ := updateColumn_gives h
  cases hnext
  have hcolumns := hp t (Project.table?_eq_some ht).1
  obtain ⟨hflag, htable, hcolumn⟩ := Column.patched_links (checkColumnPatch_links hcheck hpatch) d
  refine hp.replace fun e he => ?_
  obtain ⟨e', he', rfl⟩ := List.mem_map.1 he
  split
  · exact (hcolumns d (Table.column?_eq_some hd).1).congr
      (Column.patched_id (checkColumnPatch_id hcheck) d) hflag htable hcolumn
  · exact hcolumns e' he'

theorem deleteColumn_hinted {tableId columnId : Value} {a : Unit}
    (h : (deleteColumn tableId columnId p).Gives ids (a, some q) ids')
    (hp : Hinted seen p.tables p.relations) (hseen : p.snapshot ∈ seen)
    (hfound : ∀ t ∈ p.tables, t.id.isNan = false) : Hinted seen q.tables q.relations := by
  obtain ⟨t, c, ht, -, -, hnext, -⟩ := deleteColumn_gives h
  cases hnext
  have hmem := (Project.table?_eq_some ht).1
  have hrest : Hinted seen (replaceTable p.tables
      { t with columns := t.columns.filter (!·.id.equals columnId) }) p.snapshot.relations :=
    hp.replace fun c hc => hp t hmem c (List.mem_filter.1 hc).1
  exact hrest.release hseen (found_replaceTable _ hfound hmem rfl) (mem_filter_or_not _)
    (List.filter_subset_self _)

/-! ## Relations -/

theorem addRelation_hinted {ends : Ends} {options : RelationOptions} {r : Relation}
    (h : (addRelation ends options patch p).Gives ids (r, some q) ids')
    (hp : Hinted seen p.tables p.relations) (htyped : ∀ t ∈ p.tables, t.IsTyped) :
    Hinted seen q.tables q.relations := by
  have htext := addRelation_textTargets h htyped
  obtain ⟨-, -, -, rfl, hnext, -⟩ := addRelation_gives h
  cases hnext
  exact hp.mark htext

theorem deleteRelation_hinted {id : Value} {a : Unit}
    (h : (deleteRelation id p).Gives ids (a, some q) ids')
    (hp : Hinted seen p.tables p.relations) (hseen : p.snapshot ∈ seen)
    (hfound : ∀ t ∈ p.tables, t.id.isNan = false) : Hinted seen q.tables q.relations := by
  obtain ⟨hnext | hnext, -⟩ := deleteRelation_gives h
  · cases hnext
  · cases hnext
    have hp : Hinted seen p.tables p.snapshot.relations := hp
    exact hp.release hseen hfound (mem_filter_or_not _) (List.filter_subset_self _)

/-! ## Declared tables -/

/-- The columns of a merge are those of both sides, under the identifiers of either. -/
theorem Merge.joinedTables_isSettled {declared : List Table}
    (hp : ∀ t ∈ p.tables, ∀ c ∈ t.columns, c.IsSettled)
    (hdeclared : ∀ t ∈ declared, ∀ c ∈ t.columns, c.IsSettled) :
    ∀ t ∈ joinedTables p declared, ∀ c ∈ t.columns, c.IsSettled := by
  intro t ht c hc
  rcases List.mem_append.1 ht with ht | ht
  · rcases mem_joinAll ht with ht | ⟨u, hu, d, hd, rfl⟩
    · exact hp t ht c hc
    · obtain ⟨pair, hpair, rfl⟩ := List.mem_map.1 hc
      have hcolumn := hdeclared d (mem_lastDeclarations hd) _ (mem_pairColumns hpair).1
      rw [joinedColumn]
      cases pair.2 with
      | none => exact hcolumn
      | some prior => exact isSettled_withId hcolumn _
  · exact hdeclared t (mem_lastDeclarations (List.mem_filter.1 ht).1) c hc

/-- After a merge every column repeats the last relation that starts at it. -/
theorem merged_hinted {tables : List Table} {relations : List Relation}
    (hp : Hinted seen p.tables p.relations) (htyped : ∀ t ∈ p.tables, t.IsTyped)
    (hdeclared : ∀ t ∈ tables, t.IsTyped)
    (hsettled : ∀ t ∈ tables, ∀ c ∈ t.columns, c.IsSettled) :
    Hinted seen (Merge.merged p tables relations).tables
      (Merge.merged p tables relations).relations := by
  rw [Merge.merged_tables]
  intro t ht c hc
  obtain ⟨u, hu, rfl⟩ := List.mem_map.1 ht
  obtain ⟨d, hd, rfl⟩ := List.mem_map.1 hc
  have hd := Merge.joinedTables_isSettled (fun t ht c hc => (hp t ht c hc).isSettled) hsettled u hu
    d hd
  rw [Merge.finished_of_settled htyped hdeclared hd]
  exact Flags.isHinted_hinted rfl

end Edit

/-! ## Every command -/

open Edit in
/-- A command that leaves what columns repeat to the relations leaves them repeating what they may
repeat, where the canvas before the command counts as one that was shown. -/
theorem Command.keeps_hints {name database : Value} {command : Command} {p q : Project}
    {ids ids' : IdSupply} {reply : Reply} {seen : List Snapshot}
    (h : (command.edit name database p).Gives ids (reply, some q) ids')
    (hleaves : command.LeavesHints) (hp : Hinted seen p.tables p.relations)
    (htyped : ∀ t ∈ p.tables, t.IsTyped) (hseen : p.snapshot ∈ seen)
    (hrestored : ∀ s, command = .restore s → Hinted seen s.tables s.relations) :
    Hinted seen q.tables q.relations := by
  have hfound : ∀ t ∈ p.tables, t.id.isNan = false := fun t ht =>
    Value.isNan_of_text (htyped t ht).id
  rcases Command.schema_cases h with ⟨htables, hrelations⟩ | hedits
  · rw [htables, hrelations]
    exact hp
  cases command <;> (rw [Command.edit, replying_gives] at h; obtain ⟨a, h, -⟩ := h) <;>
    try exact hedits.elim
  case reset =>
    obtain ⟨q', hnext, htables, hrelations⟩ := reset_gives h
    cases hnext
    rw [htables]
    exact Hinted.nil
  case addTable => exact addTable_hinted h hp
  case updateTable => exact updateTable_hinted h hp
  case moveTable => exact updateTable_hinted h hp
  case deleteTable => exact deleteTable_hinted h hp hseen hfound
  case addColumn => exact addColumn_hinted h hp hleaves
  case updateColumn => exact updateColumn_hinted h hp hleaves
  case deleteColumn => exact deleteColumn_hinted h hp hseen hfound
  case addRelation => exact addRelation_hinted h hp htyped
  case deleteRelation => exact deleteRelation_hinted h hp hseen hfound
  case restore =>
    obtain ⟨hnext, -⟩ := restore_gives h
    cases hnext
    exact hrestored _ rfl
  case load => exact hleaves.elim
  case append => exact hleaves.elim
  case merge =>
    obtain ⟨-, -, hnext, -⟩ := merge_gives.1 h
    cases hnext
    exact merged_hinted hp htyped (fun t ht => (hleaves t ht).1) fun t ht => (hleaves t ht).2

/-- The columns that a text declares repeat the relations that it declares. -/
theorem Sql.parse_hinted {sql : Text} {parsed : Parsed} {ids ids' : IdSupply} (seen : List Snapshot)
    (h : (Sql.parse sql).Gives ids parsed ids') : Hinted seen parsed.tables parsed.relations := by
  obtain ⟨built, mid, hbuilt, -, -, htables⟩ := parse_links h
  rw [htables]
  intro t ht c hc
  obtain ⟨u, hu, rfl⟩ := List.mem_map.1 ht
  obtain ⟨v, hv, rfl⟩ := List.mem_map.1 hu
  obtain ⟨d, hd, rfl⟩ := List.mem_map.1 hc
  exact Flags.isHinted_hinted (buildAll_declared hbuilt v hv d hd).cleared_eq

end SchemaDesk
